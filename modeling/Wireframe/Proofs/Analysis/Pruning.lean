import Wireframe.Proofs.Analysis.Hoisting
import Wireframe.Proofs.Analysis.Ids
import Wireframe.Proofs.Analysis.Trimming

/-!
# What a strict policy leaves out

Under a strict policy a document is the one of the lenient policy, pruned: from the top on, each
component that its parent does not accept is gone with all that is below it. One error is reported
for each edge at which the document is cut, and where there is nothing to cut the policies agree
(`document?_strict`).
-/

namespace Wireframe

namespace Tree

variable {α β : Type}

mutual

/-- A tree without the nodes that their parents do not accept and without what is below these. A
node without a parent stays. -/
def prune (accepts : α → α → Bool) (parent : Option α) : Tree α → List (Tree α)
  | node a ts => if parent.all (accepts · a) then [node a (pruneAll accepts (some a) ts)] else []

/-- The same of a forest whose roots have the given parent. -/
def pruneAll (accepts : α → α → Bool) (parent : Option α) : List (Tree α) → List (Tree α)
  | [] => []
  | t :: ts => t.prune accepts parent ++ pruneAll accepts parent ts

end

mutual

/-- The edges at which a tree is pruned, from parent to child: the topmost nodes that are not
accepted. No edge below such a node is among them. -/
def cuts (accepts : α → α → Bool) (parent : Option α) : Tree α → List (α × α)
  | node a ts =>
    if parent.all (accepts · a) then cutsAll accepts (some a) ts else (parent.map (·, a)).toList

/-- The edges at which a forest is pruned. -/
def cutsAll (accepts : α → α → Bool) (parent : Option α) : List (Tree α) → List (α × α)
  | [] => []
  | t :: ts => t.cuts accepts parent ++ cutsAll accepts parent ts

end

theorem pruneAll_append (accepts : α → α → Bool) (parent : Option α) (ts us : List (Tree α)) :
    pruneAll accepts parent (ts ++ us) = pruneAll accepts parent ts ++ pruneAll accepts parent us := by
  induction ts with
  | nil => rfl
  | cons t ts ih => rw [List.cons_append, pruneAll, pruneAll, ih, List.append_assoc]

theorem cutsAll_append (accepts : α → α → Bool) (parent : Option α) (ts us : List (Tree α)) :
    cutsAll accepts parent (ts ++ us) = cutsAll accepts parent ts ++ cutsAll accepts parent us := by
  induction ts with
  | nil => rfl
  | cons t ts ih => rw [List.cons_append, cutsAll, cutsAll, ih, List.append_assoc]

section

variable (f : α → β) (accepts : β → β → Bool)

mutual

theorem mapAll_prune (parent : Option α) (t : Tree α) :
    mapAll f (t.prune (fun a b => accepts (f a) (f b)) parent) =
      (t.map f).prune accepts (parent.map f) := by
  match t with
  | node a ts =>
    have below := mapAll_pruneAll (some a) ts
    rw [prune, map, prune, Option.all_map]
    -- the two conditions are the same up to unfolding
    change mapAll f (if parent.all (fun x => accepts (f x) (f a)) then _ else []) =
      if parent.all (fun x => accepts (f x) (f a)) then _ else []
    split
    · rw [mapAll, mapAll, map, below, Option.map_some]
    · rfl

/-- Other values that are accepted alike are pruned alike. -/
theorem mapAll_pruneAll (parent : Option α) (ts : List (Tree α)) :
    mapAll f (pruneAll (fun a b => accepts (f a) (f b)) parent ts) =
      pruneAll accepts (parent.map f) (mapAll f ts) := by
  match ts with
  | [] => rfl
  | t :: ts =>
    rw [pruneAll, mapAll_append, mapAll_prune parent t, mapAll_pruneAll parent ts, mapAll, pruneAll]

end

mutual

theorem map_cuts (parent : Option α) (t : Tree α) :
    (t.cuts (fun a b => accepts (f a) (f b)) parent).map (Prod.map f f) =
      (t.map f).cuts accepts (parent.map f) := by
  match t with
  | node a ts =>
    have below := map_cutsAll (some a) ts
    rw [cuts, map, cuts, Option.all_map]
    change List.map (Prod.map f f) (if parent.all (fun x => accepts (f x) (f a)) then _ else _) =
      if parent.all (fun x => accepts (f x) (f a)) then _ else _
    split
    · exact below
    · cases parent <;> rfl

/-- Other values that are accepted alike are cut off at the same edges. -/
theorem map_cutsAll (parent : Option α) (ts : List (Tree α)) :
    (cutsAll (fun a b => accepts (f a) (f b)) parent ts).map (Prod.map f f) =
      cutsAll accepts (parent.map f) (mapAll f ts) := by
  match ts with
  | [] => rfl
  | t :: ts =>
    rw [cutsAll, List.map_append, map_cuts parent t, map_cutsAll parent ts, mapAll, cutsAll]

end

end

end Tree

namespace Analysis

open Identifier

/-- Whether an element may stand in another: a lenient policy allows all. -/
def allows (strict : Bool) (x y : Kind × Element) : Bool :=
  !strict || Nesting.accepts x.1 y.1

/-- The elements of an outline that become components, with their kinds. -/
def survivors (strict : Bool) (o : Outline) : List (Tree (Kind × Element)) :=
  Tree.pruneAll (allows strict) none (hoistAll o)

theorem isDropped_eq (strict : Bool) (parent : Option (Kind × Element)) (x : Kind × Element) :
    isDropped strict (parent.map Prod.fst) x.1 = !parent.all (allows strict · x) := by
  cases parent <;> cases strict <;> simp [isDropped, allows]

section Trees

variable (target : Platform)

mutual

theorem mapAll_tree (strict : Bool) (parent : Option (Kind × Element)) (ids : Allocator)
    (t : Tree Element) :
    Tree.mapAll (fun c => (c.kind, c.props))
        (tree strict target (parent.map Prod.fst) ids t).trees =
      Tree.mapAll (fun x => (x.1, x.2.props x.1))
        (Tree.pruneAll (allows strict) parent (hoist t)) := by
  match t with
  | .node e ts =>
    rw [tree, hoist]
    cases Vocabulary.kindOf? e.tag with
    | none => exact mapAll_treesOf strict parent ids ts
    | some kind =>
      have below := mapAll_treesOf strict (some (kind, e)) (assignId ids e kind).2.2 ts
      rw [Option.map_some] at below
      dsimp only
      rw [isDropped_eq strict parent (kind, e), Tree.pruneAll, Tree.prune]
      cases parent.all (allows strict · (kind, e)) with
      | false => rfl
      | true => simp [Tree.mapAll, Tree.map, Tree.pruneAll, below]

/-- The components are the elements that survive. -/
theorem mapAll_treesOf (strict : Bool) (parent : Option (Kind × Element)) (ids : Allocator)
    (ts : List (Tree Element)) :
    Tree.mapAll (fun c => (c.kind, c.props))
        (trees strict target (parent.map Prod.fst) ids ts).trees =
      Tree.mapAll (fun x => (x.1, x.2.props x.1))
        (Tree.pruneAll (allows strict) parent (hoistAll ts)) := by
  match ts with
  | [] => rfl
  | t :: ts =>
    rw [trees, hoistAll, Tree.pruneAll_append, Tree.mapAll_append, Tree.mapAll_append,
      mapAll_tree strict parent ids t, mapAll_treesOf strict parent _ ts]

end

/-- The error about an element that is left out. -/
def dropping (edge : (Kind × Element) × (Kind × Element)) : Diagnostic :=
  ⟨.dropped edge.1.1 edge.2.1, edge.2.2.location⟩

theorem filter_isPlacement_eq_nil {ds : List Diagnostic}
    (h : ∀ d ∈ ds, d.problem.isStructural = false) : ds.filter (·.problem.isPlacement) = [] := by
  refine List.filter_eq_nil_iff.mpr fun d hd => ?_
  have := h d hd
  rw [Problem.isStructural, Bool.or_eq_false_iff] at this
  simp [this.2]

theorem filter_placement (parent : Option (Kind × Element)) (x : Kind × Element) :
    (placement true (parent.map Prod.fst) x.1 x.2.location).filter (·.problem.isPlacement) =
      if parent.all (allows true · x) then [] else (parent.map fun p => dropping (p, x)).toList := by
  cases parent with
  | none => rfl
  | some p =>
    by_cases h : Nesting.accepts p.1 x.1 <;>
      simp [placement, allows, h, Problem.isPlacement, dropping]

mutual

theorem filter_dropped_tree (parent : Option (Kind × Element)) (ids : Allocator)
    (t : Tree Element) :
    (tree true target (parent.map Prod.fst) ids t).problems.filter (·.problem.isPlacement) =
      (Tree.cutsAll (allows true) parent (hoist t)).map dropping := by
  match t with
  | .node e ts =>
    rw [tree, hoist]
    cases Vocabulary.kindOf? e.tag with
    | none =>
      have tag : (if e.tag = "" then [] else [(⟨.unknownTag e.tag, e.location⟩ : Diagnostic)]).filter
          (·.problem.isPlacement) = [] := by
        split <;> rfl
      dsimp only
      rw [List.filter_append, tag, filter_dropped parent ids ts]
      rfl
    | some kind =>
      have below := filter_dropped (some (kind, e)) (assignId ids e kind).2.2 ts
      have place := filter_placement parent (kind, e)
      rw [Option.map_some] at below
      dsimp only at place ⊢
      rw [isDropped_eq true parent (kind, e), Tree.cutsAll, Tree.cuts, Tree.cutsAll,
        List.append_nil]
      cases hk : parent.all (allows true · (kind, e)) with
      | false =>
        rw [hk] at place
        exact place.trans (by cases parent <;> rfl)
      | true =>
        rw [hk] at place
        simp only [Bool.not_true, Bool.false_eq_true, if_false, if_true, List.filter_append, place,
          filter_isPlacement_eq_nil (isStructural_assignId ids e kind),
          filter_isPlacement_eq_nil (isStructural_platformProblems target kind e.location),
          filter_isPlacement_eq_nil (isStructural_entryProblems e), List.nil_append, below]

/-- What a strict policy reports about places. -/
theorem filter_dropped (parent : Option (Kind × Element)) (ids : Allocator)
    (ts : List (Tree Element)) :
    (trees true target (parent.map Prod.fst) ids ts).problems.filter (·.problem.isPlacement) =
      (Tree.cutsAll (allows true) parent (hoistAll ts)).map dropping := by
  match ts with
  | [] => rfl
  | t :: ts =>
    rw [trees, hoistAll, Tree.cutsAll_append, List.filter_append, List.map_append,
      filter_dropped_tree parent ids t, filter_dropped parent _ ts]

end

theorem accepted_of_placement {strict : Bool} {parent : Option Kind} {kind : Kind} {p : Location}
    (h : ∀ d ∈ placement strict parent kind p, d.problem.isPlacement = false) :
    parent.all (Nesting.accepts · kind) = true := by
  cases parent with
  | none => rfl
  | some q =>
    cases refused : Nesting.accepts q kind with
    | true => exact refused
    | false =>
      have said : (⟨if strict then .dropped q kind else .misplaced q kind, p⟩ : Diagnostic) ∈
          placement strict (some q) kind p := by simp [placement, refused]
      have quiet := h _ said
      cases strict <;> cases quiet

theorem placement_of_accepted {strict : Bool} {parent : Option Kind} {kind : Kind} {p : Location}
    (h : parent.all (Nesting.accepts · kind) = true) : placement strict parent kind p = [] := by
  cases parent with
  | none => rfl
  | some q => exact if_pos h

theorem isDropped_of_accepted {strict : Bool} {parent : Option Kind} {kind : Kind}
    (h : parent.all (Nesting.accepts · kind) = true) : isDropped strict parent kind = false := by
  cases parent <;> simp_all [isDropped]

mutual

theorem tree_strict_eq (parent : Option Kind) (ids : Allocator) (t : Tree Element)
    (h : ∀ d ∈ (tree false target parent ids t).problems, d.problem.isPlacement = false) :
    tree true target parent ids t = tree false target parent ids t := by
  match t with
  | .node e ts =>
    rw [tree] at h ⊢
    rw [tree]
    cases hk : Vocabulary.kindOf? e.tag with
    | none =>
      rw [hk] at h
      have below := trees_strict_eq parent ids ts (List.forall_mem_append.mp h).2
      simp only [below]
    | some kind =>
      rw [hk] at h
      simp only [isDropped, Bool.false_and, Bool.false_eq_true, if_false, List.append_assoc,
        List.forall_mem_append] at h
      obtain ⟨place, -, -, -, problems⟩ := h
      have below := trees_strict_eq (some kind) (assignId ids e kind).2.2 ts problems
      have fits := accepted_of_placement place
      simp only [isDropped_of_accepted fits, placement_of_accepted fits, below]

/-- Where no place is wrong the policies agree. -/
theorem trees_strict_eq (parent : Option Kind) (ids : Allocator) (ts : List (Tree Element))
    (h : ∀ d ∈ (trees false target parent ids ts).problems, d.problem.isPlacement = false) :
    trees true target parent ids ts = trees false target parent ids ts := by
  match ts with
  | [] => rfl
  | t :: ts =>
    rw [trees] at h
    obtain ⟨here, later⟩ := List.forall_mem_append.mp h
    have first := tree_strict_eq parent ids t here
    rw [trees, trees, first, trees_strict_eq parent _ ts later]

end

end Trees

theorem children_document? (o : Outline) (options : Options) :
    (document? o options).1.elim [] Document.children = (components o options).trees := by
  rw [document?_fst]
  split
  next nothing => exact nothing.symm
  next => rfl

theorem nodes_document? (o : Outline) (options : Options) :
    (document? o options).1.elim [] Document.nodes =
      Tree.preorderAll (components o options).trees := by
  rw [document?_fst]
  split
  next nothing => rw [nothing]; rfl
  next => exact Document.nodes_eq _

/-- The components of a document are the elements that survive. -/
theorem map_value_nodes (o : Outline) (options : Options) :
    ((document? o options).1.elim [] Document.nodes).map
        (fun t => (t.value.kind, t.value.props)) =
      (Tree.preorderAll (survivors options.strict o)).map
        (fun t => (t.value.1, t.value.2.props t.value.1)) := by
  have shape : Tree.mapAll _ (components o options).trees = _ :=
    mapAll_treesOf options.target options.strict none _ o
  have values := congrArg (fun ts => (Tree.preorderAll ts).map Tree.value) shape
  rw [Tree.map_value_preorderAll_mapAll, Tree.map_value_preorderAll_mapAll] at values
  rw [nodes_document?]
  exact values

/-- Ids aside, strict components are the lenient ones, pruned. -/
theorem mapAll_trees_strict (target : Platform) (ids : Allocator) (o : Outline) :
    Tree.mapAll (fun c => (c.kind, c.props)) (trees true target none ids o).trees =
      Tree.mapAll (fun c => (c.kind, c.props))
        (Tree.pruneAll (fun p c => Nesting.accepts p.kind c.kind) none
          (trees false target none ids o).trees) := by
  let accepts : Kind × Table Value → Kind × Table Value → Bool :=
    fun x y => Nesting.accepts x.1 y.1
  have lenient : Tree.mapAll (fun c => (c.kind, c.props)) (trees false target none ids o).trees =
      Tree.mapAll (fun x => (x.1, x.2.props x.1)) (hoistAll o) := mapAll_trees target none ids o
  calc Tree.mapAll (fun c => (c.kind, c.props)) (trees true target none ids o).trees
      = Tree.mapAll (fun x => (x.1, x.2.props x.1)) (survivors true o) :=
        mapAll_treesOf target true none ids o
    _ = Tree.pruneAll accepts none (Tree.mapAll (fun x => (x.1, x.2.props x.1)) (hoistAll o)) :=
        Tree.mapAll_pruneAll (fun x => (x.1, x.2.props x.1)) accepts none (hoistAll o)
    _ = Tree.pruneAll accepts none
          (Tree.mapAll (fun c => (c.kind, c.props)) (trees false target none ids o).trees) := by
        rw [lenient]
    _ = _ :=
        (Tree.mapAll_pruneAll (fun c : Component => (c.kind, c.props)) accepts none _).symm

/-- The edges at which a strict policy cuts are those at which the lenient components are cut. -/
theorem map_cutsAll_trees (target : Platform) (ids : Allocator) (o : Outline) :
    (Tree.cutsAll (fun p c => Nesting.accepts p.kind c.kind) none
        (trees false target none ids o).trees).map (fun e => (e.1.kind, e.2.kind)) =
      (Tree.cutsAll (allows true) none (hoistAll o)).map (fun e => (e.1.1, e.2.1)) := by
  let accepts : Kind × Table Value → Kind × Table Value → Bool :=
    fun x y => Nesting.accepts x.1 y.1
  have lenient : Tree.mapAll (fun c => (c.kind, c.props)) (trees false target none ids o).trees =
      Tree.mapAll (fun x => (x.1, x.2.props x.1)) (hoistAll o) := mapAll_trees target none ids o
  have made := Tree.map_cutsAll (fun c : Component => (c.kind, c.props)) accepts none
    (trees false target none ids o).trees
  have met := Tree.map_cutsAll (fun x : Kind × Element => (x.1, x.2.props x.1)) accepts none
    (hoistAll o)
  rw [lenient] at made
  have edges := congrArg (List.map fun e => (e.1.1, e.2.1)) (made.trans met.symm)
  rw [List.map_map, List.map_map] at edges
  exact edges

/-- That there are no components is not about places. -/
theorem filter_isPlacement_document? (o : Outline) (options : Options) :
    (document? o options).2.filter (·.problem.isPlacement) =
      (components o options).problems.filter (·.problem.isPlacement) := by
  rw [document?_snd, List.filter_append]
  split
  · exact List.append_nil _
  · exact List.append_nil _

/-- No policy leaves nothing of an outline of which the other leaves something. -/
theorem components_eq_nil_iff (o : Outline) (options : Options) :
    (components o { options with strict := true }).trees = [] ↔
      (components o { options with strict := false }).trees = [] :=
  (trees_eq_nil_iff true options.target _ o).trans
    (trees_eq_nil_iff false options.target _ o).symm

/-- Ids aside, the strict document is the lenient one, pruned. -/
theorem document?_pruned (o : Outline) (options : Options) :
    ((document? o { options with strict := true }).1.map fun d =>
        (Tree.mapAll (fun c => (c.kind, c.props)) d.children, d.platform, d.navigation)) =
      ((document? o { options with strict := false }).1.map fun d =>
        (Tree.mapAll (fun c => (c.kind, c.props))
            (Tree.pruneAll (fun p c => Nesting.accepts p.kind c.kind) none d.children),
          d.platform, d.navigation)) := by
  rw [document?_fst, document?_fst]
  by_cases nothing : (components o { options with strict := true }).trees = []
  · rw [if_pos nothing, if_pos ((components_eq_nil_iff o options).mp nothing), Option.map_none,
      Option.map_none]
  · rw [if_neg nothing, if_neg (mt (components_eq_nil_iff o options).mpr nothing),
      Option.map_some, Option.map_some]
    have shape := mapAll_trees_strict options.target
      ((writtenIds o).foldl Allocator.reserve .empty) o
    exact congrArg (fun ts => some (ts, options.target, options.navigation)) shape

theorem isSome_document?_strict (o : Outline) (options : Options) :
    (document? o { options with strict := true }).1.isSome =
      (document? o { options with strict := false }).1.isSome := by
  have both := congrArg Option.isSome (document?_pruned o options)
  rwa [Option.isSome_map, Option.isSome_map] at both

/-- The errors about places, with where they are. -/
theorem filter_isPlacement_strict (o : Outline) (options : Options) :
    (document? o { options with strict := true }).2.filter (·.problem.isPlacement) =
      (Tree.cutsAll (allows true) none (hoistAll o)).map dropping :=
  (filter_isPlacement_document? o { options with strict := true }).trans
    (filter_dropped options.target none _ o)

/-- The errors about places, told by the lenient document. -/
theorem map_problem_filter_isPlacement_strict (o : Outline) (options : Options) :
    ((document? o { options with strict := true }).2.filter (·.problem.isPlacement)).map
        (·.problem) =
      (Tree.cutsAll (fun p c => Nesting.accepts p.kind c.kind) none
        ((document? o { options with strict := false }).1.elim [] Document.children)).map
          (fun e => .dropped e.1.kind e.2.kind) := by
  have edges := map_cutsAll_trees options.target
    ((writtenIds o).foldl Allocator.reserve .empty) o
  have problems := congrArg (List.map fun e : Kind × Kind => Problem.dropped e.1 e.2) edges
  rw [List.map_map, List.map_map] at problems
  rw [filter_isPlacement_strict, children_document?, List.map_map]
  exact problems.symm

theorem isError_of_isPlacement (o : Outline) (options : Options) :
    ∀ d ∈ (document? o { options with strict := true }).2, d.problem.isPlacement = true →
      d.isError = true := by
  intro d hd place
  have kept : d ∈ (document? o { options with strict := true }).2.filter
      (·.problem.isPlacement) := List.mem_filter.mpr ⟨hd, place⟩
  rw [filter_isPlacement_strict] at kept
  obtain ⟨edge, -, rfl⟩ := List.mem_map.mp kept
  rfl

/-- Without a misplaced component the policies agree on everything. -/
theorem document?_strict_eq {o : Outline} {options : Options}
    (quiet : ∀ d ∈ (document? o { options with strict := false }).2,
      d.problem.isPlacement = false) :
    document? o { options with strict := true } = document? o { options with strict := false } := by
  have same : components o { options with strict := true } =
      components o { options with strict := false } := by
    refine trees_strict_eq options.target none _ o fun d hd => quiet d ?_
    rw [document?_snd]
    exact List.mem_append_left _ hd
  refine Prod.ext ?_ ?_
  · rw [document?_fst, document?_fst, same]
    rfl
  · rw [document?_snd, document?_snd, same]

/-- The strict document of an outline is the lenient one, pruned. Its errors about places are one
for each topmost component that is gone, and nothing that is below such a component is told
anything; where nothing is misplaced the policies agree. -/
theorem document?_strict (o : Outline) (options : Options) :
    let strict := document? o { options with strict := true }
    let lenient := document? o { options with strict := false }
    (strict.1.map fun d =>
        (Tree.mapAll (fun c => (c.kind, c.props)) d.children, d.platform, d.navigation)) =
      (lenient.1.map fun d =>
        (Tree.mapAll (fun c => (c.kind, c.props))
            (Tree.pruneAll (fun p c => Nesting.accepts p.kind c.kind) none d.children),
          d.platform, d.navigation)) ∧
    strict.1.isSome = lenient.1.isSome ∧
    (strict.2.filter (·.problem.isPlacement)).map (·.problem) =
      (Tree.cutsAll (fun p c => Nesting.accepts p.kind c.kind) none
        (lenient.1.elim [] Document.children)).map (fun e => .dropped e.1.kind e.2.kind) ∧
    strict.2.filter (·.problem.isPlacement) =
      (Tree.cutsAll (fun x y => Nesting.accepts x.1 y.1) none (hoistAll o)).map dropping ∧
    (∀ d ∈ strict.2, d.problem.isPlacement = true → d.isError = true) ∧
    (∀ o', trimAll none o' = trimAll none o → writtenIds o' = writtenIds o →
      document? o' { options with strict := true } = strict) ∧
    ((∀ d ∈ lenient.2, d.problem.isPlacement = false) → strict = lenient) :=
  ⟨document?_pruned o options, isSome_document?_strict o options,
    map_problem_filter_isPlacement_strict o options, filter_isPlacement_strict o options,
    isError_of_isPlacement o options, fun _ same ids => document?_of_trimAll_eq rfl same ids,
    document?_strict_eq⟩

/-- An outline with a card inside a text, below a tag that names no kind, and with a component in
this card that is misplaced as well. -/
def misplacing : Outline :=
  [.node (.bare "TEXT" (.id "t") .nowhere)
      [.node (.bare "X" .none .nowhere)
        [.node (.bare "CARD" .none .nowhere)
          [.node (.bare "ICON" .none .nowhere) [.node (.bare "CARD" .none .nowhere) []]]]],
    .node (.bare "CARD" .none .nowhere) []]

theorem document?_strict_misplacing :
    let strict := document? misplacing { strict := true }
    let lenient := document? misplacing { strict := false }
    lenient.1.map (fun d => d.nodes.map fun t => t.value.id) =
        some ["t", "card_1", "icon_1", "card_2", "card_3"] ∧
      strict.1.map (fun d => d.nodes.map fun t => t.value.id) = some ["t", "card_1"] ∧
      strict.2.filter (·.problem.isPlacement) = [⟨.dropped .text .card, .nowhere⟩] ∧
      document? [.node (.bare "CARD" .none .nowhere) []] { strict := true } =
        document? [.node (.bare "CARD" .none .nowhere) []] { strict := false } := by
  intro strict lenient
  have cut := (document?_strict misplacing {}).2.2.2.1
  have quiet := (document?_strict [.node (.bare "CARD" .none .nowhere) []] {}).2.2.2.2.2.2
  exact ⟨by decide +kernel, by decide +kernel, cut.trans (by decide +kernel),
    quiet (by decide +kernel)⟩

end Analysis

end Wireframe
