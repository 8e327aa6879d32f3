import Wireframe.Proofs.Analysis.Components

/-!
# What a document keeps of its outline

When misplaced children are not left out, a document is its outline without the elements whose tags
name no kind: each of these is replaced by its children. What is reported about tags and places is
one problem for each unknown tag and one for each edge of the document that its parent does not
accept, in the order of the elements (`document?_lenient`).
-/

namespace Wireframe

namespace Tree

variable {α : Type}

mutual

/-- The edges of a tree whose root has the given parent, from parent to child, the children in
preorder. -/
def edges (parent : Option α) : Tree α → List (α × α)
  | node a ts => (parent.map (·, a)).toList ++ edgesAll (some a) ts

/-- The edges of a forest whose roots have the given parent. -/
def edgesAll (parent : Option α) : List (Tree α) → List (α × α)
  | [] => []
  | t :: ts => t.edges parent ++ edgesAll parent ts

end

theorem edgesAll_append (parent : Option α) (ts us : List (Tree α)) :
    edgesAll parent (ts ++ us) = edgesAll parent ts ++ edgesAll parent us := by
  induction ts with
  | nil => rfl
  | cons t ts ih => rw [List.cons_append, edgesAll, edgesAll, ih, List.append_assoc]

theorem mapAll_append {β : Type} (f : α → β) (ts us : List (Tree α)) :
    mapAll f (ts ++ us) = mapAll f ts ++ mapAll f us := by
  rw [mapAll_eq, mapAll_eq, mapAll_eq, List.map_append]

end Tree

namespace Problem

/-- Whether a problem is a tag that names no kind. -/
def isUnknownTag : Problem → Bool
  | .unknownTag _ => true
  | _ => false

/-- Whether a problem is a component that its parent does not accept. -/
def isPlacement : Problem → Bool
  | .misplaced .. | .dropped .. => true
  | _ => false

/-- Whether a problem is about the tags of an outline or about which of them stand in which. -/
def isStructural (p : Problem) : Bool :=
  p.isUnknownTag || p.isPlacement

end Problem

namespace Analysis

open Identifier

mutual

/-- The elements of a tree whose tags name kinds, with their kinds. The others are replaced by what
becomes of their children. -/
def hoist : Tree Element → List (Tree (Kind × Element))
  | .node e ts =>
    match Vocabulary.kindOf? e.tag with
    | none => hoistAll ts
    | some kind => [.node (kind, e) (hoistAll ts)]

/-- The same of a forest. -/
def hoistAll : List (Tree Element) → List (Tree (Kind × Element))
  | [] => []
  | t :: ts => hoist t ++ hoistAll ts

end

mutual

/-- The elements of a tree in preorder, each with the kind of the nearest element above it that has
one; `parent` stands for what is above the tree. -/
def owned (parent : Option Kind) : Tree Element → List (Element × Option Kind)
  | .node e ts => (e, parent) :: ownedAll ((Vocabulary.kindOf? e.tag).or parent) ts

/-- The elements of a forest. -/
def ownedAll (parent : Option Kind) : List (Tree Element) → List (Element × Option Kind)
  | [] => []
  | t :: ts => owned parent t ++ ownedAll parent ts

end

/-- What is wrong with the tag of an element. A missing tag is a matter of reading. -/
def unknown? (e : Element) : Option Diagnostic :=
  if Vocabulary.kindOf? e.tag = none ∧ e.tag ≠ "" then some ⟨.unknownTag e.tag, e.location⟩
  else none

/-- What is wrong with a component of one kind in a component of another. -/
def misfit? (parent kind : Kind) (p : Location) : Option Diagnostic :=
  if Nesting.accepts parent kind then none else some ⟨.misplaced parent kind, p⟩

/-- What is wrong with an edge of a document. -/
def rejected? (edge : (Kind × Element) × (Kind × Element)) : Option Diagnostic :=
  misfit? edge.1.1 edge.2.1 edge.2.2.location

/-- What is wrong with the place of an element below a component. -/
def misplaced? (x : Element × Option Kind) : Option Diagnostic :=
  (Vocabulary.kindOf? x.1.tag).bind fun kind =>
    x.2.bind fun parent => misfit? parent kind x.1.location

/-- What is wrong with the tag of an element or with its place. -/
def offence? (x : Element × Option Kind) : Option Diagnostic :=
  (unknown? x.1).or (misplaced? x)

theorem isStructural_assignId (ids : Allocator) (e : Element) (kind : Kind) :
    ∀ d ∈ (assignId ids e kind).2.1, d.problem.isStructural = false := by
  unfold assignId
  cases e.writtenId? with
  | none => exact List.forall_mem_nil _
  | some written =>
    dsimp only
    cases sanitize? written with
    | none => exact List.forall_mem_singleton.mpr rfl
    | some clean =>
      dsimp only
      obtain ⟨claim, rest⟩ := ids.claim clean
      cases claim with
      | granted => exact List.forall_mem_nil _
      | renamed => exact List.forall_mem_singleton.mpr rfl

theorem isStructural_platformProblems (target : Platform) (kind : Kind) (p : Location) :
    ∀ d ∈ platformProblems target kind p, d.problem.isStructural = false := by
  unfold platformProblems
  split
  · exact List.forall_mem_singleton.mpr rfl
  · exact List.forall_mem_nil _

theorem isStructural_entryProblems (e : Element) :
    ∀ d ∈ e.entryProblems, d.problem.isStructural = false := by
  intro d hd
  obtain ⟨a, -, rfl⟩ := List.mem_map.mp hd
  rfl

theorem filter_isStructural_eq_nil {ds : List Diagnostic}
    (h : ∀ d ∈ ds, d.problem.isStructural = false) :
    ds.filter (·.problem.isStructural) = [] :=
  List.filter_eq_nil_iff.mpr fun d hd => by simp [h d hd]

section Trees

variable (target : Platform)

mutual

theorem mapAll_trees_tree (parent : Option Kind) (ids : Allocator) (t : Tree Element) :
    Tree.mapAll (fun c => (c.kind, c.props)) (tree false target parent ids t).trees =
      Tree.mapAll (fun x => (x.1, x.2.props x.1)) (hoist t) := by
  match t with
  | .node e ts =>
    rw [tree, hoist]
    cases Vocabulary.kindOf? e.tag with
    | none => exact mapAll_trees parent ids ts
    | some kind =>
      have below := mapAll_trees (some kind) (assignId ids e kind).2.2 ts
      simp only [isDropped, Bool.false_and, Bool.false_eq_true, if_false, Tree.mapAll, Tree.map,
        below]

/-- The components are the elements that have kinds. -/
theorem mapAll_trees (parent : Option Kind) (ids : Allocator) (ts : List (Tree Element)) :
    Tree.mapAll (fun c => (c.kind, c.props)) (trees false target parent ids ts).trees =
      Tree.mapAll (fun x => (x.1, x.2.props x.1)) (hoistAll ts) := by
  match ts with
  | [] => rfl
  | t :: ts =>
    rw [trees, hoistAll, Tree.mapAll_append, Tree.mapAll_append, mapAll_trees_tree parent ids t,
      mapAll_trees parent _ ts]

end

mutual

theorem filter_problems_tree (parent : Option Kind) (ids : Allocator) (t : Tree Element) :
    (tree false target parent ids t).problems.filter (·.problem.isStructural) =
      (owned parent t).filterMap offence? := by
  match t with
  | .node e ts =>
    rw [tree, owned, List.filterMap_cons]
    cases hk : Vocabulary.kindOf? e.tag with
    | none =>
      simp only [List.filter_append, filter_problems parent ids ts, Option.none_or, offence?,
        misplaced?, unknown?, hk, Option.bind_none]
      by_cases ht : e.tag = "" <;> simp [ht, Problem.isStructural, Problem.isUnknownTag]
    | some kind =>
      have below := filter_problems (some kind) (assignId ids e kind).2.2 ts
      simp only [isDropped, Bool.false_and, Bool.false_eq_true, if_false, List.filter_append, below,
        filter_isStructural_eq_nil (isStructural_assignId ids e kind),
        filter_isStructural_eq_nil (isStructural_platformProblems target kind e.location),
        filter_isStructural_eq_nil (isStructural_entryProblems e), Option.some_or, offence?,
        misplaced?, unknown?, hk, List.append_nil, placement]
      cases parent with
      | none => rfl
      | some p =>
        by_cases ha : Nesting.accepts p kind <;>
          simp [ha, misfit?, Problem.isStructural, Problem.isPlacement]

/-- What is reported about tags and places. -/
theorem filter_problems (parent : Option Kind) (ids : Allocator) (ts : List (Tree Element)) :
    (trees false target parent ids ts).problems.filter (·.problem.isStructural) =
      (ownedAll parent ts).filterMap offence? := by
  match ts with
  | [] => rfl
  | t :: ts =>
    rw [trees, ownedAll, List.filter_append, List.filterMap_append,
      filter_problems_tree parent ids t, filter_problems parent _ ts]

end

end Trees

section Offences

mutual

theorem map_fst_owned (parent : Option Kind) (t : Tree Element) :
    (owned parent t).map Prod.fst = t.preorder.map Tree.value := by
  match t with
  | .node e ts =>
    rw [owned, Tree.preorder, List.map_cons, List.map_cons, map_fst_ownedAll]
    rfl

/-- The elements with what is above them are the elements. -/
theorem map_fst_ownedAll (parent : Option Kind) (ts : List (Tree Element)) :
    (ownedAll parent ts).map Prod.fst = (Tree.preorderAll ts).map Tree.value := by
  match ts with
  | [] => rfl
  | t :: ts =>
    rw [ownedAll, Tree.preorderAll, List.map_append, List.map_append, map_fst_owned parent t,
      map_fst_ownedAll parent ts]

end

mutual

theorem filterMap_owned (parent : Option (Kind × Element)) (t : Tree Element) :
    (owned (parent.map Prod.fst) t).filterMap misplaced? =
      (Tree.edgesAll parent (hoist t)).filterMap rejected? := by
  match t with
  | .node e ts =>
    rw [owned, hoist, List.filterMap_cons]
    cases hk : Vocabulary.kindOf? e.tag with
    | none =>
      have below := filterMap_ownedAll parent ts
      simp only [misplaced?, hk, Option.bind_none, Option.none_or, below]
    | some kind =>
      have below := filterMap_ownedAll (some (kind, e)) ts
      rw [Option.map_some] at below
      simp only [misplaced?, hk, Option.bind_some, Option.some_or, below, Tree.edgesAll, Tree.edges,
        List.append_nil, List.filterMap_append]
      cases parent with
      | none => rfl
      | some p =>
        simp only [Option.map_some, Option.bind_some, Option.toList_some, rejected?,
          List.filterMap_cons, List.filterMap_nil]
        cases misfit? p.1 kind e.location <;> rfl

/-- The elements in the wrong place are the ends of the edges that are not accepted. -/
theorem filterMap_ownedAll (parent : Option (Kind × Element)) (ts : List (Tree Element)) :
    (ownedAll (parent.map Prod.fst) ts).filterMap misplaced? =
      (Tree.edgesAll parent (hoistAll ts)).filterMap rejected? := by
  match ts with
  | [] => rfl
  | t :: ts =>
    rw [ownedAll, hoistAll, Tree.edgesAll_append, List.filterMap_append, List.filterMap_append,
      filterMap_owned parent t, filterMap_ownedAll parent ts]

end

theorem filter_offence? (x : Element × Option Kind) :
    (offence? x).filter (·.problem.isUnknownTag) = unknown? x.1 ∧
      (offence? x).filter (·.problem.isPlacement) = misplaced? x := by
  cases hk : Vocabulary.kindOf? x.1.tag with
  | none =>
    have tag : offence? x = unknown? x.1 := by simp [offence?, misplaced?, hk]
    have place : misplaced? x = none := by simp [misplaced?, hk]
    rw [tag, place, unknown?]
    split <;> exact ⟨rfl, rfl⟩
  | some kind =>
    have tag : unknown? x.1 = none := by simp [unknown?, hk]
    have place : offence? x = misplaced? x := by rw [offence?, tag, Option.none_or]
    rw [place, tag, misplaced?, hk, Option.bind_some]
    cases x.2 with
    | none => exact ⟨rfl, rfl⟩
    | some parent =>
      rw [Option.bind_some, misfit?]
      split <;> exact ⟨rfl, rfl⟩

/-- An unknown tag is an error, a component in the wrong place a warning. -/
theorem severity_offence? {x : Element × Option Kind} {d : Diagnostic} (h : offence? x = some d) :
    d.severity = if d.problem.isUnknownTag then .error else .warning := by
  rw [offence?, Option.or_eq_some_iff] at h
  rcases h with tag | ⟨-, place⟩
  · obtain ⟨-, rfl⟩ : _ ∧ (⟨.unknownTag x.1.tag, x.1.location⟩ : Diagnostic) = d := by
      simpa [unknown?] using tag
    rfl
  · obtain ⟨kind, -, below⟩ := Option.bind_eq_some_iff.mp place
    obtain ⟨parent, -, misfit⟩ := Option.bind_eq_some_iff.mp below
    obtain ⟨-, rfl⟩ : _ ∧ (⟨.misplaced parent kind, x.1.location⟩ : Diagnostic) = d := by
      simpa [misfit?] using misfit
    rfl

/-- The offences of one sort among the structural ones. -/
theorem filter_of_isStructural {p : Problem → Bool}
    (hp : ∀ q, p q = true → q.isStructural = true)
    {ds : List Diagnostic} {xs : List (Element × Option Kind)}
    (h : ds.filter (·.problem.isStructural) = xs.filterMap offence?) :
    ds.filter (fun d => p d.problem) =
      xs.filterMap fun x => (offence? x).filter fun d => p d.problem := by
  rw [← List.filter_filterMap, ← h, List.filter_filter]
  refine List.filter_congr fun d _ => ?_
  cases hd : p d.problem with
  | false => rfl
  | true => rw [hp _ hd, Bool.and_self]

end Offences

/-- That there are no components is about neither tags nor places. -/
theorem filter_document? (o : Outline) (options : Options) :
    (document? o options).2.filter (·.problem.isStructural) =
      (components o options).problems.filter (·.problem.isStructural) := by
  rw [document?_snd, List.filter_append]
  split
  · exact List.append_nil _
  · exact List.append_nil _

theorem hoistAll_eq_nil_iff {o : Outline} {cs : List (Tree Component)}
    (h : Tree.mapAll (fun c => (c.kind, c.props)) cs =
      Tree.mapAll (fun x => (x.1, x.2.props x.1)) (hoistAll o)) : cs = [] ↔ hoistAll o = [] := by
  rw [Tree.mapAll_eq, Tree.mapAll_eq] at h
  rw [← List.map_eq_nil_iff, h, List.map_eq_nil_iff]

/-- The document of an outline when misplaced children are not left out, and what is reported about
tags and places: unknown tags as errors, misplaced components as warnings. -/
theorem document?_lenient (o : Outline) (options : Options) :
    let r := document? o { options with strict := false }
    (r.1.map fun d => Tree.mapAll (fun c => (c.kind, c.props)) d.children) =
        (if hoistAll o = [] then none
          else some (Tree.mapAll (fun x => (x.1, x.2.props x.1)) (hoistAll o))) ∧
      r.2.filter (·.problem.isStructural) = (ownedAll none o).filterMap offence? ∧
      r.2.filter (·.problem.isUnknownTag) =
        (Tree.preorderAll o).filterMap (fun t => unknown? t.value) ∧
      r.2.filter (·.problem.isPlacement) =
        (Tree.edgesAll none (hoistAll o)).filterMap rejected? ∧
      ∀ d ∈ r.2, d.problem.isStructural = true →
        d.severity = if d.problem.isUnknownTag then .error else .warning := by
  intro r
  have fst : r.1 = _ := document?_fst o { options with strict := false }
  have shape : Tree.mapAll (fun c => (c.kind, c.props))
      (components o { options with strict := false }).trees = _ :=
    mapAll_trees _ none _ o
  have nil := hoistAll_eq_nil_iff shape
  have structural : r.2.filter (·.problem.isStructural) =
      (ownedAll none o).filterMap offence? :=
    (filter_document? o _).trans (filter_problems _ none _ o)
  refine ⟨?_, structural, ?_, ?_, fun d hd hs => ?_⟩
  · rw [fst]
    by_cases ho : hoistAll o = []
    · rw [if_pos (nil.mpr ho), if_pos ho, Option.map_none]
    · rw [if_neg (mt nil.mp ho), if_neg ho, Option.map_some, shape]
  · rw [filter_of_isStructural (p := Problem.isUnknownTag) (by simp_all [Problem.isStructural])
      structural]
    have elements := congrArg (List.filterMap unknown?) (map_fst_ownedAll none o)
    rw [List.filterMap_map, List.filterMap_map] at elements
    simp only [filter_offence?]
    exact elements
  · rw [filter_of_isStructural (p := Problem.isPlacement) (by simp_all [Problem.isStructural])
      structural]
    simp only [filter_offence?]
    exact filterMap_ownedAll none o
  · have kept : d ∈ r.2.filter (·.problem.isStructural) := List.mem_filter.mpr ⟨hd, hs⟩
    rw [structural] at kept
    obtain ⟨x, -, hx⟩ := List.mem_filterMap.mp kept
    exact severity_offence? hx

end Analysis

end Wireframe
