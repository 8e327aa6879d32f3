import Wireframe.Proofs.Analysis.Pruning

/-!
# Analysis in document order

What becomes of a forest is what comes of a run over its elements in preorder, each met with the
kind of component it stands in (`trees_eq_visitAll`). What is below an element that is left out is
not met. So a fact about what one element does to the ids that are handed out is one about whole
documents.
-/

namespace Wireframe.Analysis

open Identifier

mutual

/-- The elements of a tree that are met, in preorder, each with the kind of component it stands in;
`parent` stands for what is above the tree. -/
def visits (strict : Bool) (parent : Option Kind) : Tree Element → List (Element × Option Kind)
  | .node e ts =>
    (e, parent) ::
      match Vocabulary.kindOf? e.tag with
      | none => visitsAll strict parent ts
      | some kind => if isDropped strict parent kind then [] else visitsAll strict (some kind) ts

/-- The elements of a forest that are met. -/
def visitsAll (strict : Bool) (parent : Option Kind) :
    List (Tree Element) → List (Element × Option Kind)
  | [] => []
  | t :: ts => visits strict parent t ++ visitsAll strict parent ts

end

/-- The kind of component that an element becomes where it is met, with the element. -/
def survivor? (strict : Bool) (x : Element × Option Kind) : Option (Kind × Element) :=
  (Vocabulary.kindOf? x.1.tag).bind fun kind =>
    if isDropped strict x.2 kind then none else some (kind, x.1)

/-- What elements that are met leave behind: the ids that they get, what is to be said about them,
and the ids that are handed out then. -/
structure Visited where
  named : List (Element × String)
  problems : List Diagnostic
  ids : Allocator

section

variable (strict : Bool) (target : Platform)

/-- What one element leaves behind. -/
def visit (ids : Allocator) (x : Element × Option Kind) : Visited :=
  match Vocabulary.kindOf? x.1.tag with
  | none => ⟨[], if x.1.tag = "" then [] else [⟨.unknownTag x.1.tag, x.1.location⟩], ids⟩
  | some kind =>
    let placed := placement strict x.2 kind x.1.location
    if isDropped strict x.2 kind then ⟨[], placed, ids⟩
    else
      let (id, idProblems, ids) := assignId ids x.1 kind
      ⟨[(x.1, id)],
        placed ++ platformProblems target kind x.1.location ++ x.1.entryProblems ++ idProblems, ids⟩

/-- What elements that are met one after the other leave behind. -/
def visitAll (ids : Allocator) : List (Element × Option Kind) → Visited
  | [] => ⟨[], [], ids⟩
  | x :: xs =>
    let first := visit strict target ids x
    let more := visitAll first.ids xs
    ⟨first.named ++ more.named, first.problems ++ more.problems, more.ids⟩

theorem visit_of_unknown (ids : Allocator) {e : Element} (parent : Option Kind)
    (hk : Vocabulary.kindOf? e.tag = none) :
    visit strict target ids (e, parent) =
      ⟨[], if e.tag = "" then [] else [⟨.unknownTag e.tag, e.location⟩], ids⟩ := by
  simp only [visit, hk]

theorem visit_of_dropped (ids : Allocator) {e : Element} {kind : Kind} {parent : Option Kind}
    (hk : Vocabulary.kindOf? e.tag = some kind) (hd : isDropped strict parent kind = true) :
    visit strict target ids (e, parent) =
      ⟨[], placement strict parent kind e.location, ids⟩ := by
  simp only [visit, hk, hd, if_true]

theorem visit_of_kept (ids : Allocator) {e : Element} {kind : Kind} {parent : Option Kind}
    (hk : Vocabulary.kindOf? e.tag = some kind) (hd : isDropped strict parent kind = false) :
    visit strict target ids (e, parent) =
      ⟨[(e, (assignId ids e kind).1)],
        placement strict parent kind e.location ++ platformProblems target kind e.location ++
          e.entryProblems ++ (assignId ids e kind).2.1,
        (assignId ids e kind).2.2⟩ := by
  simp only [visit, hk, hd, Bool.false_eq_true, if_false]

/-- What is said about a component apart from its id. -/
theorem problem_of_mem_remarks {parent : Option Kind} {e : Element} {kind : Kind} {d : Diagnostic}
    (hd : d ∈ placement strict parent kind e.location ++
      platformProblems target kind e.location ++ e.entryProblems) :
    d.problem.isPlacement = true ∨ d.problem = .mobileOnWeb kind ∨ d.problem = .emptyKey := by
  rcases List.mem_append.mp hd with hd | entry
  · rcases List.mem_append.mp hd with place | platform
    · left
      cases parent with
      | none => cases place
      | some p =>
        obtain ⟨-, rfl⟩ : _ ∧ d = ⟨if strict then .dropped p kind else .misplaced p kind,
            e.location⟩ := by simpa [placement] using place
        cases strict <;> rfl
    · right; left
      obtain ⟨-, rfl⟩ : _ ∧ d = ⟨.mobileOnWeb kind, e.location⟩ := by
        simpa [platformProblems] using platform
      rfl
  · right; right
    obtain ⟨a, -, rfl⟩ := List.mem_map.mp entry
    rfl

theorem visitAll_append (ids : Allocator) (xs ys : List (Element × Option Kind)) :
    visitAll strict target ids (xs ++ ys) =
      let first := visitAll strict target ids xs
      let more := visitAll strict target first.ids ys
      ⟨first.named ++ more.named, first.problems ++ more.problems, more.ids⟩ := by
  induction xs generalizing ids with
  | nil => rfl
  | cons x xs ih => simp only [List.cons_append, visitAll, ih, List.append_assoc]

/-- What becomes of a forest, told by what its elements leave behind. -/
structure LeftBehind (r : Result) (v : Visited) : Prop where
  ids_trees : idsOf r.trees = v.named.map Prod.snd
  problems : r.problems = v.problems
  ids : r.ids = v.ids

mutual

theorem tree_eq_visitAll (parent : Option Kind) (ids : Allocator) (t : Tree Element) :
    LeftBehind (tree strict target parent ids t)
      (visitAll strict target ids (visits strict parent t)) := by
  match t with
  | .node e ts =>
    rw [tree, visits, visitAll]
    cases hk : Vocabulary.kindOf? e.tag with
    | none =>
      have below := trees_eq_visitAll parent ids ts
      rw [visit_of_unknown strict target ids parent hk]
      exact ⟨below.ids_trees, congrArg _ below.problems, below.ids⟩
    | some kind =>
      dsimp only
      cases hd : isDropped strict parent kind with
      | true =>
        rw [visit_of_dropped strict target ids hk hd]
        exact ⟨rfl, (List.append_nil _).symm, rfl⟩
      | false =>
        have below := trees_eq_visitAll (some kind) (assignId ids e kind).2.2 ts
        rw [visit_of_kept strict target ids hk hd]
        refine ⟨?_, congrArg _ below.problems, below.ids⟩
        exact (idsOf_singleton _ _).trans (congrArg _ below.ids_trees)

/-- The recursion over a forest is a run over its elements. -/
theorem trees_eq_visitAll (parent : Option Kind) (ids : Allocator) (ts : List (Tree Element)) :
    LeftBehind (trees strict target parent ids ts)
      (visitAll strict target ids (visitsAll strict parent ts)) := by
  match ts with
  | [] => exact ⟨rfl, rfl, rfl⟩
  | t :: ts =>
    have first := tree_eq_visitAll parent ids t
    have more := trees_eq_visitAll parent (tree strict target parent ids t).ids ts
    rw [first.ids] at more
    rw [trees, visitsAll, visitAll_append]
    dsimp only
    rw [first.ids]
    refine ⟨?_, ?_, more.ids⟩
    · rw [idsOf_append, List.map_append, first.ids_trees, more.ids_trees]
    · rw [first.problems, more.problems]

end

/-- The elements that get ids are those that become components. -/
theorem map_fst_named (ids : Allocator) (xs : List (Element × Option Kind)) :
    (visitAll strict target ids xs).named.map Prod.fst =
      (xs.filterMap (survivor? strict)).map Prod.snd := by
  induction xs generalizing ids with
  | nil => rfl
  | cons x xs ih =>
    obtain ⟨e, parent⟩ := x
    rw [visitAll, List.map_append, ih, List.filterMap_cons]
    cases hk : Vocabulary.kindOf? e.tag with
    | none =>
      rw [visit_of_unknown strict target ids parent hk]
      simp [survivor?, hk]
    | some kind =>
      cases hd : isDropped strict parent kind with
      | true =>
        rw [visit_of_dropped strict target ids hk hd]
        simp [survivor?, hk, hd]
      | false =>
        rw [visit_of_kept strict target ids hk hd]
        simp [survivor?, hk, hd]

end

section

variable (strict : Bool)

mutual

theorem filterMap_visits (parent : Option (Kind × Element)) (t : Tree Element) :
    (visits strict (parent.map Prod.fst) t).filterMap (survivor? strict) =
      (Tree.preorderAll (Tree.pruneAll (allows strict) parent (hoist t))).map Tree.value := by
  match t with
  | .node e ts =>
    rw [visits, hoist, List.filterMap_cons]
    cases hk : Vocabulary.kindOf? e.tag with
    | none =>
      have below := filterMap_visitsAll parent ts
      simpa only [survivor?, hk, Option.bind_none] using below
    | some kind =>
      have below := filterMap_visitsAll (some (kind, e)) ts
      rw [Option.map_some] at below
      dsimp only [survivor?]
      rw [hk, Option.bind_some, isDropped_eq strict parent (kind, e), Tree.pruneAll, Tree.prune]
      cases parent.all (allows strict · (kind, e)) with
      | false => rfl
      | true => simp [Tree.pruneAll, Tree.preorderAll, Tree.preorder, below]

/-- The elements that become components where they are met are the survivors. -/
theorem filterMap_visitsAll (parent : Option (Kind × Element)) (ts : List (Tree Element)) :
    (visitsAll strict (parent.map Prod.fst) ts).filterMap (survivor? strict) =
      (Tree.preorderAll (Tree.pruneAll (allows strict) parent (hoistAll ts))).map Tree.value := by
  match ts with
  | [] => rfl
  | t :: ts =>
    rw [visitsAll, hoistAll, Tree.pruneAll_append, Tree.preorderAll_append, List.filterMap_append,
      List.map_append, filterMap_visits parent t, filterMap_visitsAll parent ts]

end

mutual

theorem map_fst_visits_sublist (parent : Option Kind) (t : Tree Element) :
    ((visits strict parent t).map Prod.fst).Sublist (t.preorder.map Tree.value) := by
  match t with
  | .node e ts =>
    rw [visits, Tree.preorder, List.map_cons, List.map_cons]
    refine List.Sublist.cons_cons e ?_
    cases Vocabulary.kindOf? e.tag with
    | none => exact map_fst_visitsAll_sublist parent ts
    | some kind =>
      dsimp only
      split
      · exact List.nil_sublist _
      · exact map_fst_visitsAll_sublist (some kind) ts

/-- Only elements of the forest are met. -/
theorem map_fst_visitsAll_sublist (parent : Option Kind) (ts : List (Tree Element)) :
    ((visitsAll strict parent ts).map Prod.fst).Sublist
      ((Tree.preorderAll ts).map Tree.value) := by
  match ts with
  | [] => exact List.Sublist.refl _
  | t :: ts =>
    rw [visitsAll, Tree.preorderAll, List.map_append, List.map_append]
    exact (map_fst_visits_sublist parent t).append (map_fst_visitsAll_sublist parent ts)

end

end

end Wireframe.Analysis
