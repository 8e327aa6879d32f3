import Wireframe.Proofs.Analysis.Components

/-!
# What is left out says nothing

Under a strict policy nothing that is below an element which its parent refuses is looked at: with
the same ids written, outlines that differ only there have the same document and are told the same
(`document?_of_trimAll_eq`).
-/

namespace Wireframe.Analysis

open Identifier (Allocator)

mutual

/-- An element with nothing below those elements that are refused. -/
def trim (parent : Option Kind) : Tree Element → Tree Element
  | .node e ts =>
    match Vocabulary.kindOf? e.tag with
    | none => .node e (trimAll parent ts)
    | some kind =>
      if parent.all (Nesting.accepts · kind) then .node e (trimAll (some kind) ts) else .node e []

/-- A forest with nothing below those elements that are refused. -/
def trimAll (parent : Option Kind) : List (Tree Element) → List (Tree Element)
  | [] => []
  | t :: ts => trim parent t :: trimAll parent ts

end

theorem value_trim (parent : Option Kind) (t : Tree Element) :
    (trim parent t).value = t.value := by
  cases t with
  | node e ts =>
    rw [trim]
    split
    · rfl
    · split <;> rfl

theorem head?_trimAll (parent : Option Kind) (ts : List (Tree Element)) :
    (trimAll parent ts).head?.map (·.value.location) = ts.head?.map (·.value.location) := by
  cases ts with
  | nil => rfl
  | cons t ts =>
    rw [trimAll, List.head?_cons, List.head?_cons, Option.map_some, Option.map_some, value_trim]

theorem isDropped_true (parent : Option Kind) (kind : Kind) :
    isDropped true parent kind = !parent.all (Nesting.accepts · kind) := by
  cases parent <;> simp [isDropped]

section

variable (target : Platform)

mutual

theorem tree_trim (parent : Option Kind) (ids : Allocator) (t : Tree Element) :
    tree true target parent ids (trim parent t) = tree true target parent ids t := by
  match t with
  | .node e ts =>
    rw [trim]
    cases hk : Vocabulary.kindOf? e.tag with
    | none => simp only [tree, hk, trees_trimAll parent ids ts]
    | some kind =>
      dsimp only
      split
      next fits =>
        simp only [tree, hk, trees_trimAll (some kind) (assignId ids e kind).2.2 ts]
      next refused =>
        have gone : isDropped true parent kind = true := by
          rw [isDropped_true, Bool.eq_false_iff.mpr refused, Bool.not_false]
        simp only [tree, hk, gone, if_true]

/-- What is below refused elements has no part in what a strict policy makes of a forest. -/
theorem trees_trimAll (parent : Option Kind) (ids : Allocator) (ts : List (Tree Element)) :
    trees true target parent ids (trimAll parent ts) = trees true target parent ids ts := by
  match ts with
  | [] => rfl
  | t :: ts => simp only [trimAll, trees, tree_trim parent ids t, trees_trimAll parent _ ts]

end

end

theorem document?_of_trimAll_eq {o o' : Outline} {options : Options}
    (strict : options.strict = true) (same : trimAll none o' = trimAll none o)
    (ids : writtenIds o' = writtenIds o) : document? o' options = document? o options := by
  have made : components o' options = components o options := by
    rw [components, components, strict, ids, ← trees_trimAll, same, trees_trimAll]
  have first : o'.head?.map (·.value.location) = o.head?.map (·.value.location) := by
    rw [← head?_trimAll none o', same, head?_trimAll none o]
  refine Prod.ext ?_ ?_
  · rw [document?_fst, document?_fst, made]
  · rw [document?_snd, document?_snd, made, first]

end Wireframe.Analysis
