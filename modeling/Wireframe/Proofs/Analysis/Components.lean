import Wireframe.Analysis
import Wireframe.Proofs.Forest

/-!
# When there is a document

An outline has a document as soon as the tag of one of its elements names a kind, whatever is left
out: of the elements that have a kind the outermost are below no component, so no policy leaves them
out (`document?_eq_none_iff`).
-/

namespace Wireframe.Analysis

open Identifier (Allocator)

/-- What the elements of an outline become. -/
def components (o : Outline) (options : Options) : Result :=
  trees options.strict options.target none ((writtenIds o).foldl Allocator.reserve .empty) o

theorem document?_fst (o : Outline) (options : Options) :
    (document? o options).1 =
      if (components o options).trees = [] then none
      else some ⟨(components o options).trees, options.target, options.navigation⟩ := by
  unfold document?
  dsimp only
  rw [← components]
  split <;> rfl

theorem document?_snd (o : Outline) (options : Options) :
    (document? o options).2 =
      (components o options).problems ++
        if (components o options).trees = [] then
          [⟨.noComponents, (o.head?.map fun t => t.value.location).getD .nowhere⟩]
        else [] := by
  unfold document?
  dsimp only
  rw [← components]
  split
  · rfl
  · exact (List.append_nil _).symm

section

variable (strict : Bool) (target : Platform)

mutual

theorem trees_tree_eq_nil_iff (ids : Allocator) (t : Tree Element) :
    (tree strict target none ids t).trees = [] ↔
      ∀ u ∈ t.preorder, Vocabulary.kindOf? u.value.tag = none := by
  match t with
  | .node e ts =>
    rw [tree, Tree.preorder, List.forall_mem_cons, Tree.value_node]
    cases Vocabulary.kindOf? e.tag with
    | none => simpa using trees_eq_nil_iff ids ts
    | some kind => simp [isDropped]

/-- Elements that are below no component become components unless no tag names a kind. -/
theorem trees_eq_nil_iff (ids : Allocator) (ts : List (Tree Element)) :
    (trees strict target none ids ts).trees = [] ↔
      ∀ u ∈ Tree.preorderAll ts, Vocabulary.kindOf? u.value.tag = none := by
  match ts with
  | [] => simp [trees, Tree.preorderAll]
  | t :: ts =>
    rw [trees, Tree.preorderAll, List.append_eq_nil_iff, List.forall_mem_append,
      trees_tree_eq_nil_iff ids t, trees_eq_nil_iff _ ts]

end

end

theorem document?_eq_none_iff (o : Outline) (options : Options) :
    (document? o options).1 = none ↔
      ∀ t ∈ Tree.preorderAll o, Vocabulary.kindOf? t.value.tag = none := by
  rw [document?_fst, ← trees_eq_nil_iff options.strict options.target, ← components]
  split <;> simp_all

end Wireframe.Analysis
