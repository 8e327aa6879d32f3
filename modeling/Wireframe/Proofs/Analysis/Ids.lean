import Wireframe.Proofs.Analysis.Components
import Wireframe.Proofs.Identifier.Allocation
import Wireframe.Proofs.Walk

/-!
# Ids of documents

Every component gets an id that no other has, in whatever way ids are written, missing or made up,
and whatever is left out (`handsOut_trees`). So a component is found by its id
(`ids_document`).
-/

namespace Wireframe

namespace Document

/-- With different ids, what is looked for by its id is found. -/
theorem find?_of_nodup {d : Document} (h : (d.nodes.map fun t => t.value.id).Nodup)
    {t : Tree Component} (ht : t ∈ d.nodes) : d.find? t.value.id = some t := by
  obtain ⟨before, after, nodes⟩ := List.append_of_mem ht
  rw [nodes, List.map_append, List.map_cons, List.nodup_append] at h
  refine find?_eq_some_iff.mpr ⟨before, after, nodes, rfl, fun u hu => ?_⟩
  exact h.2.2 _ (List.mem_map_of_mem hu) _ List.mem_cons_self

end Document

namespace Analysis

open Identifier

/-- The ids of components, each before those below it. -/
def idsOf (ts : List (Tree Component)) : List String :=
  (Tree.preorderAll ts).map fun t => t.value.id

theorem idsOf_append (ts us : List (Tree Component)) : idsOf (ts ++ us) = idsOf ts ++ idsOf us := by
  rw [idsOf, Tree.preorderAll_append, List.map_append]
  rfl

theorem idsOf_singleton (c : Component) (ts : List (Tree Component)) :
    idsOf [.node c ts] = c.id :: idsOf ts := by
  simp [idsOf, Tree.preorderAll, Tree.preorder]

theorem handsOut_assignId {ids : Allocator} (h : ids.Sound) (e : Element) (kind : Kind) :
    HandsOut ids [(assignId ids e kind).1] (assignId ids e kind).2.2 := by
  have made := HandsOut.generate h kind
  unfold assignId
  cases e.writtenId? with
  | none => exact made
  | some written =>
    dsimp only
    cases hs : sanitize? written with
    | none => exact made
    | some clean =>
      have claimed := HandsOut.claim h (valid_sanitize? hs)
      dsimp only
      generalize ids.claim clean = c at claimed
      obtain ⟨claim, rest⟩ := c
      cases claim <;> exact claimed

section

variable (strict : Bool) (target : Platform)

mutual

theorem handsOut_tree (parent : Option Kind) {ids : Allocator} (h : ids.Sound) (t : Tree Element) :
    HandsOut ids (idsOf (tree strict target parent ids t).trees)
      (tree strict target parent ids t).ids := by
  match t with
  | .node e ts =>
    rw [tree]
    cases Vocabulary.kindOf? e.tag with
    | none => exact handsOut_trees parent h ts
    | some kind =>
      have own := handsOut_assignId h e kind
      dsimp only
      split
      · exact .nil h
      · rw [idsOf_singleton]
        exact own.append (handsOut_trees (some kind) own.sound ts)

/-- The ids of components are handed out one by one. -/
theorem handsOut_trees (parent : Option Kind) {ids : Allocator} (h : ids.Sound)
    (ts : List (Tree Element)) :
    HandsOut ids (idsOf (trees strict target parent ids ts).trees)
      (trees strict target parent ids ts).ids := by
  match ts with
  | [] => exact .nil h
  | t :: ts =>
    have first := handsOut_tree parent h t
    rw [trees, idsOf_append]
    exact first.append (handsOut_trees parent first.sound ts)

end

end

/-- The ids of a document differ, are valid, and lead to their components. -/
theorem ids_document {o : Outline} {options : Options} {d : Document}
    (h : (document? o options).1 = some d) :
    (d.nodes.map fun t => t.value.id).Nodup ∧ (∀ t ∈ d.nodes, Valid t.value.id) ∧
      ∀ t ∈ d.nodes, d.find? t.value.id = some t := by
  have out := handsOut_trees options.strict options.target none
    (Allocator.sound_empty.foldl_reserve (writtenIds o)) o
  have children : d.children = (components o options).trees := by
    rw [document?_fst] at h
    split at h
    · cases h
    · cases h
      rfl
  have ids : d.nodes.map (fun t => t.value.id) = idsOf (components o options).trees := by
    rw [d.nodes_eq, children]
    rfl
  have nodup : (d.nodes.map fun t => t.value.id).Nodup := ids ▸ out.nodup
  refine ⟨nodup, fun t ht => ?_, fun t ht => Document.find?_of_nodup nodup ht⟩
  refine out.valid _ ?_
  rw [← components, ← ids]
  exact List.mem_map_of_mem ht

/-- An outline with an id that is written twice, once below a tag that names no kind, and with the
ids that would be made up in its place. -/
def colliding : Outline :=
  [.node (.bare "CARD" (.id "a") .nowhere)
      [.node (.bare "X" .none .nowhere) [.node (.bare "TEXT" (.id "a") .nowhere) []]],
    .node (.bare "TEXT" .none .nowhere) [], .node (.bare "TEXT" (.id "text_1") .nowhere) [],
    .node (.bare "CARD" (.id "a-2") .nowhere) []]

theorem ids_document_colliding :
    ∃ d, (document? colliding {}).1 = some d ∧
      d.nodes.map (fun t => t.value.id) = ["a", "a-3", "text_2", "text_1", "a-2"] ∧
      (d.nodes.map fun t => t.value.id).Nodup ∧ (∀ t ∈ d.nodes, Valid t.value.id) ∧
      ∀ t ∈ d.nodes, d.find? t.value.id = some t := by
  have ids : ((document? colliding {}).1.map fun d => d.nodes.map fun t => t.value.id) =
      some ["a", "a-3", "text_2", "text_1", "a-2"] := by
    decide +kernel
  obtain ⟨d, hd, handed⟩ := Option.map_eq_some_iff.mp ids
  exact ⟨d, hd, handed, ids_document hd⟩

end Analysis

end Wireframe
