import Wireframe.Proofs.Analysis.Precedence
import Wireframe.Proofs.Text.Case

/-!
# Which id is the written one

An id may be written in the bracket of an element, among its attributes and in its layout. Where a
prop is written twice the attributes go before the layout; where an id is, the layout goes before
the attributes (`writtenId?_eq`). So the rule of the props gives the written id unless the two places
give different ones (`writtenId?_eq_attributes_first_iff`).
-/

namespace Wireframe.Element

/-- The id that is written in the bracket of an element. -/
def bracketId? (e : Element) : Option String :=
  match e.payload with
  | .id written => some written
  | _ => none

/-- The id that entries write: that of the last one whose key is `id`, in letters of any case. -/
def entryId? (entries : List Attribute) : Option String :=
  (entries.filter fun a => Text.SameLetters a.key "id").getLast?.map fun a => idText a.value

theorem entryId?_append (as bs : List Attribute) :
    entryId? (as ++ bs) = (entryId? bs).or (entryId? as) := by
  rw [entryId?, List.filter_append, List.getLast?_append, Option.map_or]
  rfl

theorem entryId?_eq_find? (entries : List Attribute) :
    entryId? entries =
      (entries.reverse.find? fun a => Text.asciiLower a.key = "id").map fun a => idText a.value := by
  have small : Text.asciiLower "id" = "id" := by decide
  rw [entryId?, ← List.head?_filter, List.filter_reverse, List.head?_reverse]
  simp only [Text.SameLetters, small]

/-- The bracket goes before the layout, and the layout before the attributes. -/
theorem writtenId?_eq (e : Element) :
    e.writtenId? = e.bracketId?.or ((entryId? e.layout).or (entryId? e.attributes)) := by
  rw [← entryId?_append, entryId?_eq_find?]
  obtain ⟨tag, payload, layout, attributes, content, location⟩ := e
  cases payload <;> rfl

/-- An element without an id in its bracket whose layout and attributes write different ones. -/
def DisputesId (e : Element) : Prop :=
  e.bracketId? = none ∧
    ∃ x y, entryId? e.layout = some x ∧ entryId? e.attributes = some y ∧ x ≠ y

theorem or_or_comm_iff {α : Type} {a b c : Option α} :
    a.or (b.or c) = a.or (c.or b) ↔ ¬(a = none ∧ ∃ x y, b = some x ∧ c = some y ∧ x ≠ y) := by
  cases a <;> cases b <;> cases c <;> simp

/-- Among props the attributes go before the layout, among ids the layout before the attributes; the
rule of the props gives the written id of just the elements whose layout and attributes do not write
different ones. -/
theorem writtenId?_eq_attributes_first_iff (e : Element) :
    (∀ kind k, (e.props kind).get? k =
      (e.shownAs? k).or (((written? e.attributes k).or (written? e.layout k)).or
        (((Vocabulary.implied (Text.asciiUpper e.tag)).lookup k).or
          ((Vocabulary.defaults kind).get? k)))) ∧
    e.writtenId? = e.bracketId?.or ((entryId? e.layout).or (entryId? e.attributes)) ∧
    (e.writtenId? = e.bracketId?.or ((entryId? e.attributes).or (entryId? e.layout)) ↔
      ¬e.DisputesId) := by
  refine ⟨fun kind k => ?_, e.writtenId?_eq, ?_⟩
  · rw [get?_props, written?_append]
  · rw [writtenId?_eq, or_or_comm_iff, DisputesId]

/-- An element that is called one thing in its layout and another among its attributes. -/
def disputed : Element :=
  ⟨"CARD", .none, [⟨"Id", .text "shelf", .nowhere⟩], [⟨"ID", .text "box", .nowhere⟩], none, .nowhere⟩

/-- The attributes of this element call it a box, and it becomes a shelf. -/
theorem layout_names_disputed :
    disputed.bracketId? = none ∧ entryId? disputed.attributes = some "box" ∧
      disputed.writtenId? = some "shelf" ∧
      ((Analysis.document? [.node disputed []] {}).1.map fun d =>
        d.nodes.map fun t => t.value.id) = some ["shelf"] := by
  decide +kernel

end Wireframe.Element
