import Wireframe.Proofs.Analysis.Props
import Wireframe.Proofs.Text.Case

/-!
# What is written and what is preset

A kind presets some props and a tag presets others. An entry for one of these keys takes the place
of what is preset, however its letters are written, because the vocabulary lists the key: every other
spelling of it stands for it. One key is not listed, the one of inputs with several lines: an entry
for it counts when it is written in small letters, and is a prop of its own beside what is preset
otherwise (`explicit_wins_iff`).
-/

namespace Wireframe

namespace Vocabulary

/-- The keys for which a kind, or a tag that is given in capitals, presets a value. -/
def presets (kind : Kind) (tag : String) : List String :=
  (defaults kind).keys ++ (implied tag).map (·.1)

/-- What the tables have in common about a key that is preset: it is a prop apart from the content,
it is written in small letters, and it is listed, unless it is the one that is not. -/
structure Presettable (k : String) : Prop where
  ne_content : k ≠ "content"
  ne_id : k ≠ "id"
  ne_empty : k ≠ ""
  small : Text.asciiLower k = k
  listed : k = "multiline" ∨ keys.lookup k = some k

instance (k : String) : Decidable (Presettable k) :=
  decidable_of_iff
    (k ≠ "content" ∧ k ≠ "id" ∧ k ≠ "" ∧ Text.asciiLower k = k ∧
      (k = "multiline" ∨ keys.lookup k = some k))
    ⟨fun ⟨hc, hi, he, hs, hl⟩ => ⟨hc, hi, he, hs, hl⟩,
      fun ⟨hc, hi, he, hs, hl⟩ => ⟨hc, hi, he, hs, hl⟩⟩

theorem presettable_defaults (kind : Kind) : ∀ k ∈ (defaults kind).keys, Presettable k := by
  cases kind <;> decide +kernel

theorem presettable_implied (tag : String) :
    ∀ k ∈ (implied tag).map (·.1), Presettable k := by
  unfold implied
  split <;> decide +kernel

theorem presettable {kind : Kind} {tag k : String} (h : k ∈ presets kind tag) : Presettable k := by
  rcases List.mem_append.mp h with h | h
  · exact presettable_defaults kind k h
  · exact presettable_implied tag k h

/-- A listed key is what all its spellings stand for. -/
theorem canonicalKey_of_sameLetters {k key : String} (small : Text.asciiLower k = k)
    (listed : keys.lookup k = some k) (h : Text.SameLetters key k) : canonicalKey key = k := by
  have letters : Text.asciiLower key = k := h.trans small
  rw [canonicalKey, letters, listed, Option.getD_some]

theorem not_multiline_of_mem_keys : ∀ p ∈ keys, ¬Text.SameLetters p.2 "multiline" := by
  decide +kernel

/-- Nothing but itself stands for a spelling of the key that is not listed. -/
theorem canonicalKey_eq_multiline_iff {k key : String} (h : Text.SameLetters k "multiline") :
    canonicalKey key = k ↔ key = k := by
  have unlisted : keys.lookup (Text.asciiLower "multiline") = none := by decide +kernel
  constructor
  · intro stands
    cases found : keys.lookup (Text.asciiLower key) with
    | none => rwa [canonicalKey, found, Option.getD_none] at stands
    | some other =>
      rw [canonicalKey, found, Option.getD_some] at stands
      exact absurd h (stands ▸ not_multiline_of_mem_keys _ (mem_of_lookup found))
  · rintro rfl
    rw [canonicalKey, h, unlisted, Option.getD_none]

end Vocabulary

namespace Element

open Text (SameLetters)
open Vocabulary (canonicalKey canonicalValue presets)

/-- The entries of an element for a key in letters of any case, the layout before the attributes. -/
def spelled (e : Element) (k : String) : List Attribute :=
  (e.layout ++ e.attributes).filter fun a => SameLetters a.key k

theorem mem_spelled_iff {e : Element} {k : String} {a : Attribute} :
    a ∈ e.spelled k ↔ a ∈ e.layout ++ e.attributes ∧ SameLetters a.key k := by
  rw [spelled, List.mem_filter, decide_eq_true_iff]

/-- Entries for a key that no other name is used for give it a value, and there is no prop whose key
differs from it by case. -/
structure Settles (e : Element) (kind : Kind) (k : String) (v : Value) : Prop where
  value : (∀ a ∈ e.layout ++ e.attributes, canonicalKey a.key = k → SameLetters a.key k) →
    (e.props kind).get? k = some v
  single : ∀ k', SameLetters k' k → k' ≠ k → (e.props kind).get? k' = none

section

variable {e : Element} {kind : Kind} {k : String} {last : Attribute}

/-- When the entries that stand for a key are those that spell it, the last of them sets the prop. -/
theorem get?_props_of_spelled (preset : k ∈ presets kind (Text.asciiUpper e.tag))
    (written : (e.spelled k).getLast? = some last)
    (stand : ∀ a ∈ e.layout ++ e.attributes, canonicalKey a.key = k ↔ SameLetters a.key k) :
    (e.props kind).get? k = some (canonicalValue k last.value) := by
  obtain ⟨ne_content, ne_id, ne_empty, -, -⟩ := Vocabulary.presettable preset
  have same : (e.layout ++ e.attributes).filter (fun a => canonicalKey a.key = k) = e.spelled k :=
    List.filter_congr fun a ha => decide_eq_decide.mpr (stand a ha)
  have said : written? (e.layout ++ e.attributes) k = some (canonicalValue k last.value) := by
    rw [written?, if_neg (not_or.mpr ⟨ne_id, ne_empty⟩), same, written, Option.map_some]
  have shown : e.shownAs? k = none := if_neg ne_content
  rw [get?_props, shown, Option.none_or, said, Option.some_or]

/-- A prop whose key differs from a preset one by case is not preset itself: an entry writes it. -/
theorem exists_entry_of_other_case {k' : String} {v : Value}
    (preset : k ∈ presets kind (Text.asciiUpper e.tag)) (letters : SameLetters k' k)
    (other : k' ≠ k) (there : (e.props kind).get? k' = some v) :
    canonicalKey k' = k' ∧ ∃ a ∈ e.layout ++ e.attributes, canonicalKey a.key = k' := by
  have small := (Vocabulary.presettable preset).small
  have not_preset : k' ∉ presets kind (Text.asciiUpper e.tag) := fun preset' =>
    other ((Vocabulary.presettable preset').small.symm.trans (letters.trans small))
  refine ⟨(allCanonical_props e kind _ (Table.mem_entries_iff.mpr there)).key_eq, ?_⟩
  cases supplied_of_get? there with
  | content text content =>
    have lower : Text.asciiLower k' = "content" := by
      rw [content]
      decide
    exact absurd (small.symm.trans (letters.symm.trans lower))
      (Vocabulary.presettable preset).ne_content
  | entry a listed key => exact ⟨a, listed, key⟩
  | tag v said =>
    exact absurd (List.mem_append_right _ (List.mem_map_of_mem (Vocabulary.mem_of_lookup said)))
      not_preset
  | kind v default =>
    exact absurd (List.mem_append_left _ (Table.mem_keys_iff.mpr (Option.isSome_of_eq_some default)))
      not_preset

theorem settles_of_listed (preset : k ∈ presets kind (Text.asciiUpper e.tag))
    (written : (e.spelled k).getLast? = some last)
    (listed : Vocabulary.keys.lookup k = some k) :
    e.Settles kind k (canonicalValue k last.value) where
  value := fun alone => get?_props_of_spelled preset written fun a ha => ⟨alone a ha,
    Vocabulary.canonicalKey_of_sameLetters (Vocabulary.presettable preset).small listed⟩
  single := by
    intro k' letters other
    refine Option.eq_none_iff_forall_ne_some.mpr fun v there => other ?_
    obtain ⟨canonical, -⟩ := exists_entry_of_other_case preset letters other there
    exact canonical.symm.trans (Vocabulary.canonicalKey_of_sameLetters
      (Vocabulary.presettable preset).small listed letters)

theorem settles_of_exact (preset : "multiline" ∈ presets kind (Text.asciiUpper e.tag))
    (written : (e.spelled "multiline").getLast? = some last)
    (exactly : ∀ a ∈ e.spelled "multiline", a.key = "multiline") :
    e.Settles kind "multiline" (canonicalValue "multiline" last.value) where
  value := by
    refine fun _ => get?_props_of_spelled preset written fun a ha => ?_
    rw [Vocabulary.canonicalKey_eq_multiline_iff (.refl _)]
    constructor
    · rintro key
      rw [key]
      exact .refl _
    · exact fun letters => exactly a (mem_spelled_iff.mpr ⟨ha, letters⟩)
  single := by
    intro k' letters other
    refine Option.eq_none_iff_forall_ne_some.mpr fun v there => other ?_
    obtain ⟨-, a, ha, stands⟩ := exists_entry_of_other_case preset letters other there
    have key := (Vocabulary.canonicalKey_eq_multiline_iff letters).mp stands
    exact key ▸ exactly a (mem_spelled_iff.mpr ⟨ha, key ▸ letters⟩)

/-- An entry for the key that is not listed is a prop of its own. -/
theorem isSome_get?_of_multiline (kind : Kind) {a : Attribute} (ha : a ∈ e.spelled "multiline") :
    ((e.props kind).get? a.key).isSome := by
  obtain ⟨there, letters⟩ := mem_spelled_iff.mp ha
  have differs {k : String} (hk : ¬SameLetters k "multiline") : a.key ≠ k := by
    rintro rfl
    exact hk letters
  exact (Supplied.entry a there ((Vocabulary.canonicalKey_eq_multiline_iff letters).mpr rfl)
    (differs (by decide)) (differs (by decide))).isSome_get?

end

/-- Where a key is preset and entries spell it, the last of these sets the prop, and there is no
second prop whose key differs by case, unless the key is the one that is not listed and one of the
entries does not write it in small letters. -/
theorem explicit_wins_iff (e : Element) (kind : Kind) (k : String) {last : Attribute}
    (preset : k ∈ presets kind (Text.asciiUpper e.tag))
    (written : (e.spelled k).getLast? = some last) :
    e.Settles kind k (canonicalValue k last.value) ↔
      (k = "multiline" → ∀ a ∈ e.spelled k, a.key = k) := by
  obtain unlisted | listed := (Vocabulary.presettable preset).listed
  · subst unlisted
    refine ⟨fun settles _ a ha => ?_, fun exactly => settles_of_exact preset written (exactly rfl)⟩
    by_cases key : a.key = "multiline"
    · exact key
    · have absent := settles.single a.key (mem_spelled_iff.mp ha).2 key
      have set := isSome_get?_of_multiline kind ha
      rw [absent] at set
      cases set
  · refine iff_of_true (settles_of_listed preset written listed) ?_
    rintro rfl
    exact absurd listed (by decide +kernel)

/-- A button whose variant is written three times, each time in letters of other case. -/
def varied : Element :=
  ⟨"Btn", .none, [⟨"VARIANT", .text "Danger", .nowhere⟩],
    [⟨"variant", .text "link", .nowhere⟩, ⟨"Variant", .text "Outlined", .nowhere⟩], none, .nowhere⟩

theorem explicit_wins_iff_varied :
    (varied.props .button).get? "variant" = some (.text "outline") ∧
      (varied.props .button).get? "VARIANT" = none := by
  have preset : "variant" ∈ presets .button (Text.asciiUpper varied.tag) := by decide +kernel
  have written : (varied.spelled "variant").getLast? =
      some ⟨"Variant", .text "Outlined", .nowhere⟩ := by decide +kernel
  have settles := (explicit_wins_iff varied .button "variant" preset written).mpr
    (fun unlisted => absurd unlisted (by decide))
  refine ⟨(settles.value (by decide +kernel)).trans (by decide +kernel), ?_⟩
  exact settles.single "VARIANT" (by decide) (by decide)

/-- An input with several lines whose author does not want them. -/
def multilined : Element :=
  ⟨"TEXTAREA", .none, [], [⟨"Multiline", .text "false", .nowhere⟩], none, .nowhere⟩

/-- The entry stands for `false`, but the input keeps what its tag presets and has a prop more. -/
theorem multiline_not_settled :
    "multiline" ∈ presets .input (Text.asciiUpper multilined.tag) ∧
      (multilined.spelled "multiline").map (fun a => canonicalValue "multiline" a.value) =
        [.bool false] ∧
      ¬multilined.Settles .input "multiline" (.bool false) ∧
      ((Analysis.document? [.node multilined []] {}).1.map fun d =>
        d.nodes.map fun t => t.value.props.entries) =
          some [[("Multiline", .text "false"), ("multiline", .bool true),
            ("type", .text "text")]] := by
  have beside : (multilined.props .input).get? "Multiline" = some (.text "false") := by
    decide +kernel
  refine ⟨by decide +kernel, by decide +kernel, fun settles => ?_, by decide +kernel⟩
  have absent := settles.single "Multiline" (by decide) (by decide)
  rw [absent] at beside
  cases beside

end Element

end Wireframe
