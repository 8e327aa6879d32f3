import Wireframe.Proofs.Outline.Closed
import Wireframe.Proofs.Outline.Printer

/-!
# Reading printed lines

The tokens of every printed line are read as what was printed, and nothing is wrong with them. A
line is followed by its end, which no reader of an item goes over.
-/

namespace Wireframe.Outline

open Printer

section Values

variable {v : Value} (h : v.Printable)

theorem kind_valueToken (h : v.Printable) :
    (∃ name, (valueToken v).kind = .ident name) ∨ ∃ s, (valueToken v).kind = .str s := by
  cases v with
  | bool b => exact .inl ⟨_, rfl⟩
  | text s => exact .inr ⟨_, rfl⟩
  | number x => exact absurd rfl (h x)

include h

theorem valueOf?_valueToken : valueOf? [valueToken v] = some v := by
  cases v with
  | bool b => cases b <;> rfl
  | text s => rfl
  | number x => exact absurd rfl (h x)

theorem callValue?_valueToken : callValue? [valueToken v] = some v := by
  have one : splitWhere (·.kind = .comma) [valueToken v] = [[valueToken v]] := by
    rcases kind_valueToken h with ⟨name, hk⟩ | ⟨s, hk⟩ <;> simp [splitWhere, hk]
  rw [callValue?, one]
  exact valueOf?_valueToken h

theorem skipBreaks_valueToken (ts : List Token) :
    skipBreaks (valueToken v :: ts) = valueToken v :: ts := by
  rw [skipBreaks]
  rcases kind_valueToken h with ⟨name, hk⟩ | ⟨s, hk⟩ <;> rw [hk]

theorem attributeValue_callTailTokens (us : List Token) :
    attributeValue (callTailTokens v ++ us) = ⟨some v, [], us⟩ := by
  have call : ArgumentsRead .nowhere (valueToken v :: symbolToken .closeParen ')' :: us)
      ⟨[valueToken v], [], us⟩ := by
    refine .other (skipBreaks_valueToken h _) ?_ (.close rfl rfl)
    rcases kind_valueToken h with ⟨name, hk⟩ | ⟨s, hk⟩ <;> rw [hk] <;> rfl
  have reads : attributeValue (callTailTokens v ++ us) =
      let call := arguments .nowhere (valueToken v :: symbolToken .closeParen ')' :: us)
      ⟨callValue? call.value, call.problems, call.rest⟩ := rfl
  rw [reads, arguments_eq_of_read call]
  simp only [callValue?_valueToken h]

/-- A printed entry of a layout block is read up to the token behind its value. -/
theorem layoutReads_entry {s : Token} (hs : inLayoutValue s = false) (key : String)
    {us vs : List Token} {es : List Attribute} (more : LayoutReads .nowhere (s :: us) ⟨es, [], vs⟩) :
    LayoutReads .nowhere (strToken key :: colon :: valueToken v :: s :: us)
      ⟨⟨key, v, .nowhere⟩ :: es, [], vs⟩ := by
  have inside : inLayoutValue (valueToken v) = true := by
    rcases kind_valueToken h with ⟨name, hk⟩ | ⟨s, hk⟩ <;>
      simp [inLayoutValue, opensItem, Outline.inLine, hk, Token.Kind.endsLine]
  have written : (valueToken v :: s :: us).takeWhile inLayoutValue = [valueToken v] := by
    rw [List.takeWhile_cons_of_pos inside, List.takeWhile_cons_of_neg (by simp [hs])]
  have rest : (valueToken v :: s :: us).dropWhile inLayoutValue = s :: us := by
    rw [List.dropWhile_cons_of_pos inside, List.dropWhile_cons_of_neg (by simp [hs])]
  have here : skipBreaks (strToken key :: colon :: valueToken v :: s :: us) =
      strToken key :: colon :: valueToken v :: s :: us := rfl
  refine .entry here rfl rfl (v := v) ?_ ?_
  · rw [written, valueOf?_valueToken h]
  · rw [rest]
    exact more

end Values

/-- The entries of a printed layout block. -/
theorem layoutReads_entries {as : List Attribute} (h : ∀ a ∈ as, a.value.Printable)
    (vs : List Token) :
    LayoutReads .nowhere
      (entriesTokens layoutTailTokens as ++ symbolToken .closeBrace '\x7d' :: vs)
      ⟨as.map Shift.unplaced.entry, [], vs⟩ := by
  induction as with
  | nil => exact .close rfl rfl
  | cons a as ih =>
    have ha := h a List.mem_cons_self
    specialize ih fun b hb => h b (List.mem_cons_of_mem a hb)
    cases as with
    | nil => exact layoutReads_entry ha rfl a.key (.close rfl rfl)
    | cons b bs =>
      simp only [entriesTokens, List.map_cons, List.intercalate_cons_cons,
        List.append_assoc] at ih ⊢
      exact layoutReads_entry ha rfl a.key (.separator rfl rfl ih)

/-- The entries of a printed attribute list. -/
theorem attributesRead_entries {as : List Attribute} (h : ∀ a ∈ as, a.value.Printable)
    (hne : as ≠ []) {vs : List Token} (hv : Over vs) (first : Bool) :
    AttributesRead first (entriesTokens callTailTokens as ++ vs)
      ⟨as.map Shift.unplaced.entry, [], vs⟩ := by
  induction as generalizing first with
  | nil => exact absurd rfl hne
  | cons a as ih =>
    have value (us : List Token) := attributeValue_callTailTokens (h a List.mem_cons_self) us
    cases as with
    | nil =>
      refine .entry (t := strToken a.key) rfl (value vs) ?_
      rw [hv.afterItem.skipComma]
      exact hv.afterItem.attributes false
    | cons b bs =>
      specialize ih (fun c hc => h c (List.mem_cons_of_mem a hc)) (by simp) false
      have list : entriesTokens callTailTokens (a :: b :: bs) ++ vs = strToken a.key ::
          (callTailTokens a.value ++ comma :: (entriesTokens callTailTokens (b :: bs) ++ vs)) := by
        simp [entriesTokens, List.intercalate_cons_cons]
      have key : ∃ us, entriesTokens callTailTokens (b :: bs) = strToken b.key :: us := by
        cases bs <;> exact ⟨_, rfl⟩
      obtain ⟨us, hus⟩ := key
      have behind : skipComma (comma :: (strToken b.key :: us ++ vs)) =
          strToken b.key :: us ++ vs := by
        have ended : goesOn (strToken b.key :: (us ++ vs)) = false :=
          goesOn_of_ne_newline _ (by simp [strToken])
        rw [List.cons_append, skipComma_eq]
        simp [skip?, comma, symbolToken, ended]
      rw [list, hus]
      rw [hus] at ih
      refine .entry (t := strToken a.key) rfl (value _) ?_
      rw [behind]
      exact ih

theorem tag_bracketTokens (e : Element) (vs : List Token) :
    tag .nowhere ((bracketTokens e).drop 1 ++ vs) =
      ⟨.bare e.tag e.payload .nowhere, [], vs⟩ := by
  have name (us : List Token) : tagName (wordToken e.tag :: us) = ⟨e.tag, [], us⟩ := rfl
  have rest : tagPayload (payloadTokens e.payload ++ symbolToken .closeBracket ']' :: vs) =
      ⟨e.payload, [], symbolToken .closeBracket ']' :: vs⟩ := by
    cases e.payload with
    | none => rfl
    | id written =>
      have id : payload (wordToken written :: symbolToken .closeBracket ']' :: vs) =
          (.id (" ".intercalate [written]), symbolToken .closeBracket ']' :: vs) := rfl
      have colon : tagPayload (payloadTokens (.id written) ++ symbolToken .closeBracket ']' :: vs) =
          let inner := payload (wordToken written :: symbolToken .closeBracket ']' :: vs)
          ⟨inner.1, [], inner.2⟩ := rfl
      rw [colon, id, String.intercalate_singleton]
    | literal text => rfl
  have all : tag .nowhere (wordToken e.tag :: (payloadTokens e.payload ++
      symbolToken .closeBracket ']' :: vs)) = ⟨.bare e.tag e.payload .nowhere, [], vs⟩ := by
    simp only [tag, name, rest]
    rfl
  simpa [bracketTokens] using all

theorem item?_layoutTokens {as : List Attribute} (h : ∀ a ∈ as, a.value.Printable)
    (vs : List Token) : item? (layoutTokens as ++ vs) =
      some ⟨[.layout (as.map Shift.unplaced.entry)], [], vs⟩ := by
  have block : layout (symbolToken .openBrace '\x7b').location
      (entriesTokens layoutTailTokens as ++ ([symbolToken .closeBrace '\x7d'] ++ vs)) =
        ⟨as.map Shift.unplaced.entry, [], vs⟩ := layout_eq_of_reads (layoutReads_entries h vs)
  rw [layoutTokens, List.cons_append, List.append_assoc, item?_openBrace _ rfl, block]

theorem item?_attributesTokens {as : List Attribute} (h : ∀ a ∈ as, a.value.Printable)
    (hne : as ≠ []) {vs : List Token} (hv : Over vs) :
    item? (attributesTokens as ++ vs) =
      some ⟨[.attributes (as.map Shift.unplaced.entry)], [], vs⟩ := by
  have list : attributeList .nowhere (colon :: entriesTokens callTailTokens as ++ vs) =
      ⟨as.map Shift.unplaced.entry, [], vs⟩ :=
    attributes_eq_of_read (attributesRead_entries h hne hv true)
  rw [attributesTokens, List.cons_append, item?_attr _ rfl, list]

theorem item?_contentTokens (text : String) (vs : List Token) :
    item? (contentTokens text ++ vs) = some ⟨[.content text .nowhere], [], vs⟩ := rfl

end Wireframe.Outline
