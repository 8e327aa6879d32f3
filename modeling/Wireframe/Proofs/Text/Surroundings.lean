import Wireframe.Text.Basic
import Wireframe.Text.LowerCase

/-!
# Lower case inside other texts

What stands around a text has a say in its lower case in one point only, the form of the sigma at
the end of a word (`map_medial_lower`). So a word without a sigma that occurs in the lower case of a
text occurs in that of every text around it (`occursIn_lower_append`).
-/

namespace Wireframe.Text

theorem occursIn_iff_isInfix {part cs : List Char} : occursIn part cs = true ↔ part <:+: cs := by
  induction cs with
  | nil => rw [occursIn, List.isEmpty_iff, List.infix_nil]
  | cons c cs ih =>
    rw [occursIn, Bool.or_eq_true, List.isPrefixOf_iff_prefix, ih, List.infix_cons_iff]

/-- The small letters of a character, where every sigma is one inside a word. -/
def lowerInside (c : Char) : List Char :=
  if c = 'Σ' then ['σ'] else lowerChar c

/-- A character, or the sigma inside words for the one at their end. -/
def medial (c : Char) : Char :=
  if c = 'ς' then 'σ' else c

theorem medial_eq_self {c : Char} (h : medial c ≠ 'σ') : medial c = c := by
  by_cases hc : c = 'ς'
  · exact absurd (if_pos hc) h
  · exact if_neg hc

/-- But for the form of the sigmas, characters are made small one by one. -/
theorem map_medial_lowerAfter (before cs : List Char) :
    (lowerAfter before cs).map medial = (cs.flatMap lowerInside).map medial := by
  induction cs generalizing before with
  | nil => rfl
  | cons c cs ih =>
    rw [lowerAfter, List.map_append, ih, List.flatMap_cons, List.map_append]
    congr 1
    by_cases hc : c = 'Σ'
    · rw [if_pos hc, lowerInside, if_pos hc]
      split <;> rfl
    · rw [if_neg hc, lowerInside, if_neg hc]

theorem map_medial_lower (s : String) :
    (lower s).toList.map medial = (s.toList.flatMap lowerInside).map medial := by
  rw [lower, String.toList_ofList, map_medial_lowerAfter]

/-- A word without a sigma is spelled in the same letters however the forms of the sigmas are. -/
theorem map_medial_eq_iff {word cs : List Char} (inside : 'σ' ∉ word) (final : 'ς' ∉ word) :
    cs.map medial = word ↔ cs = word := by
  constructor
  · intro h
    have same : cs.map medial = cs.map id := List.map_congr_left fun c hc =>
      medial_eq_self fun sigma => inside (h ▸ sigma ▸ List.mem_map_of_mem hc)
    rw [← h, same, List.map_id]
  · rintro rfl
    have same : cs.map medial = cs.map id := List.map_congr_left fun c hc =>
      if_neg fun (sigma : c = 'ς') => final (sigma ▸ hc)
    rw [same, List.map_id]

theorem infix_map_medial_iff {word cs : List Char} (inside : 'σ' ∉ word) (final : 'ς' ∉ word) :
    word <:+: cs.map medial ↔ word <:+: cs := by
  rw [List.infix_map_iff]
  constructor
  · rintro ⟨part, occurs, h⟩
    rwa [← (map_medial_eq_iff inside final).mp h.symm]
  · intro occurs
    exact ⟨word, occurs, ((map_medial_eq_iff inside final).mpr rfl).symm⟩

/-- A word without a sigma that occurs in the lower case of a text occurs in the lower case of every
text around it. -/
theorem occursIn_lower_append {word : List Char} (inside : 'σ' ∉ word) (final : 'ς' ∉ word)
    {s : String} (h : occursIn word (lower s).toList = true) (before behind : String) :
    occursIn word (lower (before ++ s ++ behind)).toList = true := by
  rw [occursIn_iff_isInfix, ← infix_map_medial_iff inside final, map_medial_lower] at h ⊢
  simp only [String.toList_append, List.flatMap_append, List.map_append]
  exact h.trans (List.infix_append _ _ _)

-- A word with a sigma may get lost, since the end of the text may not be that of the word.
example :
    occursIn "ος".toList (lower "ΟΔΟΣ").toList = true ∧
      occursIn "ος".toList (lower ("ΟΔΟΣ" ++ "Α")).toList = false := by
  decide +kernel

end Wireframe.Text
