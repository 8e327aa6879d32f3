import Wireframe.Text.Basic

/-!
# Letters of either case

Texts that differ in nothing but the case of ASCII letters have the same letters. They are compared
in small letters, but in capitals it is the same (`SameLetters.asciiUpper_eq`): so a table of small
keys and a table of capital tags agree on what a search does not tell apart.
-/

namespace Wireframe.Text

/-- A property of all characters of ASCII, checked one by one. -/
theorem forall_ascii {P : Char → Prop} (h : ∀ n < 128, P (Char.ofNat n)) {c : Char}
    (hc : c.toNat < 128) : P c := by
  have here := h c.toNat hc
  rwa [Char.ofNat_toNat] at here

/-- What is at most a character of ASCII is one. -/
theorem ascii_of_le {c : Char} (hi : Char) (h : c ≤ hi) (ascii : hi.toNat < 128) : c.toNat < 128 :=
  Nat.lt_of_le_of_lt (UInt32.le_iff_toNat_le.mp h) ascii

/-- What a letter is, by its code. -/
theorem isAlpha_eq (c : Char) :
    c.isAlpha = (decide (c.val ≥ 'A'.val ∧ c.val ≤ 'Z'.val) ||
      (decide (c.val ≥ 'a'.val) && decide (c.val ≤ 'z'.val))) :=
  rfl

theorem ascii_of_isAlphanum {c : Char} (h : c.isAlphanum = true) : c.toNat < 128 := by
  simp only [Char.isAlphanum, isAlpha_eq, Char.isDigit, Bool.or_eq_true, Bool.and_eq_true,
    decide_eq_true_eq] at h
  obtain (capital | small) | digit := h
  · exact ascii_of_le 'Z' capital.2 (by decide)
  · exact ascii_of_le 'z' small.2 (by decide)
  · exact ascii_of_le '9' digit.2 (by decide)

theorem toLower_of_not_ascii {c : Char} (hc : ¬c.toNat < 128) : c.toLower = c := by
  have small : ¬('A'.val ≤ c.val ∧ c.val ≤ 'Z'.val) := fun capital =>
    hc (ascii_of_le 'Z' capital.2 (by decide))
  exact dif_neg small

theorem toUpper_toLower (c : Char) : c.toLower.toUpper = c.toUpper := by
  by_cases hc : c.toNat < 128
  · exact forall_ascii (P := fun c => c.toLower.toUpper = c.toUpper) (by decide +kernel) hc
  · rw [toLower_of_not_ascii hc]

theorem asciiUpper_asciiLower (s : String) : asciiUpper (asciiLower s) = asciiUpper s := by
  rw [asciiUpper, asciiLower, String.toList_ofList, List.map_map, asciiUpper]
  exact congrArg String.ofList (List.map_congr_left fun c _ => toUpper_toLower c)

theorem asciiLower_eq_empty_iff {s : String} : asciiLower s = "" ↔ s = "" := by
  rw [asciiLower, String.ofList_eq_empty_iff, List.map_eq_nil_iff, String.toList_eq_nil_iff]

/-- Whether two texts differ in nothing but the case of ASCII letters. -/
def SameLetters (s t : String) : Prop :=
  asciiLower s = asciiLower t

instance (s t : String) : Decidable (SameLetters s t) :=
  inferInstanceAs (Decidable (asciiLower s = asciiLower t))

namespace SameLetters

variable {s t : String}

theorem refl (s : String) : SameLetters s s := rfl

theorem asciiUpper_eq (h : SameLetters s t) : asciiUpper s = asciiUpper t := by
  rw [← asciiUpper_asciiLower s, h, asciiUpper_asciiLower]

theorem eq_empty_iff (h : SameLetters s t) : s = "" ↔ t = "" := by
  rw [← asciiLower_eq_empty_iff, h, asciiLower_eq_empty_iff]

end SameLetters

end Wireframe.Text
