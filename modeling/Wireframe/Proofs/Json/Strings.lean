import Mathlib.Data.List.Induction
import Wireframe.Json.Printer
import Wireframe.Json.Reader

/-!
# Strings are read back

Whatever the characters of a text, its literal is read as the text, and reading stops behind the
closing quote (`stringBody_escaped`).
-/

namespace Wireframe.Json

/-- The inside of a literal with its closing quote and what is behind it. -/
def escaped (s rest : List Char) : List Char :=
  s.flatMap escape ++ '"' :: rest

theorem escaped_cons (c : Char) (s rest : List Char) :
    escaped (c :: s) rest = escape c ++ escaped s rest := by
  simp only [escaped, List.flatMap_cons, List.append_assoc]

/-- A control character is escaped by its number. -/
theorem unit?_hexDigits : ∀ n < 32,
    Text.hexDigits 4 n = ['0', '0', Text.hexDigit (n >>> 4 % 16), Text.hexDigit (n % 16)] ∧
      unit? '0' '0' (Text.hexDigit (n >>> 4 % 16)) (Text.hexDigit (n % 16)) = some n := by
  decide

/-- A character is escaped by its number, by a letter or sign that stands for it, or not at all. -/
theorem escape_cases (c : Char) :
    (∃ x y z w, escape c = ['\\', 'u', x, y, z, w] ∧ unit? x y z w = some c.toNat ∧
        c.toNat < 32) ∨
      (∃ e, escape c = ['\\', e] ∧ e ≠ 'u' ∧ unescape? e = some c) ∨
      (escape c = [c] ∧ c ≠ '"' ∧ c ≠ '\\' ∧ ¬ c.toNat < 32) := by
  by_cases short : c = '"' ∨ c = '\\' ∨ c = '\n' ∨ c = '\r' ∨ c = '\t' ∨ c = '\x08' ∨ c = '\x0c'
  · refine .inr (.inl ?_)
    rcases short with rfl | rfl | rfl | rfl | rfl | rfl | rfl <;>
      exact ⟨_, rfl, by decide, rfl⟩
  · simp only [not_or] at short
    obtain ⟨quote, slash, h₁, h₂, h₃, h₄, h₅⟩ := short
    by_cases control : c.toNat < 32
    · have code := unit?_hexDigits c.toNat control
      refine .inl ⟨_, _, _, _, ?_, code.2, control⟩
      simp only [escape, quote, slash, h₁, h₂, h₃, h₄, h₅, control, ↓reduceIte, code.1]
    · refine .inr (.inr ⟨?_, quote, slash, control⟩)
      simp only [escape, quote, slash, h₁, h₂, h₃, h₄, h₅, control, ↓reduceIte]

/-- Where a character written by its number follows, the number is there. -/
theorem unit?_escaped {s rest cs : List Char} {x y z w : Char}
    (h : escaped s rest = '\\' :: 'u' :: x :: y :: z :: w :: cs) :
    ∃ n, unit? x y z w = some n := by
  cases s with
  | nil => cases h
  | cons c s =>
    rw [escaped_cons] at h
    rcases escape_cases c with ⟨_, _, _, _, he, hu, -⟩ | ⟨e, he, hu, -⟩ | ⟨he, -, hslash, -⟩
    · rw [he] at h
      simp only [List.cons_append, List.cons.injEq] at h
      obtain ⟨-, -, rfl, rfl, rfl, rfl, -⟩ := h
      exact ⟨_, hu⟩
    · rw [he] at h
      exact absurd (List.cons.inj (List.cons.inj h).2).1 hu
    · rw [he] at h
      exact absurd (List.cons.inj h).1 hslash

theorem stringBody_unit {s rest : List Char} {x y z w : Char} {n : Nat}
    (hu : unit? x y z w = some n) (hn : n < 0xd800) :
    stringBody ('\\' :: 'u' :: x :: y :: z :: w :: escaped s rest) =
      (stringBody (escaped s rest)).map fun (t, r) => (t.map (Char.ofNat n :: ·), r) := by
  have valid : n.isValidChar := .inl hn
  rw [stringBody.eq_def]
  split
  · rename_i h
    cases h
  · rename_i h
    simp only [List.cons.injEq, true_and] at h
    obtain ⟨rfl, rfl, rfl, rfl, h⟩ := h
    obtain ⟨lo, hlo⟩ := unit?_escaped h
    rw [hu, hlo, h]
    simp only [if_pos valid]
    rw [if_neg (by omega)]
  · rename_i h
    simp only [List.cons.injEq, true_and] at h
    obtain ⟨rfl, rfl, rfl, rfl, rfl⟩ := h
    rw [hu]
    simp only [if_pos valid]
  · rename_i more h
    simp only [List.cons.injEq, true_and] at h
    obtain ⟨rfl, rfl⟩ := h
    exact absurd rfl (more _ _ _ _ _ rfl)
  · rename_i more h
    obtain ⟨rfl, rfl⟩ := List.cons.inj h
    exact absurd rfl (more _ _ rfl)
  · rename_i h
    cases h

theorem stringBody_short {c e : Char} (hu : e ≠ 'u') (he : unescape? e = some c) (cs : List Char) :
    stringBody ('\\' :: e :: cs) = (stringBody cs).map fun (t, r) => (t.map (c :: ·), r) := by
  rw [stringBody.eq_def]
  simp [hu, he]

theorem stringBody_plain {c : Char} (hquote : c ≠ '"') (hslash : c ≠ '\\') (hc : ¬ c.toNat < 32)
    (cs : List Char) :
    stringBody (c :: cs) = (stringBody cs).map fun (t, r) => (t.map (c :: ·), r) := by
  rw [stringBody.eq_def]
  simp [hslash, hc]

theorem stringBody_escaped (s rest : List Char) :
    stringBody (escaped s rest) = some (some s, rest) := by
  induction s with
  | nil => rfl
  | cons c s ih =>
    rw [escaped_cons]
    rcases escape_cases c with ⟨x, y, z, w, he, hu, hc⟩ | ⟨e, he, hu, hc⟩ | ⟨he, hquote, hslash, hc⟩
    · rw [he]
      change stringBody ('\\' :: 'u' :: x :: y :: z :: w :: escaped s rest) = _
      simp only [stringBody_unit hu (by omega), ih, Option.map_some, Char.ofNat_toNat]
    · rw [he]
      change stringBody ('\\' :: e :: escaped s rest) = _
      rw [stringBody_short hu hc, ih]
      rfl
    · rw [he]
      change stringBody (c :: escaped s rest) = _
      rw [stringBody_plain hquote hslash hc, ih]
      rfl

end Wireframe.Json
