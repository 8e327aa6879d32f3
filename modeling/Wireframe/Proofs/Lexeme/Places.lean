import Mathlib.Data.List.Induction
import Wireframe.Proofs.Lexeme.Joined

/-!
# Places of a text

A place of a text is known from the part of the text before it: the line from the ends of lines in
that part, the column from the characters behind the last of them, the offset from its bytes
(`start_advance`). So moving a place over a text character by character keeps all three right.
-/

namespace Wireframe.Location

@[simp] theorem bytesOf_nil : bytesOf [] = 0 := rfl

@[simp] theorem bytesOf_cons (c : Char) (cs : List Char) :
    bytesOf (c :: cs) = c.utf8Size + bytesOf cs := rfl

@[simp] theorem bytesOf_append (as bs : List Char) :
    bytesOf (as ++ bs) = bytesOf as + bytesOf bs := by
  induction as with
  | nil => rw [List.nil_append, bytesOf_nil, Nat.zero_add]
  | cons a as ih => rw [List.cons_append, bytesOf_cons, ih, bytesOf_cons, Nat.add_assoc]

theorem utf8ByteSize_ofList (cs : List Char) : (String.ofList cs).utf8ByteSize = bytesOf cs := by
  induction cs with
  | nil => rfl
  | cons c cs ih =>
    have parts : String.ofList (c :: cs) = String.singleton c ++ String.ofList cs := by
      rw [String.singleton_eq_ofList, ← String.ofList_append]
      rfl
    rw [parts, String.utf8ByteSize_append, String.utf8ByteSize_singleton, ih, bytesOf_cons]

/-- Every byte of a text belongs to one of its characters. -/
theorem exists_of_lt_bytesOf {cs : List Char} {n : Nat} (h : n < bytesOf cs) :
    ∃ before c after, cs = before ++ c :: after ∧ bytesOf before ≤ n ∧
      n < bytesOf before + c.utf8Size := by
  induction cs generalizing n with
  | nil => exact absurd h (Nat.not_lt_zero n)
  | cons c cs ih =>
    by_cases hc : n < c.utf8Size
    · exact ⟨[], c, cs, rfl, Nat.zero_le n, by simpa using hc⟩
    · rw [bytesOf_cons] at h
      have behind : n - c.utf8Size < bytesOf cs := by omega
      obtain ⟨before, d, after, rfl, low, high⟩ := ih behind
      refine ⟨c :: before, d, after, rfl, ?_, ?_⟩
      · rw [bytesOf_cons]
        omega
      · rw [bytesOf_cons]
        omega

@[simp] theorem start_line : start.line = 1 := rfl

@[simp] theorem start_offset : start.offset = 0 := rfl

/-- The place behind the first characters of a text: as many lines further down as there are ends
of lines among them, as many columns further right as there are characters behind the last one. -/
def behind (before : List Char) : Location :=
  ⟨1 + before.count '\n', 1 + (before.reverse.takeWhile (· ≠ '\n')).length, bytesOf before⟩

theorem start_advance (cs : List Char) : start.advance cs = behind cs := by
  induction cs using List.reverseRecOn with
  | nil => rfl
  | append_singleton cs c ih =>
    have step (p : Location) : p.advance [c] = p.step c := rfl
    rw [advance_append, step, ih]
    unfold Location.step behind
    rw [List.reverse_append, List.count_append, bytesOf_append]
    by_cases hc : c = '\n'
    · subst hc
      rfl
    · simp [hc]
      omega

/-- Whether a place is one of a text, that of its end among them. -/
def In (p : Location) (cs : List Char) : Prop :=
  ∃ before, before <+: cs ∧ p = behind before

theorem in_of_eq {p : Location} {cs before after : List Char} (hc : cs = before ++ after)
    (hp : p = start.advance before) : p.In cs := by
  refine ⟨before, ?_, by rw [hp, start_advance]⟩
  rw [hc]
  exact List.prefix_append before after

section

variable {p : Location} {cs : List Char} (h : p.In cs)

include h

theorem In.line_pos : 0 < p.line := by
  obtain ⟨before, -, rfl⟩ := h
  exact Nat.add_pos_left Nat.one_pos _

theorem In.column_pos : 0 < p.column := by
  obtain ⟨before, -, rfl⟩ := h
  exact Nat.add_pos_left Nat.one_pos _

theorem In.offset_le : p.offset ≤ bytesOf cs := by
  obtain ⟨before, ⟨after, rfl⟩, rfl⟩ := h
  rw [bytesOf_append]
  exact Nat.le_add_right _ _

end

end Wireframe.Location
