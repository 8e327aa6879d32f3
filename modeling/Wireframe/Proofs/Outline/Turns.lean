import Mathlib.Logic.Relation
import Wireframe.Proofs.Outline.Sourced

/-!
# Line after line

The tokens of a text are lines, each an indentation and what stands behind it, up to the end of the
input. What reads a line leaves the token that ends it, so wherever reading goes on it stands at the
end of a line, at an indentation or at the end of the input, and never in the middle of a line
(`turns_at_line_ends`).
-/

namespace Wireframe

/-- The kinds of tokens that are lines: an indentation and tokens that neither end nor begin a line,
line after line with one end of line between them, perhaps one more, and then the end of the
input. -/
inductive Token.InLines : List Token.Kind → Prop
  | eof : InLines [.eof]
  | last {width ks} (h : ∀ k ∈ ks, k.endsLine = false) : InLines (.indent width :: (ks ++ [.eof]))
  | line {width ks rest} (h : ∀ k ∈ ks, k.endsLine = false) (more : InLines rest) :
      InLines (.indent width :: (ks ++ .newline :: rest))

namespace Lexeme

open Token (InLines)

theorem inLines_ofLines (lines : List (List Char)) :
    InLines (kinds (ofLines lines) ++ [.eof]) := by
  fun_induction ofLines lines with
  | case1 => exact .eof
  | case2 cs =>
    rcases kinds_ofLine cs with ⟨-, hk⟩ | ⟨width, -, hk⟩
    · rw [hk]
      exact .eof
    · rw [hk]
      exact .last fun k => endsLine_inLine _
  | case3 cs lines _ ih =>
    rw [kinds_append, List.append_assoc]
    rcases kinds_ofLine cs with ⟨hc, hk⟩ | ⟨width, hc, hk⟩
    · rw [hk, hc]
      exact ih
    · rw [hk, hc]
      exact .line (fun k => endsLine_inLine _) ih

end Lexeme

/-- The tokens of a text are lines. -/
theorem Token.inLines_scan (source : String) : InLines ((scan source).1.map Token.kind) := by
  rw [map_kind_scan]
  exact Lexeme.inLines_ofLines _

namespace Outline

open Relation (ReflTransGen)

/-- One turn of the reader of lines, from what it has read and the tokens that are left. It passes
the end of a line, reads a line behind its indentation, or reads on from the middle of a line as if
a line began there. -/
inductive Turn : Builder × List Token → Builder × List Token → Prop
  | newline {b t us} (h : t.kind = .newline) : Turn (b, t :: us) (b, us)
  | line {b t us width} (h : t.kind = .indent width) :
      Turn (b, t :: us) ((line b width us).value, (line b width us).rest)
  | midLine {b t us} (h : inLine t = true) :
      Turn (b, t :: us) ((line b (t.location.column - 1) (t :: us)).value,
        (line b (t.location.column - 1) (t :: us)).rest)

/-- What is read is what is read after a turn. -/
theorem readFrom_of_turn {s s' : Builder × List Token} (h : Turn s s') :
    (readFrom s.1 s.2).1 = (readFrom s'.1 s'.2).1 := by
  cases h with
  | newline h =>
    rw [readFrom]
    simp [inLine, h, Token.Kind.endsLine]
  | line h =>
    rw [readFrom]
    simp [inLine, h, Token.Kind.endsLine]
  | midLine h =>
    rw [readFrom]
    simp [h]

theorem readFrom_of_turns {s s' : Builder × List Token} (h : ReflTransGen Turn s s') :
    (readFrom s.1 s.2).1 = (readFrom s'.1 s'.2).1 := by
  induction h with
  | refl => rfl
  | tail _ turn ih => exact ih.trans (readFrom_of_turn turn)

/-- A run from line to line is made of turns. -/
theorem Run.turns {b b' : Builder} {ts us : List Token} {ps : List Diagnostic}
    (h : Run Outline.line b ts ps b' us) : ReflTransGen Turn (b, ts) (b', us) := by
  induction h with
  | refl => exact .refl
  | newline ht _ ih => exact ih.head (.newline ht)
  | line ht _ ih => exact ih.head (.line ht)

/-- Tokens in whole lines that are read up to the end of one and go on to the end of the input. -/
structure AtLine (ts : List Token) : Prop where
  lined : Lined ts
  atLineEnd : AtLineEnd ts
  sourced : Sourced (fun _ => True) ts

/-- No turn leads into the middle of a line. -/
theorem AtLine.turn {s s' : Builder × List Token} (h : AtLine s.2) (turn : Turn s s') :
    AtLine s'.2 := by
  obtain ⟨lined, ended, sourced⟩ := h
  cases turn with
  | @newline b t us ht =>
    exact ⟨lined.suffix (List.suffix_cons t us), lined.atLineEnd ht, sourced.leaves (.tail (by simp [ht]))⟩
  | @line b t us width ht =>
    have left := (leaves_line b width us).suffix.trans (List.suffix_cons t us)
    have behind := sourced_line b width (sourced.leaves (.tail (by simp [ht])))
    exact ⟨lined.suffix left, atLineEnd_line b width us, behind.rest⟩
  | midLine ht => exact absurd ht (Bool.eq_false_iff.mp ended)

theorem AtLine.turns {s s' : Builder × List Token} (h : AtLine s.2)
    (turns : ReflTransGen Turn s s') : AtLine s'.2 := by
  induction turns with
  | refl => exact h
  | tail _ turn ih => exact ih.turn turn

theorem AtLine.exists_endsLine {ts : List Token} (h : AtLine ts) :
    ∃ t us, ts = t :: us ∧ t.kind.endsLine = true := by
  obtain ⟨t, us, rfl⟩ := List.exists_cons_of_ne_nil h.sourced.ne_nil
  exact ⟨t, us, rfl, (Bool.not_eq_false' _).mp h.atLineEnd⟩

theorem atLine_scan (source : String) : AtLine (Token.scan source).1 := by
  have sourced := Token.sourced_scan source
  exact ⟨Token.lined_scan source, Token.atLineEnd_scan source, sourced.ends, fun _ _ => trivial⟩

/-- The tokens of a text are lines, and they are read in turns up to the end of the input. After
every turn the token in front ends a line, begins one or ends the input, so that no line is begun
in the middle; and the outline is what is read from there on. -/
theorem turns_at_line_ends (source : String) :
    Token.InLines ((Token.scan source).1.map Token.kind) ∧
      (∃ b us, ReflTransGen Turn (.empty, (Token.scan source).1) (b, us) ∧
        (next us).kind = .eof ∧ (read source).1 = b.finish) ∧
      ∀ b us, ReflTransGen Turn (.empty, (Token.scan source).1) (b, us) →
        (∃ t vs, us = t :: vs ∧ t.kind.endsLine = true) ∧
          (read source).1 = (readFrom b us).1 := by
  refine ⟨Token.inLines_scan source, ?_, fun b us turns => ⟨?_, readFrom_of_turns turns⟩⟩
  · obtain ⟨ps, b, us, run, -, done⟩ :=
      exists_run .empty (Token.lined_scan source) (Token.atLineEnd_scan source)
    exact ⟨b, us, run.turns, done, read_eq_finish run done⟩
  · exact ((atLine_scan source).turns turns).exists_endsLine

end Outline

end Wireframe
