import Mathlib.Order.Monotone.Defs
import Wireframe.Proofs.Lexeme.Lines
import Wireframe.Proofs.Outline.ShiftedRun

/-!
# Widths

Of the widths of lines only their order matters. A text whose lines are indented by other widths in
the same order has the same outline, and the same is reported but for the number in the report of an
indentation that matches no enclosing level (`ofTokens_rewiden`).
-/

namespace Wireframe

open Outline

/-- All that is told of a problem. -/
def Diagnostic.told (d : Diagnostic) : Location × Phase × Severity × String :=
  (d.location, d.phase, d.severity, d.message)

variable (f : Nat → Nat)

/-- An indentation with another width. -/
def Token.rewiden (t : Token) : Token :=
  match t.kind with
  | .indent w => { t with kind := .indent (f w) }
  | _ => t

/-- A report with another width if it tells one. -/
def Diagnostic.rewiden (d : Diagnostic) : Diagnostic :=
  match d.problem with
  | .unmatchedIndentation w => { d with problem := .unmatchedIndentation (f w) }
  | _ => d

namespace Shift

/-- Widths are replaced, and all stays where it is. -/
def rewiden {f : Nat → Nat} (hf : StrictMono f) : Shift where
  place := id
  width := f
  place_nowhere := rfl
  width_lt := fun h => hf h

variable {f} (hf : StrictMono f)

theorem token_rewiden (t : Token) : (rewiden hf).token t = t.rewiden f := by
  obtain ⟨kind, text, p⟩ := t
  cases kind <;> rfl

/-- No width stands in an outline. -/
theorem outline_rewiden (o : Outline) : (rewiden hf).outline o = o := by
  have entry : (rewiden hf).entry = id := rfl
  have element : (rewiden hf).element = id := by
    funext e
    rw [Shift.element, entry, List.map_id, List.map_id]
    rfl
  rw [outline, element, Tree.mapAll_id]

/-- No message but one tells the width of an indentation. -/
theorem told_diagnostic_rewiden (d : Diagnostic) :
    ((rewiden hf).diagnostic d).told = (d.rewiden f).told := by
  obtain ⟨problem, p⟩ := d
  cases problem with
  | orphanMetadata found | unexpectedAtLineStart found | unexpectedAtLineEnd found
  | expectedTagName found | expectedTagEnd found | unexpectedInLayout found
  | expectedAttributeName found => cases found <;> rfl
  | _ => rfl

end Shift

namespace Outline

open Token (scan lined_scan atLineEnd_scan)

/-- When the widths of the lines of a text are replaced by others in the same order, the same outline
is read and the same is told of it, but for the number of a width. -/
theorem ofTokens_rewiden {f : Nat → Nat} (hf : StrictMono f) (source : String) :
    (ofTokens ((scan source).1.map (Token.rewiden f))).1 = (ofTokens (scan source).1).1 ∧
      (ofTokens ((scan source).1.map (Token.rewiden f))).2.map Diagnostic.told =
        ((ofTokens (scan source).1).2.map (Diagnostic.rewiden f)).map Diagnostic.told := by
  have moved := (Shift.rewiden hf).ofTokens_tokens (lined_scan source) (atLineEnd_scan source)
  have tokens : (scan source).1.map (Shift.rewiden hf).token =
      (scan source).1.map (Token.rewiden f) :=
    List.map_congr_left fun t _ => Shift.token_rewiden hf t
  rw [tokens] at moved
  rw [moved, Shift.outline_rewiden, List.map_map, List.map_map]
  exact ⟨rfl, List.map_congr_left fun d _ => Shift.told_diagnostic_rewiden hf d⟩

/-- Of the widths 0, 2 and 1 the last matches no level, whatever they are. -/
theorem ofTokens_rewiden_odd :
    StrictMono (fun w => 2 * w + 1) ∧
      (ofTokens ((scan "[CARD: a]\n  [TEXT: b]\n [TEXT: c]").1.map
        (Token.rewiden fun w => 2 * w + 1))).2.map Diagnostic.message =
          ["indentation of 3 matches no enclosing level"] := by
  have hf : StrictMono (fun w => 2 * w + 1) := by
    intro v w h
    dsimp only
    omega
  obtain ⟨-, told⟩ := ofTokens_rewiden hf "[CARD: a]\n  [TEXT: b]\n [TEXT: c]"
  have read : (ofTokens (scan "[CARD: a]\n  [TEXT: b]\n [TEXT: c]").1).2 =
      [⟨.unmatchedIndentation 1, ⟨3, 2, 23⟩⟩] := by decide +kernel
  rw [read] at told
  have messages := congrArg (List.map fun x => x.2.2.2) told
  rw [List.map_map] at messages
  exact ⟨hf, messages.trans (by decide +kernel)⟩

end Outline

end Wireframe
