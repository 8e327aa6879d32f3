import Wireframe.Proofs.Lexeme.Coverage

/-!
# Scanning line by line

Whatever is open at the end of a line is closed there: a string literal, an escape in it, a comment.
So a text below another one is scanned as on its own. Its tokens and its problems come behind those
of the text above, further down and otherwise the same (`scan_append_line`).
-/

namespace Wireframe

open Location (behind)

/-- The same token with more lines and bytes in front of it. -/
def Token.lower (lines bytes : Nat) (t : Token) : Token :=
  { t with location := t.location.lower lines bytes }

/-- The same problem with more lines and bytes in front of it. -/
def Diagnostic.lower (lines bytes : Nat) (d : Diagnostic) : Diagnostic :=
  { d with location := d.location.lower lines bytes }

section

variable (lines bytes : Nat) (p : Location)

theorem Quoted.diagnostics_lower (ss : List Segment) :
    diagnostics (p.lower lines bytes) ss =
      (diagnostics p ss).map (Diagnostic.lower lines bytes) := by
  induction ss generalizing p with
  | nil => rfl
  | cons s ss ih =>
    rw [diagnostics, diagnostics, Location.advance_lower, ih, List.map_append]
    cases s.problem <;> rfl

namespace Lexeme

theorem diagnostics_lower (l : Lexeme) :
    l.diagnostics (p.lower lines bytes) =
      (l.diagnostics p).map (Diagnostic.lower lines bytes) := by
  cases l with
  | quoted ss closed =>
    simp only [diagnostics, Location.step_lower, Quoted.diagnostics_lower, List.map_append]
    cases closed <;> rfl
  | _ => rfl

theorem problems_lower (ls : List Lexeme) :
    problems (p.lower lines bytes) ls =
      (problems p ls).map (Diagnostic.lower lines bytes) := by
  induction ls generalizing p with
  | nil => rfl
  | cons l ls ih =>
    rw [problems, problems, Location.advance_lower, ih, diagnostics_lower, List.map_append]

/-- The problems of two texts with the end of a line between them. -/
theorem problems_ofText_append (as bs : List Char) :
    problems p (ofText (as ++ '\n' :: bs)) =
      problems p (ofText as) ++ problems (p.advance (as ++ ['\n'])) (ofText bs) := by
  rw [ofText_append, problems_append, flatMap_text_ofText, problems, Location.advance_append]
  rfl

end Lexeme

end

namespace Token

open Lexeme (hasContent ofLine ofText lastLine lineEndTokens)

/-- The first place below a text. -/
theorem start_advance_line (source : String) :
    Location.start.advance (body source ++ ['\n']) =
      Location.start.lower (height source) (depth source) := by
  rw [Location.advance_line]
  simp [Location.lower, Location.start, height, depth]

theorem token_lower_of_mem {source : String} (lines bytes : Nat) {t : Token}
    (h : t ∈ (scan source).1) : (Shift.lower lines bytes).token t = t.lower lines bytes := by
  obtain ⟨before, -, -, place⟩ := exists_of_mem_scan h
  have line : 0 < t.location.line := by
    rw [place]
    exact Nat.add_pos_left Nat.one_pos _
  exact Shift.token_lower lines bytes t.kind t.text line

/-- The last line of a text has content when one of the tokens is its indentation. -/
theorem indents_scan (source : String) :
    indents (scan source).1 (height source) = hasContent (ofLine (lastLine (body source))) := by
  have line := Lexeme.indents_lastLine (body source)
  simp only [scan_eq, height]
  rw [indents_append, Nat.add_comm, line]
  exact Bool.or_false _

theorem problems_joined (a : String) {b : String} (hb : b.toList.head? ≠ some '\ufeff') :
    (scan (a ++ "\n" ++ b)).2 =
      (scan a).2 ++ (scan b).2.map (Diagnostic.lower (height a) (depth a)) := by
  simp only [scan_eq]
  rw [body_joined a hb, Lexeme.problems_ofText_append, start_advance_line, Lexeme.problems_lower]

/-- Two texts one below the other are scanned one after the other: the tokens of the first without
the one that ends it, the end of its last line if that has an indentation, and the tokens of the
second further down; the problems of both in this order. -/
theorem scan_append_line (a : String) {b : String} (hb : b.toList.head? ≠ some '\ufeff') :
    (scan (a ++ "\n" ++ b)).1 = (scan a).1.dropLast ++
        (if indents (scan a).1 (height a) then [⟨.newline, "\n", behind (body a)⟩] else []) ++
          (scan b).1.map (lower (height a) (depth a)) ∧
      (scan (a ++ "\n" ++ b)).2 =
        (scan a).2 ++ (scan b).2.map (Diagnostic.lower (height a) (depth a)) ∧
      (scan (a ++ "\n" ++ b)).2.map Diagnostic.message = (scan a).2.map Diagnostic.message ++
        (scan b).2.map fun d => d.problem.message (d.location.offset + depth a) := by
  have problems := problems_joined a hb
  refine ⟨?_, problems, ?_⟩
  · have lowered : (scan b).1.map (Shift.lower (height a) (depth a)).token =
        (scan b).1.map (lower (height a) (depth a)) :=
      List.map_congr_left fun t ht => token_lower_of_mem (height a) (depth a) ht
    have above : (scan a).1.dropLast = Lexeme.tokens .start (ofText (body a)) := by
      rw [fst_scan, List.dropLast_concat]
    rw [scan_joined a hb, lowered, above, indents_scan, Location.start_advance,
      List.append_assoc]
    rfl
  · rw [problems, List.map_append, List.map_map]
    rfl

/-- A string literal that is not closed ends with its line, and what is wrong below that line is
found further down. -/
theorem scan_append_line_unterminated :
    "~".toList.head? ≠ some '\ufeff' ∧
      (scan ("[A: \"x" ++ "\n" ++ "~")).1 =
        (scan "[A: \"x").1.dropLast ++ [⟨.newline, "\n", ⟨1, 7, 6⟩⟩] ++
          (scan "~").1.map (lower 1 7) ∧
      (scan ("[A: \"x" ++ "\n" ++ "~")).2 =
        [⟨.unterminatedString, ⟨1, 5, 4⟩⟩, ⟨.illegalCharacter '~', ⟨2, 1, 7⟩⟩] := by
  have start : "~".toList.head? ≠ some '\ufeff' := by decide
  obtain ⟨tokens, problems, -⟩ := scan_append_line "[A: \"x" start
  have size : height "[A: \"x" = 1 ∧ depth "[A: \"x" = 7 := by decide +kernel
  have indented : indents (scan "[A: \"x").1 1 = true := by decide +kernel
  have above : (scan "[A: \"x").2 = [⟨.unterminatedString, ⟨1, 5, 4⟩⟩] := by decide +kernel
  have below : (scan "~").2 = [⟨.illegalCharacter '~', ⟨1, 1, 0⟩⟩] := by decide +kernel
  rw [size.1, size.2] at tokens problems
  rw [indented] at tokens
  rw [above, below] at problems
  exact ⟨start, tokens, problems⟩

end Token

end Wireframe
