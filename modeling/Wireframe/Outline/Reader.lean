import Wireframe.Outline.Builder
import Wireframe.Lexeme.Cursor

/-!
# Reading outlines

An outline is read line by line. A line begins with its indentation and then opens a tag, adds
metadata to one that is open, or is reported and passed over. What is wrong with one line never
keeps the lines below it from being read.
-/

namespace Wireframe

namespace Outline

/-- Passes over what is left of a line, which should be nothing. -/
def endLine (ts : List Token) : Reading Unit :=
  if inLine (next ts) then
    ⟨(), [⟨.unexpectedAtLineEnd (next ts).kind, (next ts).location⟩], ts.dropWhile inLine⟩
  else ⟨(), [], ts⟩

/-- Items for the innermost open tag, and the end of their line. -/
def itemsLine (b : Builder) (ts : List Token) : Reading Builder :=
  let run := items ts
  let tail := endLine run.rest
  ⟨b.attach run.value, run.problems ++ b.attachProblems run.value ++ tail.problems, tail.rest⟩

/-- A line that opens a tag, behind its bracket at `start`. -/
def tagLine (b : Builder) (width : Nat) (start : Location) (ts : List Token) : Reading Builder :=
  let head := tag start ts
  let line := itemsLine (b.openTag width head.value) head.rest
  let misfit := if b.unmatched width then [⟨.unmatchedIndentation width, start⟩] else []
  ⟨line.value, head.problems ++ misfit ++ line.problems, line.rest⟩

/-- A line behind its indentation. -/
def line (b : Builder) (width : Nat) (ts : List Token) : Reading Builder :=
  let t := next ts
  match t.kind with
  | .openBracket => tagLine b width t.location (ts.drop 1)
  | .openBrace | .attr | .content =>
    if b.hasOwner width then itemsLine (b.closeWider width) ts
    else ⟨b, [⟨.orphanMetadata t.kind, t.location⟩], ts.dropWhile inLine⟩
  | .newline | .eof => ⟨b, [], ts⟩
  | found => ⟨b, [⟨.unexpectedAtLineStart found, t.location⟩], ts.dropWhile inLine⟩

theorem endLine_length (ts : List Token) : (endLine ts).rest.length ≤ ts.length := by
  unfold endLine
  grind [length_dropWhile_le]

theorem itemsLine_length (b : Builder) (ts : List Token) :
    (itemsLine b ts).rest.length ≤ (items ts).rest.length :=
  endLine_length _

theorem tagLine_length (b : Builder) (width : Nat) (start : Location) (ts : List Token) :
    (tagLine b width start ts).rest.length ≤ ts.length :=
  Nat.le_trans (itemsLine_length (b.openTag width (tag start ts).value) _)
    (Nat.le_trans (items_length _) (tag_length start ts))

theorem line_length (b : Builder) (width : Nat) (ts : List Token) :
    (line b width ts).rest.length ≤ ts.length := by
  have tagged := tagLine_length b width (next ts).location (ts.drop 1)
  have run := Nat.le_trans (itemsLine_length (b.closeWider width) ts) (items_length ts)
  unfold line
  grind [length_dropWhile_le]

/-- A line that is not over at its first token uses that token up. -/
theorem line_progress (b : Builder) (width : Nat) {t : Token} (ts : List Token)
    (h : inLine t = true) : (line b width (t :: ts)).rest.length ≤ ts.length := by
  have tagged := tagLine_length b width t.location ts
  have run := itemsLine_length (b.closeWider width) (t :: ts)
  have progress := items_progress (t := t) ts
  have skipped : ((t :: ts).dropWhile inLine).length ≤ ts.length := by
    rw [List.dropWhile_cons_of_pos h]
    exact length_dropWhile_le _ ts
  unfold line
  simp only [next, List.headD_cons, List.drop_one, List.tail_cons]
  grind [inLine, Token.Kind.endsLine]

/-- What is read from the tokens behind what `b` holds. A line that does not begin with its
indentation stands as far in as the column of its first token. -/
def readFrom (b : Builder) (ts : List Token) : Outline × List Diagnostic :=
  match ts with
  | [] => (b.finish, [])
  | t :: us =>
    if _h : inLine t = true then
      let l := line b (t.location.column - 1) (t :: us)
      let more := readFrom l.value l.rest
      (more.1, l.problems ++ more.2)
    else
      match t.kind with
      | .indent width =>
        let l := line b width us
        let more := readFrom l.value l.rest
        (more.1, l.problems ++ more.2)
      | .newline => readFrom b us
      | _ => (b.finish, [])
termination_by ts.length
decreasing_by
  · exact Nat.lt_succ_of_le (line_progress b _ us _h)
  · exact Nat.lt_succ_of_le (line_length b width us)
  · simp

/-- The outline that tokens write, and what is wrong with them. -/
def ofTokens (ts : List Token) : Outline × List Diagnostic :=
  readFrom .empty ts

/-- The outline of a source text, and what is wrong with the text: first with its characters, then
with its lines. -/
def read (source : String) : Outline × List Diagnostic :=
  let (tokens, lexical) := Token.scan source
  let (outline, syntactic) := ofTokens tokens
  (outline, lexical ++ syntactic)

end Outline

end Wireframe
