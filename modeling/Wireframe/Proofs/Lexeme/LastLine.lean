import Wireframe.Proofs.Lexeme.Occurrences

/-!
# Lines with content

Whether a line has content can be told from the tokens of its text: one of them is an indentation
with the number of that line, be it the last line of the text (`indents_lastLine`) or one that
others follow (`indents_line`).
-/

namespace Wireframe

namespace Token

/-- Whether one of the tokens is the indentation of a line. -/
def indents (ts : List Token) (line : Nat) : Bool :=
  ts.any fun t => Outline.isIndent t.kind && t.location.line = line

theorem indents_eq_true {ts : List Token} {line : Nat} :
    indents ts line = true ↔
      ∃ t ∈ ts, Outline.isIndent t.kind = true ∧ t.location.line = line := by
  simp [indents]

theorem indents_append (ts us : List Token) (line : Nat) :
    indents (ts ++ us) line = (indents ts line || indents us line) :=
  List.any_append

/-- No line is indented by tokens that stand elsewhere. -/
theorem indents_of_ne {ts : List Token} {line : Nat} (h : ∀ t ∈ ts, t.location.line ≠ line) :
    indents ts line = false := by
  rw [Bool.eq_false_iff]
  intro hi
  obtain ⟨t, ht, -, hl⟩ := indents_eq_true.mp hi
  exact h t ht hl

end Token

namespace Lexeme

open Token (indents indents_eq_true indents_append indents_of_ne)

/-- A text is its last line, or it ends with it behind the end of another line. -/
theorem eq_line_or_append (cs : List Char) :
    '\n' ∉ cs ∨ ∃ above line, cs = above ++ '\n' :: line ∧ '\n' ∉ line := by
  by_cases h : '\n' ∈ cs
  · right
    obtain ⟨as, bs, hr, has⟩ := List.eq_append_cons_of_mem (List.mem_reverse.mpr h)
    refine ⟨bs.reverse, as.reverse, ?_, fun hm => has (List.mem_reverse.mp hm)⟩
    rw [← List.reverse_reverse cs, hr]
    simp
  · exact .inl h

theorem lastLine_append (above : List Char) {line : List Char} (h : '\n' ∉ line) :
    lastLine (above ++ '\n' :: line) = line := by
  have parts : splitWhere (· = '\n') (above ++ '\n' :: line) =
      splitWhere (· = '\n') above ++ [line] := by
    rw [splitWhere_append (by decide), splitWhere_line h]
  simp only [lastLine, parts, List.getLast_append_singleton]

/-- The tokens of a text stand on its lines. -/
theorem lines_of_mem_tokens {p : Location} {cs : List Char} {t : Token}
    (h : t ∈ tokens p (ofText cs)) :
    p.line ≤ t.location.line ∧ t.location.line ≤ p.line + cs.count '\n' := by
  obtain ⟨ls₁, l, ls₂, hl, -, -, hp⟩ := exists_of_mem_tokens h
  rw [hp, Location.line_advance, ← flatMap_text_ofText cs, hl, List.flatMap_append,
    List.count_append]
  omega

/-- A line has an indentation when it has content. -/
theorem indents_ofLine (p : Location) {line : List Char} (h : '\n' ∉ line) :
    indents (tokens p (ofLine line)) p.line = hasContent (ofLine line) := by
  have kinds := map_kind_tokens p (ofLine line)
  rcases kinds_ofLine line with ⟨blank, none⟩ | ⟨width, content, some⟩
  · rw [none, List.map_eq_nil_iff] at kinds
    rw [blank, kinds]
    rfl
  · rw [some] at kinds
    obtain ⟨t, ts, ht, kind, -⟩ := List.map_eq_cons_iff.mp kinds
    have first : t ∈ tokens p (ofLine line) := ht ▸ List.mem_cons_self
    rw [content]
    refine indents_eq_true.mpr ⟨t, first, Outline.isIndent_eq_true.mpr ⟨width, kind⟩, ?_⟩
    -- no line ends before the token
    obtain ⟨ls₁, l, ls₂, hl, -, -, hp⟩ := exists_of_mem_tokens first
    have before : '\n' ∉ ls₁.flatMap text := by
      intro hm
      rw [← flatMap_text_ofLine line, hl, List.flatMap_append] at h
      exact h (List.mem_append_left _ hm)
    rw [hp, Location.line_advance, List.count_eq_zero_of_not_mem before]
    rfl

theorem indents_lineEndTokens (p : Location) (content : Bool) (line : Nat) :
    indents (lineEndTokens p content) line = false := by
  cases content <;> rfl

/-- The last line of a text has an indentation when it has content. -/
theorem indents_lastLine (cs : List Char) :
    indents (tokens .start (ofText cs)) (1 + cs.count '\n') =
      hasContent (ofLine (lastLine cs)) := by
  rcases eq_line_or_append cs with h | ⟨above, line, rfl, h⟩
  · rw [ofText_line h, lastLine_line h, List.count_eq_zero_of_not_mem h]
    exact indents_ofLine .start h
  · have number : 1 + (above ++ '\n' :: line).count '\n' =
        (Location.start.advance (above ++ ['\n'])).line := by
      rw [Location.line_advance, List.count_append, List.count_append, List.count_cons_self,
        List.count_cons_self, List.count_eq_zero_of_not_mem h]
      rfl
    have upper : indents (tokens .start (ofText above))
        (Location.start.advance (above ++ ['\n'])).line = false := by
      refine indents_of_ne fun t ht => ?_
      have bound := (lines_of_mem_tokens ht).2
      rw [Location.line_advance, List.count_append, List.count_singleton_self]
      omega
    rw [number, lastLine_append above h, tokens_ofText_append, indents_append, indents_append,
      upper, indents_lineEndTokens, ofText_line h, indents_ofLine _ h]
    rfl

/-- A line that is followed by others has an indentation when it has content. -/
theorem indents_line (before after : List Char) :
    indents (tokens .start (ofText (before ++ '\n' :: after))) (1 + before.count '\n') =
      hasContent (ofLine (lastLine before)) := by
  have lower : indents (tokens (Location.start.advance (before ++ ['\n'])) (ofText after))
      (1 + before.count '\n') = false := by
    refine indents_of_ne fun t ht => ?_
    have bound := (lines_of_mem_tokens ht).1
    rw [Location.line_advance, List.count_append, List.count_singleton_self,
      Location.start_line] at bound
    omega
  rw [tokens_ofText_append, indents_append, indents_append, indents_lastLine,
    indents_lineEndTokens, lower, Bool.or_false, Bool.or_false]

end Lexeme

end Wireframe
