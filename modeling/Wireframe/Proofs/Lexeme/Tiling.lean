import Wireframe.Lexeme.Basic

/-!
# Lexemes tile their text

What a lexeme is written as is the beginning of what was left of its line, so the texts of all
lexemes put together are the text (`flatMap_text_ofText`). So the place of a token is the place
behind the text before it, and two texts with the end of a line between them have the tokens of
the first and then those of the second (`tokens_ofText_append`).
-/

namespace Wireframe

section

variable {α : Type} {p : α → Bool} {sep : α}

/-- Putting the parts of a list together again gives the list. -/
theorem intercalate_splitWhere (hs : ∀ a, p a = true → a = sep) (as : List α) :
    [sep].intercalate (splitWhere p as) = as := by
  induction as with
  | nil => rfl
  | cons a as ih =>
    rw [splitWhere]
    cases hp : splitWhere p as with
    | nil => exact absurd hp (splitWhere_ne_nil p as)
    | cons part parts =>
      rw [hp] at ih
      split
      next ha =>
        rw [List.intercalate_cons_cons, ih, hs a ha]
        rfl
      · cases parts with
        | nil =>
          rw [List.intercalate_singleton] at ih ⊢
          rw [ih]
        | cons next parts =>
          rw [List.intercalate_cons_cons] at ih ⊢
          rw [List.cons_append, List.cons_append, ih]

end

namespace Quoted

/-- A text begins with `c` and goes on with characters that stand in front of `cs`. -/
def Starts (c : Char) (cs text : List Char) : Prop :=
  ∃ more, text = c :: more ∧ more <+: cs

theorem Starts.drop {c : Char} {cs text : List Char} (h : Starts c cs text) :
    text ++ cs.drop (text.length - 1) = c :: cs := by
  obtain ⟨more, rfl, rest, rfl⟩ := h
  simp

theorem prefix_unicodeEscape? {cs written : List Char} {c : Char}
    (h : unicodeEscape? cs = some (written, c)) : written <+: cs := by
  unfold unicodeEscape? at h
  split at h
  next cs =>
    dsimp only at h
    split at h
    next hd =>
      obtain ⟨d, -, he⟩ := Option.map_eq_some_iff.mp h
      cases he
      obtain ⟨digits, rest, hc⟩ : ∃ digits rest, cs.takeWhile Text.isHexDigit = digits ∧
          cs = digits ++ rest :=
        ⟨_, cs.dropWhile Text.isHexDigit, rfl, List.takeWhile_append_dropWhile.symm⟩
      rw [hc.1, hc.2, List.drop_left] at hd
      obtain ⟨-, brace⟩ := hd
      obtain ⟨tail, rfl⟩ : ∃ tail, rest = '\x7d' :: tail := by
        cases rest with
        | nil => cases brace
        | cons d tail =>
          cases brace
          exact ⟨tail, rfl⟩
      rw [hc.1, hc.2]
      exact ⟨tail, by simp⟩
    · cases h
  next =>
    dsimp only at h
    split at h
    · obtain ⟨d, -, he⟩ := Option.map_eq_some_iff.mp h
      cases he
      exact (List.takeWhile_prefix _).trans (List.take_prefix 4 cs)
    · cases h

theorem starts_escape (cs : List Char) : Starts '\\' cs (escape cs).text := by
  unfold escape
  split
  · exact ⟨[], rfl, List.nil_prefix⟩
  next cs =>
    split
    next written c h =>
      exact ⟨'u' :: written, rfl, List.prefix_cons_inj _ |>.mpr (prefix_unicodeEscape? h)⟩
    · exact ⟨['u'], rfl, List.prefix_cons_inj _ |>.mpr List.nil_prefix⟩
  next c cs _ =>
    split <;> exact ⟨[c], rfl, List.prefix_cons_inj _ |>.mpr List.nil_prefix⟩

theorem starts_segment (c : Char) (cs : List Char) : Starts c cs (segment c cs).text := by
  unfold segment
  split
  next h =>
    rw [h]
    exact starts_escape cs
  · exact ⟨[], rfl, List.nil_prefix⟩

/-- What is written between quotes, with the closing quote if there is one, stands in front. -/
theorem prefix_scan (cs : List Char) :
    written (scan cs).1 ++ (if (scan cs).2 then ['"'] else []) <+: cs := by
  fun_induction scan cs with
  | case1 => exact List.nil_prefix
  | case2 cs => exact List.prefix_append ['"'] cs
  | case3 c cs _ s ss closed hs ih =>
    have first := starts_segment c cs
    rw [← first.drop, written, List.flatMap_cons, List.append_assoc,
      List.prefix_append_right_inj]
    rw [hs] at ih
    exact ih

end Quoted

namespace Lexeme

open Quoted (Starts)

/-- What a lexeme can be that begins with `c` and is followed by `cs` on its line. -/
inductive Begun (c : Char) (cs : List Char) : Lexeme → Prop
  | blanks (h : isSpacing c = true) : Begun c cs (blanks (c :: cs.takeWhile isSpacing))
  | comment {more} (h : c :: cs = '/' :: '/' :: more) : Begun c cs (comment (c :: cs))
  | symbol {kind} (h : symbol? c = some kind) : Begun c cs (symbol kind c)
  | quoted (h : c = '"') : Begun c cs (quoted (Quoted.scan cs).1 (Quoted.scan cs).2)
  | word (h : startsWord c cs.head? = true) : Begun c cs (word (c :: cs.takeWhile inWord))
  | illegal : Begun c cs (illegal c)

theorem begun_first (c : Char) (cs : List Char) : Begun c cs (first c cs) := by
  unfold first
  split
  next h => exact .blanks h
  split
  next h =>
    obtain ⟨rfl, hs⟩ := h
    obtain ⟨more, rfl⟩ := List.head?_eq_some_iff.mp hs
    exact .comment rfl
  split
  next kind h => exact .symbol h
  split
  next h => exact .quoted h
  split
  next h => exact .word h
  · exact .illegal

theorem starts_first (c : Char) (cs : List Char) : Starts c cs (first c cs).text := by
  have begun := begun_first c cs
  generalize first c cs = l at begun ⊢
  cases begun with
  | blanks | word => exact ⟨_, rfl, List.takeWhile_prefix _⟩
  | comment => exact ⟨cs, rfl, List.prefix_rfl⟩
  | symbol | illegal => exact ⟨[], rfl, List.nil_prefix⟩
  | quoted h =>
    rw [h]
    exact ⟨_, rfl, Quoted.prefix_scan cs⟩

theorem flatMap_text_inLine (cs : List Char) : (inLine cs).flatMap text = cs := by
  fun_induction inLine cs with
  | case1 => rfl
  | case2 c cs l ih => rw [List.flatMap_cons, ih, (starts_first c cs).drop]

theorem flatMap_text_ofLine (cs : List Char) : (ofLine cs).flatMap text = cs := by
  have led (lead : List Char) :
      (if lead = [] then [] else [blanks lead]).flatMap text = lead := by
    split
    next h => exact h.symm
    · exact List.flatMap_singleton text _
  have parts := List.takeWhile_append_dropWhile (p := isIndentation) (l := cs)
  unfold ofLine
  dsimp only
  split
  next h => rw [led, ← List.append_nil (cs.takeWhile _), ← h, parts]
  split
  · rw [List.flatMap_append, led, List.flatMap_singleton]
    exact parts
  · rw [List.flatMap_append, List.flatMap_cons, led, flatMap_text_inLine]
    exact parts

theorem ofLines_cons (cs : List Char) {lines : List (List Char)} (h : lines ≠ []) :
    ofLines (cs :: lines) = ofLine cs ++ lineEnd (hasContent (ofLine cs)) :: ofLines lines := by
  obtain ⟨line, more, rfl⟩ := List.exists_cons_of_ne_nil h
  rfl

theorem flatMap_text_ofLines (lines : List (List Char)) :
    (ofLines lines).flatMap text = ['\n'].intercalate lines := by
  induction lines with
  | nil => rfl
  | cons cs lines ih =>
    cases lines with
    | nil =>
      rw [List.intercalate_singleton]
      exact flatMap_text_ofLine cs
    | cons line more =>
      rw [ofLines_cons cs (List.cons_ne_nil line more), List.flatMap_append, List.flatMap_cons, ih,
        flatMap_text_ofLine, List.intercalate_cons_cons, List.append_assoc]
      rfl

/-- The texts of the lexemes of a text, put together, are the text. -/
theorem flatMap_text_ofText (cs : List Char) : (ofText cs).flatMap text = cs := by
  rw [ofText, flatMap_text_ofLines]
  exact intercalate_splitWhere (fun c hc => of_decide_eq_true hc) cs

theorem tokens_append (p : Location) (ls ms : List Lexeme) :
    tokens p (ls ++ ms) = tokens p ls ++ tokens (p.advance (ls.flatMap text)) ms := by
  induction ls generalizing p with
  | nil => rfl
  | cons l ls ih =>
    rw [List.cons_append, tokens, tokens, ih, List.append_assoc, List.flatMap_cons,
      Location.advance_append]

theorem problems_append (p : Location) (ls ms : List Lexeme) :
    problems p (ls ++ ms) = problems p ls ++ problems (p.advance (ls.flatMap text)) ms := by
  induction ls generalizing p with
  | nil => rfl
  | cons l ls ih =>
    rw [List.cons_append, problems, problems, ih, List.append_assoc, List.flatMap_cons,
      Location.advance_append]

theorem ofLines_append {ls ms : List (List Char)} (hl : ls ≠ []) (hm : ms ≠ []) :
    ofLines (ls ++ ms) =
      ofLines ls ++ lineEnd (hasContent (ofLine (ls.getLast hl))) :: ofLines ms := by
  induction ls with
  | nil => exact absurd rfl hl
  | cons cs lines ih =>
    cases lines with
    | nil => exact ofLines_cons cs hm
    | cons line more =>
      have hne := List.cons_ne_nil line more
      rw [List.cons_append, ofLines_cons cs (by simp), ih hne, ofLines_cons cs hne,
        List.append_assoc, List.getLast_cons hne]
      rfl

/-- The last line of a text. -/
def lastLine (cs : List Char) : List Char :=
  (splitWhere (· = '\n') cs).getLast (splitWhere_ne_nil _ cs)

theorem ofText_append (as bs : List Char) :
    ofText (as ++ '\n' :: bs) =
      ofText as ++ lineEnd (hasContent (ofLine (lastLine as))) :: ofText bs := by
  rw [ofText, splitWhere_append (by decide)]
  exact ofLines_append (splitWhere_ne_nil _ as) (splitWhere_ne_nil _ bs)

theorem splitWhere_line {line : List Char} (h : '\n' ∉ line) :
    splitWhere (· = '\n') line = [line] :=
  splitWhere_of_not_mem fun _ hc => decide_eq_false fun e => h (e ▸ hc)

theorem ofText_line {line : List Char} (h : '\n' ∉ line) : ofText line = ofLine line := by
  rw [ofText, splitWhere_line h]
  rfl

theorem lastLine_line {line : List Char} (h : '\n' ∉ line) : lastLine line = line := by
  simp only [lastLine, splitWhere_line h, List.getLast_singleton]

/-- What holds of texts of one line and goes on holding behind one more line holds of all texts. -/
theorem line_induction {P : List Char → Prop} (last : ∀ line, '\n' ∉ line → P line)
    (cons : ∀ line after, '\n' ∉ line → P after → P (line ++ '\n' :: after)) (cs : List Char) :
    P cs := by
  by_cases h : '\n' ∈ cs
  · obtain ⟨line, after, hc, hl⟩ := List.eq_append_cons_of_mem h
    rw [hc]
    exact cons line after hl (line_induction last cons after)
  · exact last cs h
termination_by cs.length
decreasing_by
  rw [hc, List.length_append, List.length_cons]
  omega

/-- The end of a line as tokens; none when the line has no content. -/
def lineEndTokens (p : Location) (content : Bool) : List Token :=
  if content then [⟨.newline, "\n", p⟩] else []

/-- The tokens of two texts with the end of a line between them. -/
theorem tokens_ofText_append (p : Location) (as bs : List Char) :
    tokens p (ofText (as ++ '\n' :: bs)) =
      tokens p (ofText as) ++
        (lineEndTokens (p.advance as) (hasContent (ofLine (lastLine as))) ++
          tokens (p.advance (as ++ ['\n'])) (ofText bs)) := by
  rw [ofText_append, tokens_append, flatMap_text_ofText, tokens, Location.advance_append]
  cases hasContent (ofLine (lastLine as)) <;> rfl

end Lexeme

end Wireframe
