import Wireframe.Proofs.Lexeme.LastLine
import Wireframe.Proofs.Lexeme.Spelling

/-!
# Line endings

A carriage return at the end of a line means nothing: it ends no word, joins the blanks or the
comment in front of it, and is a blank of its own behind everything else. Only a string that is left
open would take it in. So a text whose strings are closed has the same tokens whether its lines end
with a newline alone or with a carriage return in front of it (`scan_returned`).
-/

namespace Wireframe

/-- A carriage return ends a run of characters that it is none of, and so does the end of a line. -/
theorem takeWhile_return {p : Char → Bool} (h : p '\r' = false) (cs : List Char) :
    (cs ++ ['\r']).takeWhile p = cs.takeWhile p :=
  takeWhile_append_other cs h

theorem head?_return {c : Char} (hc : c ≠ '\r') (cs : List Char) :
    (cs ++ ['\r']).head? = some c ↔ cs.head? = some c := by
  cases cs with
  | nil => simp [Ne.symm hc]
  | cons => rfl

namespace Quoted

theorem unicodeEscape?_return (cs : List Char) :
    unicodeEscape? (cs ++ ['\r']) = unicodeEscape? cs := by
  have hex : Text.isHexDigit '\r' = false := by decide
  cases cs with
  | nil => decide
  | cons c cs =>
    by_cases brace : c = '\x7b'
    · subst brace
      have digits := takeWhile_return hex cs
      have inner : (cs.takeWhile Text.isHexDigit).length ≤ cs.length :=
        (List.takeWhile_prefix _).length_le
      rw [List.cons_append, unicodeEscape?, unicodeEscape?]
      simp only [digits, List.drop_append_of_le_length inner,
        head?_return (show '\x7d' ≠ '\r' by decide)]
    · have other (cs : List Char) : ∀ ds, c :: cs = '\x7b' :: ds → False :=
        fun ds he => brace (List.cons.inj he).1
      have tail (n : Nat) : (['\r'].take n).head?.any Text.isHexDigit = false := by
        cases n <;> rfl
      have digits : ((c :: cs ++ ['\r']).take 4).takeWhile Text.isHexDigit =
          ((c :: cs).take 4).takeWhile Text.isHexDigit := by
        rw [List.take_append, takeWhile_append_other _ (tail _)]
      rw [unicodeEscape?, unicodeEscape?, digits]
      · exact other cs
      · exact other _

theorem escape_return {cs : List Char} (h : cs ≠ []) : escape (cs ++ ['\r']) = escape cs := by
  cases cs with
  | nil => exact absurd rfl h
  | cons c cs =>
    by_cases unicode : c = 'u'
    · subst unicode
      rw [List.cons_append, escape, escape, unicodeEscape?_return]
    · rw [List.cons_append, escape, escape]
      · exact unicode
      · exact unicode

theorem segment_return (c : Char) {cs : List Char} (h : cs ≠ []) :
    segment c (cs ++ ['\r']) = segment c cs := by
  rw [segment, segment, escape_return h]

/-- A string that is closed ends in front of the end of its line. -/
theorem scan_return {cs : List Char} (h : (scan cs).2 = true) : scan (cs ++ ['\r']) = scan cs := by
  fun_induction scan cs with
  | case1 => cases h
  | case2 cs => rw [List.cons_append, scan, if_pos rfl]
  | case3 c cs quote s ss closed hs ih =>
    have more : cs ≠ [] := by
      rintro rfl
      rw [List.drop_nil, scan] at hs
      cases hs
      cases h
    have inner : s.text.length - 1 ≤ cs.length := by
      obtain ⟨text, ht, front⟩ := starts_segment c cs
      rw [show s.text = c :: text from ht]
      exact front.length_le
    have same := ih (by rw [hs]; exact h)
    rw [List.cons_append, scan, if_neg quote, segment_return c more]
    dsimp only
    rw [List.drop_append_of_le_length inner, same, hs]

end Quoted

namespace Lexeme

/-- Whether a lexeme is passed over. -/
def isBlank : Lexeme → Bool
  | blanks _ | comment _ => true
  | _ => false

/-- Lexemes without those that are passed over. -/
def visible (ls : List Lexeme) : List Lexeme :=
  ls.filter fun l => !l.isBlank

@[simp] theorem visible_append (ls ms : List Lexeme) :
    visible (ls ++ ms) = visible ls ++ visible ms :=
  List.filter_append ls ms

theorem visible_cons (l : Lexeme) (ls : List Lexeme) :
    visible (l :: ls) = (if l.isBlank then [] else [l]) ++ visible ls := by
  rw [visible, List.filter_cons]
  cases l.isBlank <;> rfl

/-- What a carriage return at the end of its line does to a lexeme: nothing, or it becomes the end
of a lexeme that is passed over. -/
theorem first_return (c : Char) (cs : List Char) (h : ∀ ss, first c cs ≠ quoted ss false) :
    first c (cs ++ ['\r']) = first c cs ∨
      (first c cs).isBlank = true ∧ (first c cs).text = c :: cs ∧
        (first c (cs ++ ['\r'])).isBlank = true ∧
          (first c (cs ++ ['\r'])).text = c :: (cs ++ ['\r']) := by
  have word : inWord '\r' = false := by decide
  unfold first
  by_cases spacing : isSpacing c = true
  · rw [if_pos spacing, if_pos spacing, List.takeWhile_append]
    split
    next all =>
      have self : cs.takeWhile isSpacing = cs := (List.takeWhile_prefix _).eq_of_length all
      exact .inr ⟨rfl, by rw [self]; rfl, rfl, rfl⟩
    · exact .inl rfl
  have slash : (cs ++ ['\r']).head? = some '/' ↔ cs.head? = some '/' :=
    head?_return (by decide) cs
  rw [if_neg spacing, if_neg spacing]
  by_cases comment : c = '/' ∧ cs.head? = some '/'
  · rw [if_pos comment, if_pos (by rw [slash]; exact comment)]
    exact .inr ⟨rfl, rfl, rfl, rfl⟩
  refine .inl ?_
  rw [if_neg comment, if_neg (by rw [slash]; exact comment)]
  cases symbol : symbol? c with
  | some kind => rfl
  | none =>
    dsimp only
    by_cases quote : c = '"'
    · subst quote
      have closed : (Quoted.scan cs).2 = true := by
        by_contra opened
        exact h (Quoted.scan cs).1 (by rw [first_quote, Bool.eq_false_iff.mpr opened])
      rw [if_pos rfl, if_pos rfl, Quoted.scan_return closed]
    · have begins : startsWord c (cs ++ ['\r']).head? = startsWord c cs.head? := by
        cases cs with
        | nil => simp [startsWord, word]
        | cons => rfl
      rw [if_neg quote, if_neg quote, begins, takeWhile_return word]

/-- Whether no string among lexemes is left open. -/
def Closed (ls : List Lexeme) : Prop :=
  ∀ ss, quoted ss false ∉ ls

theorem Closed.of_append {ls ms : List Lexeme} (h : Closed (ls ++ ms)) : Closed ls ∧ Closed ms :=
  ⟨fun ss hl => h ss (List.mem_append_left ms hl), fun ss hm => h ss (List.mem_append_right ls hm)⟩

theorem Closed.of_cons {l : Lexeme} {ls : List Lexeme} (h : Closed (l :: ls)) :
    (∀ ss, l ≠ quoted ss false) ∧ Closed ls :=
  ⟨fun ss hl => h ss (hl ▸ List.mem_cons_self), fun ss hm => h ss (List.mem_cons_of_mem l hm)⟩

theorem visible_inLine_return {cs : List Char} (h : Closed (inLine cs)) :
    visible (inLine (cs ++ ['\r'])) = visible (inLine cs) := by
  fun_induction inLine cs with
  | case1 =>
    simp only [List.nil_append, inLine, List.drop_nil]
    rfl
  | case2 c cs l ih =>
    obtain ⟨closed, more⟩ := h.of_cons
    rw [List.cons_append, inLine]
    rcases first_return c cs closed with same | ⟨blank, all, blank', all'⟩
    · have inner : l.text.length - 1 ≤ cs.length := by
        obtain ⟨text, ht, front⟩ := starts_first c cs
        rw [show l.text = c :: text from ht]
        exact front.length_le
      rw [same, List.drop_append_of_le_length inner, visible_cons, visible_cons, ih more]
    · -- both lexemes go to the end of the line
      rw [visible_cons, visible_cons, blank', show l.isBlank = true from blank, all',
        show l.text = c :: cs from all]
      simp [inLine]

theorem isComment_iff {cs : List Char} : isComment cs = true ↔ ['/', '/'] <+: cs := by
  constructor
  · intro h
    obtain ⟨more, rfl⟩ := isComment_eq_true h
    exact ⟨more, rfl⟩
  · rintro ⟨more, rfl⟩
    rfl

theorem isComment_return (cs : List Char) : isComment (cs ++ ['\r']) = isComment cs := by
  have other : ['/', '/'] ≠ cs ++ ['\r'] := by
    intro he
    have last := congrArg List.getLast? he
    simp at last
  rw [Bool.eq_iff_iff, isComment_iff, isComment_iff, List.prefix_concat_iff]
  exact or_iff_right other

/-- What is not passed over on a line: nothing, or its indentation and what stands behind it. -/
theorem visible_ofLine (cs : List Char) :
    visible (ofLine cs) =
      if cs.dropWhile isIndentation = [] ∨ isComment (cs.dropWhile isIndentation) = true then []
      else indent (indentation (cs.takeWhile isIndentation)) ::
        visible (inLine (cs.dropWhile isIndentation)) := by
  have led (lead : List Char) : visible (if lead = [] then [] else [blanks lead]) = [] := by
    split <;> rfl
  unfold ofLine
  dsimp only
  split
  next empty => rw [led, if_pos (.inl empty)]
  next empty =>
    split
    next comment =>
      rw [visible_append, led, if_pos (.inr comment)]
      rfl
    next comment =>
      rw [List.cons_append, visible_cons, visible_append, led, if_neg (not_or.mpr ⟨empty, comment⟩)]
      rfl

theorem hasContent_visible (ls : List Lexeme) : hasContent (visible ls) = hasContent ls := by
  unfold hasContent visible
  rw [List.any_filter]
  congr 1
  funext l
  cases l <;> rfl

theorem closed_visible {ls : List Lexeme} : Closed (visible ls) ↔ Closed ls := by
  simp [Closed, visible, isBlank]

theorem visible_ofLine_return {line : List Char} (h : Closed (ofLine line)) :
    visible (ofLine (line ++ ['\r'])) = visible (ofLine line) := by
  rw [visible_ofLine, visible_ofLine]
  rw [← closed_visible, visible_ofLine] at h
  by_cases empty : line.dropWhile isIndentation = []
  · have empty' : (line ++ ['\r']).dropWhile isIndentation = [] := by
      rw [List.dropWhile_append, empty]
      rfl
    rw [if_pos (.inl empty'), if_pos (.inl empty)]
  · have lead := takeWhile_append_of_ne_nil ['\r'] empty
    have rest := dropWhile_append_of_ne_nil ['\r'] empty
    rw [rest, lead, isComment_return]
    by_cases comment : isComment (line.dropWhile isIndentation) = true
    · rw [if_pos (.inr comment), if_pos (.inr comment)]
    · rw [if_neg (not_or.mpr ⟨empty, comment⟩)] at h
      have inside := closed_visible.mp h.of_cons.2
      rw [if_neg (not_or.mpr ⟨empty, comment⟩), if_neg (not_or.mpr ⟨by simp, comment⟩),
        visible_inLine_return inside]

/-- A text with a carriage return in front of every newline. -/
def returned (cs : List Char) : List Char :=
  cs.flatMap fun c => if c = '\n' then ['\r', '\n'] else [c]

theorem returned_line {line : List Char} (h : '\n' ∉ line) : returned line = line := by
  have same : ∀ c ∈ line, (if c = '\n' then ['\r', '\n'] else [c]) = [c] :=
    fun c hc => if_neg (ne_of_mem_of_not_mem hc h)
  rw [returned, List.flatMap_congr same]
  exact List.flatMap_singleton' line

theorem returned_append {line : List Char} (h : '\n' ∉ line) (after : List Char) :
    returned (line ++ '\n' :: after) = (line ++ ['\r']) ++ '\n' :: returned after := by
  have first := returned_line h
  rw [returned] at first
  rw [returned, List.flatMap_append, first, List.flatMap_cons, List.append_assoc]
  rfl

theorem visible_ofText_returned {cs : List Char} (h : Closed (ofText cs)) :
    visible (ofText (returned cs)) = visible (ofText cs) := by
  induction cs using line_induction with
  | last line hl => rw [returned_line hl]
  | cons line after hl ih =>
    have hl' : '\n' ∉ line ++ ['\r'] := by simpa using hl
    rw [ofText_append] at h
    obtain ⟨here, below⟩ := h.of_append
    rw [ofText_line hl] at here
    have same := visible_ofLine_return here
    have content : hasContent (ofLine (line ++ ['\r'])) = hasContent (ofLine line) := by
      rw [← hasContent_visible, same, hasContent_visible]
    rw [returned_append hl, ofText_append, ofText_append, ofText_line hl, ofText_line hl',
      lastLine_line hl, lastLine_line hl', visible_append, visible_append, visible_cons,
      visible_cons, same, content, ih below.of_cons.2]

/-- What is wrong with a lexeme, wherever it stands. -/
def faults : Lexeme → List Problem
  | illegal c => [.illegalCharacter c]
  | quoted ss closed =>
    ss.filterMap Quoted.Segment.problem ++ if closed then [] else [.unterminatedString]
  | _ => []

theorem map_problem_segments (p : Location) (ss : List Quoted.Segment) :
    (Quoted.diagnostics p ss).map Diagnostic.problem = ss.filterMap Quoted.Segment.problem := by
  induction ss generalizing p with
  | nil => rfl
  | cons s ss ih =>
    rw [Quoted.diagnostics, List.map_append, ih, List.filterMap_cons]
    cases s.problem <;> rfl

theorem map_problem_problems (p : Location) (ls : List Lexeme) :
    (problems p ls).map Diagnostic.problem = ls.flatMap faults := by
  have here (p : Location) (l : Lexeme) : (l.diagnostics p).map Diagnostic.problem = l.faults := by
    cases l with
    | quoted ss closed =>
      rw [diagnostics, List.map_append, map_problem_segments, faults]
      cases closed <;> rfl
    | _ => rfl
  induction ls generalizing p with
  | nil => rfl
  | cons l ls ih => rw [problems, List.map_append, here, ih, List.flatMap_cons]

/-- Nothing is wrong with what is passed over. -/
theorem flatMap_faults_visible (ls : List Lexeme) :
    (visible ls).flatMap faults = ls.flatMap faults := by
  induction ls with
  | nil => rfl
  | cons l ls ih =>
    rw [visible_cons, List.flatMap_append, ih, List.flatMap_cons]
    cases l <;> simp [isBlank, faults]

/-- What is passed over is no token. -/
theorem bare_visible (ls : List Lexeme) : bare (visible ls) = bare ls := by
  induction ls with
  | nil => rfl
  | cons l ls ih =>
    rw [visible_cons, bare_append, ih, bare_cons]
    cases l <;> rfl

theorem closed_of_problems {p : Location} {ls : List Lexeme}
    (h : ∀ d ∈ problems p ls, d.problem ≠ .unterminatedString) : Closed ls := by
  intro ss hm
  have fault : Problem.unterminatedString ∈ (problems p ls).map Diagnostic.problem := by
    rw [map_problem_problems]
    exact List.mem_flatMap.mpr ⟨_, hm, by simp [faults]⟩
  obtain ⟨d, hd, he⟩ := List.mem_map.mp fault
  exact h d hd he

end Lexeme

namespace Token

open Lexeme

/-- A source text with a carriage return in front of every newline. -/
def returned (source : String) : String :=
  String.ofList (Lexeme.returned source.toList)

theorem body_returned (source : String) :
    body (returned source) = Lexeme.returned (body source) := by
  rw [body_eq, body_eq, returned, String.toList_ofList]
  cases source.toList with
  | nil => rfl
  | cons c cs =>
    by_cases mark : c = '\ufeff'
    · subst mark
      rfl
    by_cases newline : c = '\n'
    · subst newline
      rfl
    · have first : Lexeme.returned (c :: cs) = c :: Lexeme.returned cs := by
        rw [Lexeme.returned, List.flatMap_cons, if_neg newline]
        rfl
      rw [first, if_neg (by simpa using mark), if_neg (by simpa using mark), first]

/-- With or without carriage returns at the ends of its lines a text has the same tokens, but for
their places, and the same is wrong with it, unless a string is left open. -/
theorem scan_returned (source : String)
    (h : ∀ d ∈ (scan source).2, d.problem ≠ .unterminatedString) :
    ((scan (returned source)).1.map fun t => (t.kind, t.text)) =
        ((scan source).1.map fun t => (t.kind, t.text)) ∧
      (scan (returned source)).2.map Diagnostic.problem =
        (scan source).2.map Diagnostic.problem := by
  rw [snd_scan] at h
  have same := visible_ofText_returned (closed_of_problems h)
  have plain (ls : List Lexeme) : ((tokens .start ls).map fun t => (t.kind, t.text)) =
      (bare (visible ls)).map fun t => (t.kind, t.text) := by
    rw [bare_visible, ← map_unplaced_tokens .start, List.map_map]
    exact List.map_congr_left fun t _ => by simp
  constructor
  · simp only [fst_scan, body_returned, List.map_append, plain, same]
    rfl
  · simp only [snd_scan, body_returned, map_problem_problems]
    rw [← flatMap_faults_visible, same, flatMap_faults_visible]

/-- Behind a dash, a comment and a blank line a carriage return is no more than a blank. -/
theorem scan_returned_dash :
    (∀ d ∈ (scan "[\"\\q\"] -\n\n\tb // c\n-").2, d.problem ≠ .unterminatedString) ∧
      ((scan "[\"\\q\"] -\r\n\r\n\tb // c\r\n-").1.map fun t => (t.kind, t.text)) =
        [(.indent 0, ""), (.openBracket, "["), (.str "\\q", "\"\\q\""), (.closeBracket, "]"),
          (.newline, "\n"), (.indent 4, ""), (.ident "b", "b"), (.newline, "\n"), (.indent 0, ""),
          (.eof, "")] ∧
      (scan "[\"\\q\"] -\r\n\r\n\tb // c\r\n-").2.map Diagnostic.problem =
        [.unknownEscape 'q', .illegalCharacter '-', .illegalCharacter '-'] := by
  have closed : ∀ d ∈ (scan "[\"\\q\"] -\n\n\tb // c\n-").2,
      d.problem ≠ .unterminatedString := by decide +kernel
  have text : returned "[\"\\q\"] -\n\n\tb // c\n-" = "[\"\\q\"] -\r\n\r\n\tb // c\r\n-" := by
    decide +kernel
  obtain ⟨tokens, problems⟩ := scan_returned _ closed
  rw [text] at tokens problems
  refine ⟨closed, tokens.trans ?_, problems.trans ?_⟩
  · decide +kernel
  · decide +kernel

end Token

end Wireframe
