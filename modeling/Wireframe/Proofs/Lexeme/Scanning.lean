import Wireframe.Proofs.Lexeme.Scanners

/-!
# Scanning is line by line

In a line a turn of the scanner reads or passes over the lexeme that comes next (`scan_first`), so
the lexemes of the line are scanned one after the other (`scan_inLine`). At the start of a line it
finds whether the line has content, and a line comes to its lexemes and what its end comes to,
whatever is below (`scan_line`). So what is scanned of a text are the tokens and the problems of its
lexemes (`scan_eq`).
-/

namespace Wireframe

namespace Cursor

open Lexeme (inWord_of_beginsWord inWord_of_isDigit inWord_takeWhile isSpacing isIndentation
  isComment inWord beginsWord startsWord symbol? first)

variable {place : Location} {tail cs : List Char} {c : Char}

/-! ## Tokens -/

/-- What the scanners read of a word that `c` and `cs` begin with. -/
def wordOf (c : Char) (cs tail : List Char) (place : Location) : Token × Cursor :=
  (⟨Lexeme.wordKind (c :: cs.takeWhile inWord), String.ofList (c :: cs.takeWhile inWord), place⟩,
    ⟨cs.dropWhile inWord ++ tail, place.advance (c :: cs.takeWhile inWord)⟩)

theorem cons_append_eq (c : Char) (cs tail : List Char) : c :: cs ++ tail =
    c :: cs.takeWhile inWord ++ (cs.dropWhile inWord ++ tail) := by
  simp only [List.cons_append, ← List.append_assoc, List.takeWhile_append_dropWhile]

/-- What a word goes on with is told by the next character. -/
theorem any_takeWhile_inWord :
    (cs.takeWhile inWord).head?.any Char.isDigit = cs.head?.any Char.isDigit := by
  cases cs with
  | nil => rfl
  | cons d cs =>
    rw [List.takeWhile_cons]
    split
    · rfl
    next other =>
      have ends : (d :: cs).head?.any inWord = false := Bool.eq_false_iff.mpr other
      exact (isDigit_head ends).symm

theorem inWord_head (h : cs.head?.any Char.isDigit = true) : cs.head?.any inWord = true := by
  cases cs with
  | nil => cases h
  | cons d cs => exact inWord_of_isDigit h

theorem isComment_cons (c : Char) (cs : List Char) :
    isComment (c :: cs) = (decide (c = '/') && cs.head?.any (· = '/')) := by
  unfold isComment
  split
  next h =>
    cases h
    rfl
  next other =>
    symm
    rw [Bool.and_eq_false_imp]
    intro slash
    obtain rfl := of_decide_eq_true slash
    cases cs with
    | nil => rfl
    | cons d cs => exact decide_eq_false fun h => other cs (by rw [h])

section

variable (ht : Ends tail)

include ht

theorem any_head? {p : Char → Bool} (hp : p '\n' = false) (cs : List Char) :
    (cs ++ tail).head?.any p = cs.head?.any p := by
  cases cs with
  | nil => exact ht.any hp
  | cons c cs => rfl

theorem inWord_behind : (cs.dropWhile inWord ++ tail).head?.any inWord = false :=
  head?_dropWhile_append cs (ht.any (by decide))

theorem number_word (digit : c.isDigit = true) :
    number ⟨c :: cs ++ tail, place⟩ = wordOf c cs tail place := by
  have begins : BeginsNumber [] (c :: cs.takeWhile inWord) := ⟨.inl rfl, digit⟩
  have read :
      number ⟨[] ++ c :: cs.takeWhile inWord ++ (cs.dropWhile inWord ++ tail), place⟩ = _ :=
    number_eq begins (inWord_takeWhile (inWord_of_isDigit digit)) (inWord_behind ht)
  rw [List.nil_append] at read
  rw [cons_append_eq, read]
  rfl

theorem number_dash (digit : cs.head?.any Char.isDigit = true) :
    number ⟨'-' :: cs ++ tail, place⟩ = wordOf '-' cs tail place := by
  have begins : BeginsNumber ['-'] (cs.takeWhile inWord) :=
    ⟨.inr rfl, any_takeWhile_inWord.trans digit⟩
  have read : number ⟨['-'] ++ cs.takeWhile inWord ++ (cs.dropWhile inWord ++ tail), place⟩ = _ :=
    number_eq begins (fun _ hd => List.mem_takeWhile_imp hd) (inWord_behind ht)
  rw [List.singleton_append] at read
  rw [cons_append_eq, read]
  rfl

theorem name_word (hc : inWord c = true) (plain : c.isDigit = false)
    (dash : c = '-' → cs.head?.any Char.isDigit = false) :
    name ⟨c :: cs ++ tail, place⟩ = wordOf c cs tail place := by
  have other : Lexeme.isNumber (c :: cs.takeWhile inWord) = false :=
    isNumber_of_not_digit plain fun h => any_takeWhile_inWord.trans (dash h)
  rw [cons_append_eq, name_eq (inWord_takeWhile hc) (inWord_behind ht) other]
  rfl

theorem any_peekNext {p : Char → Bool} (hp : p '\n' = false) (c : Char) (cs : List Char) :
    (peekNext ⟨c :: cs ++ tail, place⟩).any p = cs.head?.any p :=
  any_head? ht hp cs

/-- Whichever scanner its first characters pick, a word is read whole. -/
theorem readToken_word (starts : startsWord c cs.head? = true) (symbol : symbol? c = none)
    (quote : c ≠ '"') :
    readToken ⟨c :: cs ++ tail, place⟩ c = .token (wordOf c cs tail place) := by
  rw [readToken, symbol]
  dsimp only
  rw [if_neg quote, any_peekNext ht (by decide), any_peekNext ht (by decide)]
  split
  next h =>
    obtain ⟨rfl, digit⟩ := h
    rw [number_dash ht digit]
  next other =>
  have dash : c = '-' → cs.head?.any Char.isDigit = false :=
    fun h => Bool.eq_false_iff.mpr fun digit => other ⟨h, digit⟩
  split
  next h => rw [name_word ht (by rw [h.1]; decide) (by rw [h.1]; decide) dash]
  next lone =>
  split
  next digit => rw [number_word ht digit]
  next plain =>
  have plain := Bool.eq_false_iff.mpr plain
  have begins : beginsWord c = true := by
    simpa [startsWord, plain, lone] using starts
  rw [if_pos begins, name_word ht (inWord_of_beginsWord begins) plain dash]

/-- What a turn reads of a lexeme that has `rest` behind it. -/
def Turn.of (l : Lexeme) (place : Location) (rest : List Char) : Turn :=
  .read (l.kind?.map (⟨·, String.ofList l.text, place⟩)) (l.diagnostics place) false
    ⟨rest, place.advance l.text⟩

theorem readToken_first (line : '\n' ∉ c :: cs) (spacing : isSpacing c = false)
    (comment : isComment (c :: cs) = false) :
    readToken ⟨c :: cs ++ tail, place⟩ c =
      .of (first c cs) place (cs.drop ((first c cs).text.length - 1) ++ tail) := by
  have newline : c ≠ '\n' := fun h => line (h ▸ List.mem_cons_self)
  have nocomment : ¬(c = '/' ∧ cs.head? = some '/') := by
    rintro ⟨rfl, h⟩
    obtain ⟨more, rfl⟩ := List.head?_eq_some_iff.mp h
    cases comment
  have passed : advance ⟨c :: cs ++ tail, place⟩ = ⟨cs ++ tail, place.step c⟩ := advance_cons newline
  rw [first, if_neg (by simp [spacing]), if_neg nocomment]
  cases symbol : symbol? c with
  | some kind =>
    rw [readToken, symbol]
    dsimp only
    rw [single, passed]
    rfl
  | none =>
    dsimp only
    by_cases quote : c = '"'
    · subst quote
      rw [if_pos rfl]
      have string : string ⟨'"' :: cs ++ tail, place⟩ = _ :=
        string_eq ht (fun h => line (List.mem_cons_of_mem _ h)) rfl
          (Quoted.Starts.drop (Lexeme.starts_first '"' cs)).symm
      rw [readToken, symbol]
      dsimp only
      rw [if_pos rfl, string]
      rfl
    rw [if_neg quote]
    by_cases starts : startsWord c cs.head? = true
    · rw [if_pos starts, readToken_word ht starts symbol quote, Turn.of, Lexeme.text,
        List.length_cons, Nat.add_sub_cancel, drop_takeWhile]
      rfl
    · rw [if_neg starts, readToken, symbol]
      dsimp only
      simp only [startsWord, Bool.or_eq_true, Bool.and_eq_true, decide_eq_true_eq, not_or]
        at starts
      obtain ⟨⟨begins, digit⟩, dash⟩ := starts
      rw [if_neg quote, any_peekNext ht (by decide), any_peekNext ht (by decide),
        if_neg fun h => dash ⟨h.1, inWord_head h.2⟩, if_neg dash, if_neg digit, if_neg begins, passed]
      rfl

/-! ## Turns in a line -/

omit ht in
theorem skipSpacing_of_head {cs : List Char} (h : cs.head?.any isSpacing = false) :
    skipSpacing ⟨cs, place⟩ = ⟨cs, place⟩ := by
  have run : run ⟨[] ++ cs, place⟩ isSpacing = _ := run_append (by decide) (by simp) h
  rw [List.nil_append] at run
  rw [skipSpacing, run]
  rfl

omit ht in
theorem skipComment_of_not {cs : List Char} (h : isComment cs = false) :
    skipComment ⟨cs, place⟩ = ⟨cs, place⟩ :=
  if_neg (by simp [h])

theorem isComment_append (cs : List Char) : isComment (cs ++ tail) = isComment cs := by
  cases cs with
  | nil => obtain rfl | ⟨next, rfl⟩ := ht.cases <;> rfl
  | cons c cs => rw [List.cons_append, isComment_cons, isComment_cons, any_head? ht (by decide)]

theorem skipComment_line (line : '\n' ∉ cs) (comment : isComment cs = true) :
    skipComment ⟨cs ++ tail, place⟩ = ⟨tail, place.advance cs⟩ := by
  have all : ∀ d ∈ cs, (decide (d ≠ '\n')) = true :=
    fun d hd => decide_eq_true fun h => line (h ▸ hd)
  have run : run ⟨cs ++ tail, place⟩ (· ≠ '\n') = _ := run_append (by decide) all ht
  rw [skipComment, if_pos ((isComment_append ht cs).trans comment), run]

theorem skip_ends : (skipSpacing ⟨tail, place⟩).skipComment = ⟨tail, place⟩ := by
  have nocomment : isComment tail = false := isComment_append ht []
  rw [skipSpacing_of_head (ht.any (by decide)), skipComment_of_not nocomment]

/-- What is passed over before a turn has no other part in it. -/
theorem turn_blanks (spacing : isSpacing c = true) :
    turn ⟨c :: cs ++ tail, place⟩ =
      turn ⟨cs.dropWhile isSpacing ++ tail, place.advance (c :: cs.takeWhile isSpacing)⟩ := by
  have run : run ⟨c :: cs ++ tail, place⟩ isSpacing = _ :=
    run_takeWhile (by decide) (c :: cs) (ht.any (by decide))
  have behind : (cs.dropWhile isSpacing ++ tail).head?.any isSpacing = false :=
    head?_dropWhile_append cs (ht.any (by decide))
  rw [List.takeWhile_cons_of_pos spacing, List.dropWhile_cons_of_pos spacing] at run
  rw [turn, skipSpacing, run, turn, skipSpacing_of_head behind]

theorem turn_comment (line : '\n' ∉ cs) (comment : isComment cs = true) :
    turn ⟨cs ++ tail, place⟩ = turn ⟨tail, place.advance cs⟩ := by
  have slash : cs.head? = some '/' := by
    unfold isComment at comment
    split at comment
    · rfl
    · cases comment
  have spacing : (cs ++ tail).head?.any isSpacing = false := by
    rw [any_head? ht (by decide), slash]
    decide
  rw [turn, skipSpacing_of_head spacing, skipComment_line ht line comment, turn, skip_ends ht]

theorem turn_token (line : '\n' ∉ c :: cs) (spacing : isSpacing c = false)
    (comment : isComment (c :: cs) = false) :
    turn ⟨c :: cs ++ tail, place⟩ =
      .of (first c cs) place (cs.drop ((first c cs).text.length - 1) ++ tail) := by
  have newline : c ≠ '\n' := fun h => line (h ▸ List.mem_cons_self)
  have behind : (c :: cs ++ tail).head?.any isSpacing = false := spacing
  rw [turn, skipSpacing_of_head behind, skipComment_of_not ((isComment_append ht _).trans comment)]
  rw [← readToken_first ht line spacing comment]
  dsimp only
  split
  next h => cases h
  next h => exact absurd (Option.some.inj h) newline
  next d _ h =>
    obtain rfl : c = d := Option.some.inj h
    rfl

/-! ## Lines -/

/-- What is scanned of lexemes in front of what else is scanned. -/
def found (place : Location) (ls : List Lexeme) (more : List Token × List Diagnostic) :
    List Token × List Diagnostic :=
  (Lexeme.tokens place ls ++ more.1, Lexeme.problems place ls ++ more.2)

omit ht in
theorem scan_of_ended {k : Cursor} {lineStart : Bool} (h : k.next lineStart = .ended place) :
    scan lineStart k = ([Token.eofAt place], []) := by
  rw [scan]
  split
  next h' =>
    cases h.symm.trans h'
    rfl
  next h' => cases h.symm.trans h'

omit ht in
theorem scan_of_read {k k' : Cursor} {lineStart again : Bool} {t : Option Token}
    {problems : List Diagnostic} (h : k.next lineStart = .read t problems again k') :
    scan lineStart k = (t.toList ++ (scan again k').1, problems ++ (scan again k').2) := by
  rw [scan]
  split
  next h' => cases h.symm.trans h'
  next h' =>
    cases h.symm.trans h'
    rfl

omit ht in
/-- What is scanned is what the next turn comes to. -/
theorem scan_congr {k k' : Cursor} {lineStart lineStart' : Bool}
    (h : k.next lineStart = k'.next lineStart') : scan lineStart k = scan lineStart' k' := by
  cases turn : k'.next lineStart' with
  | ended place => rw [scan_of_ended (h.trans turn), scan_of_ended turn]
  | read => rw [scan_of_read (h.trans turn), scan_of_read turn]

/-- The next lexeme of a line is read, or passed over on the way to the next turn. -/
theorem scan_first (line : '\n' ∉ c :: cs) :
    scan false ⟨c :: cs ++ tail, place⟩ = found place [first c cs]
      (scan false ⟨cs.drop ((first c cs).text.length - 1) ++ tail,
        place.advance (first c cs).text⟩) := by
  cases spacing : isSpacing c with
  | true =>
    have lexeme : first c cs = .blanks (c :: cs.takeWhile isSpacing) := if_pos spacing
    rw [lexeme, Lexeme.text, List.length_cons, Nat.add_sub_cancel, drop_takeWhile]
    exact scan_congr (turn_blanks ht spacing)
  | false =>
    cases comment : isComment (c :: cs) with
    | true =>
      have slashes := (isComment_cons c cs).symm.trans comment
      have lexeme : first c cs = .comment (c :: cs) := by
        simp only [Bool.and_eq_true, decide_eq_true_eq, Option.any_eq_true] at slashes
        obtain ⟨rfl, d, hd, rfl⟩ := slashes
        rw [first, if_neg (by decide), if_pos ⟨rfl, hd⟩]
      rw [lexeme, Lexeme.text, List.length_cons, Nat.add_sub_cancel, List.drop_length]
      exact scan_congr (turn_comment ht line comment)
    | false =>
      have read : (⟨c :: cs ++ tail, place⟩ : Cursor).next false = .read _ _ _ _ :=
        turn_token ht line spacing comment
      rw [scan_of_read read]
      simp [found, Lexeme.tokens, Lexeme.problems]

/-- The lexemes of a line are scanned one after the other, whatever is behind the line. -/
theorem scan_inLine (line : '\n' ∉ cs) :
    scan false ⟨cs ++ tail, place⟩ =
      found place (Lexeme.inLine cs) (scan false ⟨tail, place.advance cs⟩) := by
  fun_induction Lexeme.inLine cs generalizing place with
  | case1 => rfl
  | case2 c cs l =>
    rename_i ih
    have below : '\n' ∉ cs.drop (l.text.length - 1) :=
      fun hm => line (List.mem_cons_of_mem c (List.mem_of_mem_drop hm))
    have rest : scan false ⟨cs.drop (l.text.length - 1) ++ tail, place.advance l.text⟩ = _ :=
      ih below
    rw [← Location.advance_append, (Lexeme.starts_first c cs).drop] at rest
    rw [scan_first ht line, rest]
    simp [found, Lexeme.tokens, Lexeme.problems, l]

/-- What is scanned behind a line. -/
def below (content : Bool) (place : Location) : List Char → List Token × List Diagnostic
  | [] => ([Token.eofAt place], [])
  | _ :: after =>
    let more := scan true ⟨after, place.step '\n'⟩
    (Lexeme.lineEndTokens place content ++ more.1, more.2)

theorem scan_ends : scan false ⟨tail, place⟩ = below true place tail := by
  obtain rfl | ⟨after, rfl⟩ := ht.cases
  · exact scan_of_ended rfl
  · have read : (⟨'\n' :: after, place⟩ : Cursor).next false =
        .read (some ⟨.newline, "\n", place⟩) [] true ⟨after, place.step '\n'⟩ := rfl
    rw [scan_of_read read]
    rfl

/-- The turn at the start of a line without content goes on below the line. -/
theorem scan_blank (line : '\n' ∉ cs)
    (h : cs.dropWhile isIndentation = [] ∨ isComment (cs.dropWhile isIndentation) = true) :
    scan true ⟨cs ++ tail, place⟩ = below false (place.advance cs) tail := by
  have parts := List.takeWhile_append_dropWhile (p := isIndentation) (l := cs)
  have lead : run ⟨cs ++ tail, place⟩ isIndentation = _ :=
    run_takeWhile (by decide) cs (ht.any (by decide))
  have skipped :
      skipComment ⟨cs.dropWhile isIndentation ++ tail,
        place.advance (cs.takeWhile isIndentation)⟩ = ⟨tail, place.advance cs⟩ := by
    obtain empty | comment := h
    · rw [empty, List.append_nil] at parts
      rw [empty, parts]
      exact skipComment_of_not (isComment_append ht [])
    · have inside : '\n' ∉ cs.dropWhile isIndentation :=
        fun hm => line ((List.dropWhile_suffix _).subset hm)
      have behind : skipComment ⟨cs.dropWhile isIndentation ++ tail,
          place.advance (cs.takeWhile isIndentation)⟩ = _ :=
        skipComment_line ht inside comment
      rwa [← Location.advance_append, parts] at behind
  obtain rfl | ⟨after, rfl⟩ := ht.cases
  · have turn : (⟨cs ++ [], place⟩ : Cursor).next true =
        .read none [] false ⟨[], place.advance cs⟩ := by
      simp only [next, if_true, measure, lead, skipped]
      rfl
    rw [scan_of_read turn, scan_ends ht]
    rfl
  · have turn : (⟨cs ++ '\n' :: after, place⟩ : Cursor).next true =
        .read none [] true ⟨after, (place.advance cs).step '\n'⟩ := by
      simp only [next, if_true, measure, lead, skipped]
      rfl
    rw [scan_of_read turn]
    rfl

/-- The turn at the start of a line with content reads its indentation. -/
theorem scan_content (line : '\n' ∉ cs) {more : List Char}
    (hr : cs.dropWhile isIndentation = c :: more) (comment : isComment (c :: more) = false) :
    scan true ⟨cs ++ tail, place⟩ =
      found place (Lexeme.ofLine cs) (below true (place.advance cs) tail) := by
  have parts := List.takeWhile_append_dropWhile (p := isIndentation) (l := cs)
  have inside : '\n' ∉ c :: more := fun hm => line ((hr ▸ List.dropWhile_suffix _).subset hm)
  have lead : run ⟨cs ++ tail, place⟩ isIndentation = _ :=
    run_takeWhile (by decide) cs (ht.any (by decide))
  rw [hr] at lead parts
  have kept : skipComment ⟨c :: more ++ tail, place.advance (cs.takeWhile isIndentation)⟩ =
      ⟨c :: more ++ tail, place.advance (cs.takeWhile isIndentation)⟩ :=
    skipComment_of_not ((isComment_append ht _).trans comment)
  have turn : (⟨cs ++ tail, place⟩ : Cursor).next true =
      .read (some ⟨.indent (Lexeme.indentation (cs.takeWhile isIndentation)), "", place⟩) [] false
        ⟨c :: more ++ tail, place.advance (cs.takeWhile isIndentation)⟩ := by
    simp only [next, if_true, measure, lead, kept]
    split
    next h => cases h
    next h => exact absurd (Option.some.inj h ▸ List.mem_cons_self) inside
    · rfl
  have lexemes : Lexeme.ofLine cs = .indent (Lexeme.indentation (cs.takeWhile isIndentation)) ::
      (if cs.takeWhile isIndentation = [] then [] else [.blanks (cs.takeWhile isIndentation)]) ++
        Lexeme.inLine (c :: more) := by
    unfold Lexeme.ofLine
    dsimp only
    rw [hr, if_neg (List.cons_ne_nil c more), if_neg (by simp [comment])]
  have below : scan false ⟨c :: more ++ tail, place.advance (cs.takeWhile isIndentation)⟩ = _ :=
    scan_inLine ht inside
  rw [← Location.advance_append, parts] at below
  rw [scan_of_read turn, below, scan_ends ht, lexemes]
  split
  next empty =>
    rw [empty]
    rfl
  · rfl

/-- A line is scanned by itself, up to what its end comes to. -/
theorem scan_line (line : '\n' ∉ cs) :
    scan true ⟨cs ++ tail, place⟩ = found place (Lexeme.ofLine cs)
      (below (Lexeme.hasContent (Lexeme.ofLine cs)) (place.advance cs) tail) := by
  by_cases blank : cs.dropWhile isIndentation = [] ∨ isComment (cs.dropWhile isIndentation) = true
  · have silent : ∃ ls, Lexeme.ofLine cs = ls ∧ Lexeme.hasContent ls = false ∧
        ∀ more, found place ls more = more := by
      refine ⟨_, rfl, ?_⟩
      unfold Lexeme.ofLine
      dsimp only
      obtain empty | comment := blank
      · rw [if_pos empty]
        split <;> exact ⟨rfl, fun _ => rfl⟩
      · rw [if_neg (by rintro h; rw [h] at comment; cases comment), if_pos comment]
        split <;> exact ⟨rfl, fun _ => rfl⟩
    obtain ⟨ls, hls, none, same⟩ := silent
    rw [hls, none, same, scan_blank ht line blank]
  · obtain ⟨empty, comment⟩ := not_or.mp blank
    obtain ⟨c, more, hr⟩ := List.exists_cons_of_ne_nil empty
    rw [hr] at comment
    have content : Lexeme.hasContent (Lexeme.ofLine cs) = true := by
      unfold Lexeme.ofLine
      dsimp only
      rw [if_neg empty, hr, if_neg comment]
      rfl
    rw [content, scan_content ht line hr (Bool.eq_false_iff.mpr comment)]

end

/-- A text is scanned line by line. -/
theorem scan_eq (cs : List Char) (place : Location) :
    scan true ⟨cs, place⟩ =
      found place (Lexeme.ofText cs) ([Token.eofAt (place.advance cs)], []) := by
  induction cs using Lexeme.line_induction generalizing place with
  | last line hl =>
    have scanned : scan true ⟨line ++ [], place⟩ = _ := scan_line rfl hl
    rw [List.append_nil] at scanned
    rw [scanned, Lexeme.ofText_line hl]
    rfl
  | cons line after hl ih =>
    have ends : Ends ('\n' :: after) := rfl
    rw [scan_line ends hl, Lexeme.ofText_append, Lexeme.ofText_line hl,
      Lexeme.lastLine_line hl, below, ih]
    simp only [found, Lexeme.tokens_append, Lexeme.problems_append, Lexeme.flatMap_text_ofLine,
      Lexeme.tokens, Lexeme.problems, Location.advance_append]
    cases Lexeme.hasContent (Lexeme.ofLine line) <;> simp only [List.append_assoc] <;> rfl

end Cursor

namespace Token

/-- What is scanned of a source text are the tokens and the problems of its lexemes. -/
theorem scan_eq (source : String) :
    scan source =
      (Lexeme.tokens .start (Lexeme.ofText (body source)) ++
          [eofAt (Location.start.advance (body source))],
        Lexeme.problems .start (Lexeme.ofText (body source))) := by
  rw [scan, Cursor.scan_eq, Cursor.found, List.append_nil]

theorem fst_scan (source : String) :
    (scan source).1 = Lexeme.tokens .start (Lexeme.ofText (body source)) ++
      [eofAt (Location.start.advance (body source))] := by
  rw [scan_eq]

theorem snd_scan (source : String) :
    (scan source).2 = Lexeme.problems .start (Lexeme.ofText (body source)) := by
  rw [scan_eq]

end Token

end Wireframe
