import Wireframe.Proofs.Lexeme.Quotation
import Wireframe.Proofs.Lexeme.Scanning
import Wireframe.Proofs.Outline.Shift
import Wireframe.Proofs.Runs
import Wireframe.Proofs.Text.Case

/-!
# Spelling tokens

Texts that are put together of symbols, single blanks, words and quoted texts are read as they are
meant: each piece is read up to its end because what follows does not go on with it. Tokens are
spelled without their places.
-/

namespace Wireframe

namespace Lexeme

/-- The tokens that lexemes are, without their places. -/
def bare (ls : List Lexeme) : List Token :=
  ls.filterMap fun l => l.kind?.map fun kind => ⟨kind, String.ofList l.text, .nowhere⟩

/-- Whether there is nothing wrong with lexemes, wherever they stand. -/
def Silent (ls : List Lexeme) : Prop :=
  ∀ l ∈ ls, ∀ p, l.diagnostics p = []

theorem map_unplaced_tokens (p : Location) (ls : List Lexeme) :
    (tokens p ls).map Shift.unplaced.token = bare ls := by
  induction ls generalizing p with
  | nil => rfl
  | cons l ls ih =>
    rw [tokens, List.map_append, ih, bare, bare, List.filterMap_cons]
    cases l.kind? with
    | none => rfl
    | some kind => simp

theorem problems_of_silent {ls : List Lexeme} (h : Silent ls) (p : Location) :
    problems p ls = [] := by
  induction ls generalizing p with
  | nil => rfl
  | cons l ls ih =>
    rw [problems, h l List.mem_cons_self, ih fun m hm => h m (List.mem_cons_of_mem l hm)]
    rfl

theorem Silent.append {ls ms : List Lexeme} (hl : Silent ls) (hm : Silent ms) :
    Silent (ls ++ ms) := by
  intro l h
  rcases List.mem_append.mp h with h | h
  · exact hl l h
  · exact hm l h

theorem Silent.cons {l : Lexeme} {ls : List Lexeme} (hl : ∀ p, l.diagnostics p = [])
    (hls : Silent ls) : Silent (l :: ls) := by
  intro m h
  rcases List.mem_cons.mp h with rfl | h
  · exact hl
  · exact hls m h

/-- A lexeme is read off a line in front of the rest. -/
theorem inLine_of_first {c : Char} {w rest : List Char} {l : Lexeme} (hf : first c (w ++ rest) = l)
    (hl : l.text = c :: w) : inLine (c :: (w ++ rest)) = l :: inLine rest := by
  rw [inLine, hf, hl]
  simp

/-- How tokens are spelled on a line. -/
inductive Spells : List Char → List Token → Prop
  | nil : Spells [] []
  | symbol {c kind cs ts} (hc : symbol? c = some kind) (more : Spells cs ts) :
      Spells (c :: cs) (⟨kind, String.ofList [c], .nowhere⟩ :: ts)
  | blank {cs ts} (hcs : cs.head?.any isSpacing = false) (more : Spells cs ts) :
      Spells (' ' :: cs) ts
  | word {c ws cs ts} (hc : c.isAlpha = true) (hws : ∀ d ∈ ws, inWord d = true)
      (hcs : cs.head?.any inWord = false) (more : Spells cs ts) :
      Spells (c :: (ws ++ cs)) (⟨wordKind (c :: ws), String.ofList (c :: ws), .nowhere⟩ :: ts)
  | quoted {cs ts} (s : String) (more : Spells cs ts) :
      Spells (Quoted.quoted s ++ cs) (⟨.str s, String.ofList (Quoted.quoted s), .nowhere⟩ :: ts)

theorem first_symbol {c : Char} {kind : Token.Kind} (cs : List Char)
    (h : symbol? c = some kind) : first c cs = .symbol kind c := by
  have plain : isSpacing c = false ∧ c ≠ '/' := by
    unfold symbol? at h
    split at h
    all_goals first | exact ⟨by decide, by decide⟩ | cases h
  rw [first, if_neg (by simp [plain.1]), if_neg (fun hs => plain.2 hs.1), h]

theorem first_blank {cs : List Char} (h : cs.head?.any isSpacing = false) :
    first ' ' cs = .blanks [' '] := by
  rw [first, if_pos (by decide), takeWhile_eq_nil h]

theorem ne_of_isAlpha {c d : Char} (h : c.isAlpha = true) (hd : d.isAlpha = false) : c ≠ d := by
  rintro rfl
  rw [hd] at h
  cases h

theorem isSpacing_of_isAlpha {c : Char} (h : c.isAlpha = true) : isSpacing c = false := by
  have other (d : Char) (hd : d.isAlpha = false) : c ≠ d := ne_of_isAlpha h hd
  simp [isSpacing, other ' ' (by decide), other '\t' (by decide), other '\r' (by decide),
    other '\u3000' (by decide)]

/-- A letter of ASCII begins a word and nothing else. -/
theorem first_word {c : Char} (cs : List Char) (h : c.isAlpha = true) :
    first c cs = .word (c :: cs.takeWhile inWord) := by
  have spacing := isSpacing_of_isAlpha h
  have symbol : symbol? c = none := by
    unfold symbol?
    split
    all_goals first | exact absurd rfl (ne_of_isAlpha h (by decide)) | rfl
  have ascii : c.toNat < 128 :=
    Text.ascii_of_isAlphanum (by rw [Char.isAlphanum, h, Bool.true_or])
  have begins : startsWord c cs.head? = true := by
    simp [startsWord, beginsWord, Text.isLetter, ascii, h]
  rw [first, if_neg (by simp [spacing]), if_neg (fun hs => ne_of_isAlpha h (by decide) hs.1),
    symbol]
  dsimp only
  rw [if_neg (ne_of_isAlpha h (by decide)), if_pos begins]

/-- A quote begins a string, whatever is behind it. -/
theorem first_quote (cs : List Char) :
    first '"' cs = .quoted (Quoted.scan cs).1 (Quoted.scan cs).2 :=
  rfl

theorem first_quoted (s : String) (cs : List Char) :
    first '"' (s.toList.flatMap Quoted.escaped ++ '"' :: cs) =
      .quoted (Quoted.segments s) true := by
  rw [first_quote, Quoted.scan_quoted]

theorem bare_cons (l : Lexeme) (ls : List Lexeme) : bare (l :: ls) =
    (l.kind?.map fun kind => ⟨kind, String.ofList l.text, .nowhere⟩).toList ++ bare ls := by
  rw [bare, bare, List.filterMap_cons]
  cases l.kind? <;> rfl

@[simp] theorem bare_append (ls ms : List Lexeme) : bare (ls ++ ms) = bare ls ++ bare ms :=
  List.filterMap_append

/-- What is spelled is read. -/
theorem Spells.inLine {cs : List Char} {ts : List Token} (h : Spells cs ts) :
    bare (inLine cs) = ts ∧ Silent (Lexeme.inLine cs) := by
  have read {cs : List Char} {l : Lexeme} {ls : List Lexeme} {ts : List Token}
      (he : Lexeme.inLine cs = l :: ls) (hl : ∀ p, l.diagnostics p = [])
      (more : bare ls = ts ∧ Silent ls) :
      bare (Lexeme.inLine cs) =
        (l.kind?.map fun kind => ⟨kind, String.ofList l.text, .nowhere⟩).toList ++ ts ∧
        Silent (Lexeme.inLine cs) := by
    rw [he, bare_cons, more.1]
    exact ⟨rfl, .cons hl more.2⟩
  induction h with
  | nil =>
    rw [Lexeme.inLine]
    exact ⟨rfl, fun l hl => by cases hl⟩
  | @symbol c kind cs ts hc _ ih =>
    have here := inLine_of_first (w := []) (first_symbol cs hc) rfl
    exact read here (fun _ => rfl) ih
  | @blank cs ts hcs _ ih =>
    have here := inLine_of_first (w := []) (first_blank hcs) rfl
    exact read here (fun _ => rfl) ih
  | @word c ws cs ts hc hws hcs _ ih =>
    have word : first c (ws ++ cs) = .word (c :: ws) := by
      rw [first_word _ hc, List.takeWhile_append_of_pos hws, takeWhile_eq_nil hcs, List.append_nil]
    exact read (inLine_of_first word rfl) (fun _ => rfl) ih
  | @quoted cs ts s _ ih =>
    have text : (Lexeme.quoted (Quoted.segments s) true).text = Quoted.quoted s := by
      rw [Lexeme.text, Quoted.written_segments]
      rfl
    have quote : first '"' (s.toList.flatMap Quoted.escaped ++ ['"'] ++ cs) =
        .quoted (Quoted.segments s) true := by
      rw [List.append_assoc]
      exact first_quoted s cs
    have here := read (inLine_of_first quote text) (fun p => by
      rw [diagnostics, Quoted.diagnostics_segments]
      rfl) ih
    rw [kind?, text, Quoted.value_segments, String.ofList_toList] at here
    exact here

/-- Nothing that is spelled ends its line. -/
theorem Spells.newline_not_mem {cs : List Char} {ts : List Token} (h : Spells cs ts) :
    '\n' ∉ cs := by
  induction h with
  | nil => exact List.not_mem_nil
  | @symbol c kind cs ts hc _ ih =>
    rw [List.mem_cons]
    rintro (rfl | hm)
    · cases hc
    · exact ih hm
  | blank _ _ ih => simpa using ih
  | @word c ws cs ts hc hws _ _ ih =>
    rw [List.mem_cons, List.mem_append]
    rintro (rfl | hm | hm)
    · cases hc
    · exact absurd (hws _ hm) (by decide)
    · exact ih hm
  | quoted s _ ih =>
    rw [List.mem_append]
    rintro (hm | hm)
    · exact Quoted.newline_not_mem_quoted s hm
    · exact ih hm

theorem indentation_replicate (n : Nat) : indentation (List.replicate n ' ') = n := by
  induction n with
  | zero => rfl
  | succ n ih =>
    rw [List.replicate_succ, indentation, List.foldr_cons, ← indentation, ih, Nat.add_comm]
    rfl

/-- What is spelled begins with none of the marks that a line or a text may begin with. -/
theorem Spells.begins {c : Char} {cs : List Char} {ts : List Token} (h : Spells (c :: cs) ts)
    (hc : c ≠ ' ') : isIndentation c = false ∧ c ≠ '/' ∧ c ≠ '\ufeff' := by
  have other {d : Char} (hd : isIndentation d = false ∧ d ≠ '/' ∧ d ≠ '\ufeff') (he : c = d) :
      isIndentation c = false ∧ c ≠ '/' ∧ c ≠ '\ufeff' := he ▸ hd
  generalize he : c :: cs = line at h
  cases h with
  | nil => cases he
  | symbol hs =>
    cases he
    unfold symbol? at hs
    split at hs
    all_goals first | exact other (by decide) rfl | cases hs
  | blank =>
    cases he
    exact absurd rfl hc
  | word ha =>
    cases he
    have differs (d : Char) (hd : d.isAlpha = false) : c ≠ d := ne_of_isAlpha ha hd
    refine ⟨?_, differs '/' (by decide), differs '\ufeff' (by decide)⟩
    simp [isIndentation, hc, differs '\t' (by decide), differs '\r' (by decide)]
  | quoted s =>
    rw [Quoted.quoted, List.cons_append] at he
    exact other (by decide) (List.cons.inj he).1

def newlineToken : Token :=
  ⟨.newline, String.ofList ['\n'], .nowhere⟩

def indentToken (width : Nat) : Token :=
  ⟨.indent width, String.ofList [], .nowhere⟩

/-- How whole lines are spelled, each behind the end of the line before it. -/
inductive SpelledLines : List (List Char) → List Token → Prop
  | nil : SpelledLines [] []
  | cons {c cs ts lines us} (width : Nat) (hc : c ≠ ' ') (line : Spells (c :: cs) ts)
      (more : SpelledLines lines us) :
      SpelledLines ((List.replicate width ' ' ++ c :: cs) :: lines)
        (newlineToken :: indentToken width :: (ts ++ us))

theorem SpelledLines.append {ls ms : List (List Char)} {ts us : List Token}
    (hl : SpelledLines ls ts) (hm : SpelledLines ms us) : SpelledLines (ls ++ ms) (ts ++ us) := by
  induction hl with
  | nil => exact hm
  | cons width hc line _ ih =>
    rw [List.cons_append, List.cons_append, List.cons_append, List.append_assoc]
    exact .cons width hc line ih

theorem Spells.ofLine {c : Char} {cs : List Char} {ts : List Token} (h : Spells (c :: cs) ts)
    (hc : c ≠ ' ') (width : Nat) :
    bare (ofLine (List.replicate width ' ' ++ c :: cs)) = indentToken width :: ts ∧
      Silent (Lexeme.ofLine (List.replicate width ' ' ++ c :: cs)) ∧
      hasContent (Lexeme.ofLine (List.replicate width ' ' ++ c :: cs)) = true := by
  obtain ⟨notIndentation, notSlash, _⟩ := h.begins hc
  have blanks : ∀ d ∈ List.replicate width ' ', isIndentation d = true := by
    intro d hd
    rw [List.eq_of_mem_replicate hd]
    rfl
  have lead : (List.replicate width ' ' ++ c :: cs).takeWhile isIndentation =
      List.replicate width ' ' := by
    rw [List.takeWhile_append_of_pos blanks, takeWhile_eq_nil (by simpa using notIndentation),
      List.append_nil]
  have rest : (List.replicate width ' ' ++ c :: cs).dropWhile isIndentation = c :: cs := by
    rw [List.dropWhile_append_of_pos blanks, List.dropWhile_cons_of_neg (by simp [notIndentation])]
  have noComment : isComment (c :: cs) = false := by
    unfold isComment
    split
    next he => exact absurd (List.cons.inj he).1 notSlash
    · rfl
  obtain ⟨tokens, silent⟩ := h.inLine
  rw [Lexeme.ofLine, lead, rest, indentation_replicate]
  simp only [noComment, reduceCtorEq, if_false, Bool.false_eq_true]
  split
  · exact ⟨congrArg _ tokens, .cons (fun _ => rfl) silent, rfl⟩
  · exact ⟨congrArg _ tokens, .cons (fun _ => rfl) (.cons (fun _ => rfl) silent), rfl⟩

theorem SpelledLines.ofLines {lines : List (List Char)} {ts : List Token}
    (h : SpelledLines lines ts) (hl : lines ≠ []) :
    newlineToken :: bare (ofLines lines) = ts ∧ Silent (ofLines lines) := by
  induction h with
  | nil => exact absurd rfl hl
  | @cons c cs ts lines us width hc line more ih =>
    obtain ⟨tokens, silent, content⟩ := line.ofLine hc width
    cases more with
    | nil =>
      rw [Lexeme.ofLines, tokens, List.append_nil]
      exact ⟨rfl, silent⟩
    | @cons d ds vs lines us width' hd line' more =>
      obtain ⟨later, silent'⟩ := ih (by simp)
      rw [Lexeme.ofLines, content, bare_append, tokens, bare_cons, ← later]
      · exact ⟨rfl, silent.append (.cons (fun _ => rfl) silent')⟩
      · simp

theorem SpelledLines.newline_not_mem {lines : List (List Char)} {ts : List Token}
    (h : SpelledLines lines ts) : ∀ line ∈ lines, '\n' ∉ line := by
  induction h with
  | nil => simp
  | @cons c cs ts lines us width hc line _ ih =>
    intro l hl
    rcases List.mem_cons.mp hl with rfl | hl
    · rw [List.mem_append, not_or]
      exact ⟨fun hm => absurd (List.eq_of_mem_replicate hm) (by decide), line.newline_not_mem⟩
    · exact ih l hl

/-- Lines that are spelled are the lines of their text. -/
theorem SpelledLines.split {lines : List (List Char)} {ts : List Token}
    (h : SpelledLines lines ts) (hl : lines ≠ []) :
    splitWhere (· = '\n') (['\n'].intercalate lines) = lines := by
  refine splitWhere_intercalate (by decide) hl fun line hm c hc => ?_
  refine decide_eq_false ?_
  rintro rfl
  exact h.newline_not_mem line hm hc

end Lexeme

namespace Token

open Lexeme

/-- The tokens of a text whose lines are spelled, and that nothing is wrong with it. -/
theorem scan_of_spelled {lines : List (List Char)} {ts : List Token} (h : SpelledLines lines ts)
    (hl : lines ≠ []) :
    newlineToken :: (scan (String.ofList (['\n'].intercalate lines))).1.map
        Shift.unplaced.token = ts ++ [eofAt .nowhere] ∧
      (scan (String.ofList (['\n'].intercalate lines))).2 = [] := by
  have body_eq : body (String.ofList (['\n'].intercalate lines)) = ['\n'].intercalate lines := by
    cases h with
    | nil => exact absurd rfl hl
    | @cons c cs ts lines us width hc line more =>
      have first : ∃ d ds, d ≠ '\ufeff' ∧
          ['\n'].intercalate ((List.replicate width ' ' ++ c :: cs) :: lines) = d :: ds := by
        have begins := (line.begins hc).2.2
        cases width <;> cases lines <;>
          simp [List.replicate_succ, List.intercalate, begins]
      obtain ⟨d, ds, hd, he⟩ := first
      rw [body, he, String.toList_ofList]
      split
      next heq => exact absurd (List.cons.inj heq).1 hd
      · rfl
  have text : ofText (['\n'].intercalate lines) = ofLines lines := by
    rw [ofText, h.split hl]
  obtain ⟨tokens, silent⟩ := h.ofLines hl
  simp only [Token.scan_eq, body_eq, text, List.map_append, map_unplaced_tokens]
  rw [← tokens]
  exact ⟨rfl, problems_of_silent silent .start⟩

end Token

end Wireframe
