import Mathlib.Data.List.TakeWhile
import Wireframe.Lexeme.Cursor
import Wireframe.Proofs.Lexeme.Tiling
import Wireframe.Proofs.Runs
import Wireframe.Proofs.Text.Case

/-!
# Scanners of tokens

A scanner reads the whole token: a word up to the character that could not go on with it, by
whichever of the two scanners its first characters pick (`number_eq`, `name_eq`), and a string up
to its closing quote or the end of the line, which no escape gets past (`string_eq`). So no token
goes on behind its line, and what is behind the line has no say in what is read of it.
-/

namespace Wireframe

namespace Location

theorem past_of_ne {c : Char} (h : c ≠ '\n') (p : Location) : p.past c = p.step c := by
  rw [past, step, if_neg h, if_neg h]

end Location

namespace Lexeme

theorem inWord_of_isAlphanum {c : Char} (h : c.isAlphanum = true) : inWord c = true := by
  have ascii := Text.ascii_of_isAlphanum h
  rw [Char.isAlphanum, Bool.or_eq_true] at h
  rcases h with h | h <;> simp [inWord, Text.isLetter, Text.isNumeral, ascii, h]

theorem inWord_of_isDigit {c : Char} (h : c.isDigit = true) : inWord c = true :=
  inWord_of_isAlphanum (by rw [Char.isAlphanum, h, Bool.or_true])

theorem inWord_takeWhile {c : Char} {cs : List Char} (hc : inWord c = true) :
    ∀ d ∈ c :: cs.takeWhile inWord, inWord d = true :=
  List.forall_mem_cons.mpr ⟨hc, fun _ hd => List.mem_takeWhile_imp hd⟩

end Lexeme

namespace Cursor

open Lexeme (inWord_of_isDigit isSpacing isIndentation isComment inWord beginsWord symbol?
  isNumber wordKind)

/-- Whether the end of a line or of the text comes next. -/
def Ends (tail : List Char) : Prop :=
  tail.head?.any (· ≠ '\n') = false

variable {p : Char → Bool} {tail : List Char} {place : Location}

theorem Ends.cases (h : Ends tail) : tail = [] ∨ ∃ next, tail = '\n' :: next := by
  cases tail with
  | nil => exact .inl rfl
  | cons c cs =>
    have hc : c = '\n' := by simpa [Ends] using h
    exact .inr ⟨cs, by rw [hc]⟩

theorem Ends.any (h : Ends tail) (hp : p '\n' = false) : tail.head?.any p = false := by
  obtain rfl | ⟨next, rfl⟩ := h.cases
  · rfl
  · exact hp

theorem advance_cons {c : Char} {cs : List Char} (hc : c ≠ '\n') :
    advance ⟨c :: cs, place⟩ = ⟨cs, place.step c⟩ := by
  rw [← Location.past_of_ne hc]
  rfl

/-- A run that stops at the end of a line can be counted by the column. -/
theorem runFrom_eq (hp : p '\n' = false) (n : Nat) (cs : List Char) (place : Location) :
    runFrom p n cs place = ((cs.take n).takeWhile p,
      ⟨cs.drop ((cs.take n).takeWhile p).length, place.advance ((cs.take n).takeWhile p)⟩) := by
  induction n generalizing cs place with
  | zero => rfl
  | succ n ih =>
    cases cs with
    | nil => rfl
    | cons c cs =>
      rw [runFrom, List.take_succ_cons]
      split
      next hc =>
        have line : c ≠ '\n' := fun e => by rw [e, hp] at hc; cases hc
        rw [ih, List.takeWhile_cons_of_pos hc, Location.past_of_ne line]
        rfl
      next hc =>
        rw [List.takeWhile_cons_of_neg hc]
        rfl

theorem run_append (hp : p '\n' = false) {text rest : List Char} (ht : ∀ c ∈ text, p c = true)
    (hr : rest.head?.any p = false) :
    run ⟨text ++ rest, place⟩ p = (text, ⟨rest, place.advance text⟩) := by
  rw [run, runUpTo, runFrom_eq hp, List.take_length, (takeWhile_run rest ht hr).1, List.drop_left]

theorem run_takeWhile (hp : p '\n' = false) (cs : List Char) {rest : List Char}
    (hr : rest.head?.any p = false) :
    run ⟨cs ++ rest, place⟩ p =
      (cs.takeWhile p, ⟨cs.dropWhile p ++ rest, place.advance (cs.takeWhile p)⟩) := by
  have parts := List.takeWhile_append_dropWhile (p := p) (l := cs)
  have stops := head?_dropWhile_append cs hr
  have all : ∀ c ∈ cs.takeWhile p, p c = true := fun c hc => List.mem_takeWhile_imp hc
  have run : run ⟨cs.takeWhile p ++ (cs.dropWhile p ++ rest), place⟩ p = _ :=
    run_append hp all stops
  rwa [← List.append_assoc, parts] at run

/-! ## Words -/

/-- What does not go on with a word does not go on with digits. -/
theorem isDigit_head {rest : List Char} (hr : rest.head?.any inWord = false) :
    rest.head?.any Char.isDigit = false := by
  cases rest with
  | nil => rfl
  | cons c cs =>
    refine Bool.eq_false_iff.mpr fun digit => ?_
    rw [List.head?_cons, Option.any_some, inWord_of_isDigit digit] at hr
    cases hr

/-- Whether a word that has begun with digits is a number if it goes on like this. -/
def endsNumber : List Char → Bool
  | [] => true
  | '.' :: ds => !ds.isEmpty && ds.all Char.isDigit
  | _ => false

/-- A word goes on as a number exactly when nothing is left of it behind a point and digits. -/
theorem exists_fraction (v : List Char) {rest : List Char} (hr : rest.head?.any inWord = false) :
    ∃ f w, v = f ++ w ∧ (w = [] ↔ endsNumber v = true) ∧
      ∀ place, fraction ⟨v ++ rest, place⟩ = (f, ⟨w ++ rest, place.advance f⟩) := by
  have nothing {v : List Char} (h : ¬((v ++ rest).head? = some '.' ∧
      (v ++ rest).tail.head?.any Char.isDigit = true)) (place : Location) :
      fraction ⟨v ++ rest, place⟩ = ([], ⟨v ++ rest, place⟩) :=
    if_neg h
  have stops := isDigit_head hr
  rcases v with _ | ⟨c, v⟩
  · refine ⟨[], [], rfl, by simp [endsNumber], nothing fun h => ?_⟩
    rw [List.nil_append] at h
    rw [h.1] at hr
    cases hr
  by_cases point : c = '.'
  · subst point
    rcases v with _ | ⟨d, v⟩
    · exact ⟨[], ['.'], rfl, by simp [endsNumber], nothing (by simp [stops])⟩
    by_cases digit : d.isDigit = true
    · have parts := List.takeWhile_append_dropWhile (p := Char.isDigit) (l := d :: v)
      refine ⟨'.' :: (d :: v).takeWhile Char.isDigit, (d :: v).dropWhile Char.isDigit, ?_, ?_, ?_⟩
      · rw [List.cons_append, parts]
      · simp [endsNumber, List.dropWhile_eq_nil_iff]
      · intro place
        have digits : run ⟨d :: v ++ rest, place.past '.'⟩ Char.isDigit = _ :=
          run_takeWhile (by decide) (d :: v) stops
        have opened : advance ⟨'.' :: (d :: v) ++ rest, place⟩ =
            ⟨d :: v ++ rest, place.past '.'⟩ := rfl
        rw [fraction, if_pos ⟨rfl, by simpa [peekNext] using digit⟩, opened, digits]
        rfl
    · refine ⟨[], '.' :: d :: v, rfl, by simp [endsNumber, digit], nothing (by simp [digit])⟩
  · refine ⟨[], c :: v, rfl, ?_, nothing fun h => point (Option.some.inj h.1)⟩
    simp [endsNumber, point]

/-- What begins with a digit, or with a dash and a digit. -/
structure BeginsNumber (dash u : List Char) : Prop where
  dash : dash = [] ∨ dash = ['-']
  digit : u.head?.any Char.isDigit = true

section

variable {dash u rest : List Char} (h : BeginsNumber dash u)

include h

theorem BeginsNumber.isNumber_eq_endsNumber :
    isNumber (dash ++ u) = endsNumber (u.dropWhile Char.isDigit) := by
  obtain ⟨hd, digit⟩ := h
  obtain ⟨d, more, rfl⟩ : ∃ d more, u = d :: more := by
    cases u with
    | nil => cases digit
    | cons d more => exact ⟨d, more, rfl⟩
  have digit : d.isDigit = true := digit
  have body : isNumber (dash ++ d :: more) =
      (!((d :: more).takeWhile Char.isDigit).isEmpty &&
        endsNumber ((d :: more).dropWhile Char.isDigit)) := by
    obtain rfl | rfl := hd
    · unfold isNumber
      split
      next he =>
        obtain rfl := (List.cons.inj he).1
        cases digit
      · rfl
    · rfl
  rw [body, List.takeWhile_cons_of_pos digit]
  rfl

/-- What begins like a number is no keyword. -/
theorem BeginsNumber.wordKind_eq : wordKind (dash ++ u) =
    if isNumber (dash ++ u) then numberKind (dash ++ u) else .ident (String.ofList (dash ++ u)) := by
  have other {c : Char} {cs : List Char} (hc : c ≠ '-') (hd : c.isDigit = false) :
      dash ++ u ≠ c :: cs := by
    obtain ⟨rfl | rfl, digit⟩ := h
    · rintro rfl
      rw [List.head?_cons, Option.any_some, hd] at digit
      cases digit
    · exact fun he => hc (List.cons.inj he).1.symm
  have attr : dash ++ u ≠ "ATTR".toList := other (by decide) (by decide)
  have content : dash ++ u ≠ "CONTENT".toList := other (by decide) (by decide)
  rw [wordKind, if_neg attr, if_neg content]
  cases isNumber (dash ++ u) <;> rfl

theorem optional_dash :
    optional ⟨dash ++ u ++ rest, place⟩ '-' = (dash, ⟨u ++ rest, place.advance dash⟩) := by
  obtain ⟨rfl | rfl, digit⟩ := h
  · refine if_neg fun hd => ?_
    cases u with
    | nil => cases digit
    | cons d more =>
      obtain rfl : d = '-' := Option.some.inj hd
      cases digit
  · rfl

/-- The scanner of numbers reads the whole word, and tells numbers from names. -/
theorem number_eq (hu : ∀ c ∈ u, inWord c = true) (hr : rest.head?.any inWord = false) :
    number ⟨dash ++ u ++ rest, place⟩ =
      (⟨wordKind (dash ++ u), String.ofList (dash ++ u), place⟩,
        ⟨rest, place.advance (dash ++ u)⟩) := by
  have whole : run ⟨u ++ rest, place.advance dash⟩ Char.isDigit = _ :=
    run_takeWhile (by decide) u (isDigit_head hr)
  have parts := List.takeWhile_append_dropWhile (p := Char.isDigit) (l := u)
  obtain ⟨f, w, hv, hw, fraction⟩ := exists_fraction (u.dropWhile Char.isDigit) hr
  have glued (place : Location) : run ⟨w ++ rest, place⟩ inWord = (w, ⟨rest, place.advance w⟩) := by
    refine run_append (by decide) (fun c hc => hu c ?_) hr
    rw [← parts, hv]
    simp [hc]
  have text : dash ++ u.takeWhile Char.isDigit ++ f ++ w = dash ++ u := by
    rw [List.append_assoc, List.append_assoc, ← hv, parts]
  have place : (((place.advance dash).advance (u.takeWhile Char.isDigit)).advance f).advance w =
      place.advance (dash ++ u) := by
    rw [← text]
    simp only [Location.advance_append]
  rw [number, optional_dash h]
  simp only [whole, fraction, glued, text, place, h.wordKind_eq, h.isNumber_eq_endsNumber]
  by_cases number : w = []
  · rw [if_neg (not_not_intro number), if_pos (hw.mp number)]
  · rw [if_pos number, if_neg (mt hw.mpr number)]

end

/-- The scanner of names reads the whole word, which is no number. -/
theorem name_eq {text rest : List Char} (ht : ∀ c ∈ text, inWord c = true)
    (hr : rest.head?.any inWord = false) (other : isNumber text = false) :
    name ⟨text ++ rest, place⟩ =
      (⟨wordKind text, String.ofList text, place⟩, ⟨rest, place.advance text⟩) := by
  simp only [name, run_append (p := inWord) (by decide) ht hr, wordKind, other]
  rfl

theorem isNumber_of_not_digit {c : Char} {cs : List Char} (hc : c.isDigit = false)
    (dash : c = '-' → cs.head?.any Char.isDigit = false) : isNumber (c :: cs) = false := by
  have digitless (cs : List Char) (h : cs.head?.any Char.isDigit = false) :
      (cs.takeWhile Char.isDigit).isEmpty = true := by
    rw [takeWhile_eq_nil h]
    rfl
  unfold isNumber
  split
  next he =>
    obtain ⟨rfl, rfl⟩ := List.cons.inj he
    simp [digitless _ (dash rfl)]
  · simp [digitless (c :: cs) hc]

/-! ## Strings -/

/-- What is read of a segment that begins at a place and has `rest` behind it. -/
def Piece.of (s : Quoted.Segment) (place : Location) (rest : List Char) : Piece where
  value := s.value
  problems := (s.problem.map (⟨·, place⟩)).toList
  behind := ⟨rest, place.advance s.text⟩

/-- What is read of segments that begin at a place and have `rest` behind them. -/
def Inside.of (ss : List Quoted.Segment) (closed : Bool) (place : Location) (rest : List Char) :
    Inside where
  value := Quoted.value ss
  problems := Quoted.diagnostics place ss
  closed := closed
  behind := ⟨rest, place.advance (Quoted.written ss ++ if closed then ['"'] else [])⟩

theorem Inside.of_cons (s : Quoted.Segment) (ss : List Quoted.Segment) (closed : Bool)
    (place : Location) (rest rest' : List Char) :
    Inside.of (s :: ss) closed place rest =
      { Inside.of ss closed (place.advance s.text) rest with
        value := (Piece.of s place rest').value ++
          (Inside.of ss closed (place.advance s.text) rest).value
        problems := (Piece.of s place rest').problems ++
          (Inside.of ss closed (place.advance s.text) rest).problems } := by
  simp [Inside.of, Piece.of, Quoted.value, Quoted.written, Quoted.diagnostics,
    Location.advance_append]

theorem inside_quote (cs : List Char) :
    inside ⟨'"' :: cs, place⟩ = ⟨[], [], true, ⟨cs, place.step '"'⟩⟩ := by
  rw [inside]
  rfl

theorem inside_escape (cs : List Char) :
    inside ⟨'\\' :: cs, place⟩ =
      (let piece := escape ⟨'\\' :: cs, place⟩
      let more := piece.behind.inside
      { more with value := piece.value ++ more.value,
                  problems := piece.problems ++ more.problems }) := by
  rw [inside]
  rfl

theorem inside_cons {c : Char} (cs : List Char) (quote : c ≠ '"') (newline : c ≠ '\n')
    (slash : c ≠ '\\') :
    inside ⟨c :: cs, place⟩ =
      (let more := inside ⟨cs, place.step c⟩
      { more with value := c :: more.value }) := by
  rw [inside, ← advance_cons newline]
  split
  next h => cases h
  next h => exact absurd (Option.some.inj h) quote
  next h => exact absurd (Option.some.inj h) newline
  next h => exact absurd (Option.some.inj h) slash
  next d _ _ _ h =>
    obtain rfl : c = d := Option.some.inj h
    rfl

section

variable {cs : List Char} (ht : Ends tail)

include ht

theorem runUpTo_append (hp : p '\n' = false) (n : Nat) :
    runUpTo ⟨cs ++ tail, place⟩ n p = ((cs.take n).takeWhile p,
      ⟨cs.drop ((cs.take n).takeWhile p).length ++ tail,
        place.advance ((cs.take n).takeWhile p)⟩) := by
  have stops : (tail.take (n - cs.length)).head?.any p = false := by
    cases n - cs.length with
    | zero => rfl
    | succ n =>
      rw [List.head?_take, if_neg (Nat.succ_ne_zero n)]
      exact ht.any hp
  have run : ((cs ++ tail).take n).takeWhile p = (cs.take n).takeWhile p := by
    rw [List.take_append, takeWhile_append_other _ stops]
  have short : ((cs.take n).takeWhile p).length ≤ cs.length := by
    have := (List.takeWhile_prefix (l := cs.take n) p).length_le
    rw [List.length_take] at this
    omega
  rw [runUpTo, runFrom_eq hp, run, List.drop_append_of_le_length short]

theorem peek_append {c : Char} (hc : c ≠ '\n') :
    peek ⟨cs ++ tail, place⟩ = some c ↔ cs.head? = some c := by
  cases cs with
  | nil =>
    have stops := ht.any (p := (· = c)) (decide_eq_false hc.symm)
    constructor
    · intro h
      have h : tail.head? = some c := h
      simp [h] at stops
    · intro h
      cases h
  | cons d cs => exact Iff.rfl

theorem unicodeEscape_braced :
    unicodeEscape ⟨'\x7b' :: cs ++ tail, place⟩ =
      match Quoted.unicodeEscape? ('\x7b' :: cs) with
      | some (written, c) =>
        (some c, ⟨('\x7b' :: cs).drop written.length ++ tail, place.advance written⟩)
      | none => (none, ⟨'\x7b' :: cs ++ tail, place⟩) := by
  have opened : runUpTo ⟨cs ++ tail, place.step '\x7b'⟩ (cs ++ tail).length Text.isHexDigit = _ :=
    runUpTo_append ht (by decide) _
  have all : cs.take (cs ++ tail).length = cs :=
    List.take_of_length_le (by simp)
  rw [all] at opened
  have braced : peek ⟨'\x7b' :: cs ++ tail, place⟩ = some '\x7b' := rfl
  have step : advance ⟨'\x7b' :: cs ++ tail, place⟩ = ⟨cs ++ tail, place.step '\x7b'⟩ := rfl
  simp only [unicodeEscape, braced, if_true, step, opened, true_and, Quoted.unicodeEscape?]
  generalize cs.takeWhile Text.isHexDigit = digits
  by_cases closed : (cs.drop digits.length).head? = some '\x7d'
  · obtain ⟨more, hm⟩ := List.head?_eq_some_iff.mp closed
    have rest : cs.drop (digits.length + 1) = more := by
      rw [← List.tail_drop, hm, List.tail_cons]
    rw [if_neg (not_not_intro ((peek_append ht (by decide)).mpr closed)), hm]
    by_cases empty : digits = []
    · rw [if_pos (.inl empty), if_neg (fun h => h.1 empty)]
    · rw [if_neg (by simp [empty]), if_pos ⟨empty, by rw [List.head?_cons]⟩]
      cases Quoted.scalar? (Text.hexNumber digits) with
      | none => rfl
      | some c => simp [rest, advance, Location.advance_append, Location.past, Location.step]
  · rw [if_pos (mt (peek_append ht (by decide)).mp closed), if_neg (fun h => closed h.2)]

theorem unicodeEscape_four (plain : cs.head? ≠ some '\x7b') :
    unicodeEscape ⟨cs ++ tail, place⟩ =
      match Quoted.unicodeEscape? cs with
      | some (written, c) => (some c, ⟨cs.drop written.length ++ tail, place.advance written⟩)
      | none => (none, ⟨cs ++ tail, place⟩) := by
  have digits : runUpTo ⟨cs ++ tail, place⟩ 4 Text.isHexDigit = _ :=
    runUpTo_append ht (by decide) 4
  have unbraced : peek ⟨cs ++ tail, place⟩ ≠ some '\x7b' := mt (peek_append ht (by decide)).mp plain
  have escape : Quoted.unicodeEscape? cs =
      let digits := (cs.take 4).takeWhile Text.isHexDigit
      if digits.length = 4 then
        (Quoted.scalar? (Text.hexNumber digits)).map fun c => (digits, c)
      else none := by
    unfold Quoted.unicodeEscape?
    split
    · exact absurd rfl plain
    · rfl
  simp only [unicodeEscape, unbraced, if_false, digits, false_and, escape]
  generalize (cs.take 4).takeWhile Text.isHexDigit = digits
  by_cases four : digits.length = 4
  · have written : digits ≠ [] := fun h => by rw [h] at four; cases four
    rw [if_neg (by simp [four, written]), if_pos four]
    cases Quoted.scalar? (Text.hexNumber digits) <;> rfl
  · rw [if_pos (.inr ⟨not_false, four⟩), if_neg four]

/-- The scanner of escapes stops at the end of the line. -/
theorem unicodeEscape_eq :
    unicodeEscape ⟨cs ++ tail, place⟩ =
      match Quoted.unicodeEscape? cs with
      | some (written, c) => (some c, ⟨cs.drop written.length ++ tail, place.advance written⟩)
      | none => (none, ⟨cs ++ tail, place⟩) := by
  by_cases braced : cs.head? = some '\x7b'
  · obtain ⟨cs, rfl⟩ := List.head?_eq_some_iff.mp braced
    exact unicodeEscape_braced ht
  · exact unicodeEscape_four ht braced

theorem escape_eq (line : cs.head? ≠ some '\n') :
    escape ⟨'\\' :: cs ++ tail, place⟩ =
      .of (Quoted.escape cs) place (cs.drop ((Quoted.escape cs).text.length - 1) ++ tail) := by
  unfold escape Quoted.escape
  split
  · -- a backslash at the end of the line
    obtain rfl | ⟨next, rfl⟩ := ht.cases <;> rfl
  next cs =>
    have behind : advance (advance ⟨'\\' :: 'u' :: cs ++ tail, place⟩) =
        ⟨cs ++ tail, (place.step '\\').step 'u'⟩ := rfl
    dsimp only
    split
    next h => cases h
    next h => cases h
    next h =>
      rw [behind, unicodeEscape_eq ht]
      cases Quoted.unicodeEscape? cs with
      | none => rfl
      | some escape => rfl
    next unequal h => exact absurd (Option.some.inj h).symm unequal
  next c cs other =>
    dsimp only
    split
    next h => cases h
    next h => exact absurd h line
    next h => exact absurd (Option.some.inj h) other
    next d _ _ h =>
      obtain rfl : c = d := Option.some.inj h
      have behind : advance (advance ⟨'\\' :: c :: cs ++ tail, place⟩) =
          ⟨cs ++ tail, (place.step '\\').step c⟩ :=
        advance_cons (fun hc => line (congrArg some hc))
      rw [behind]
      cases Quoted.simpleEscape? c <;> rfl

theorem inside_ends : inside ⟨tail, place⟩ = ⟨[], [], false, ⟨tail, place⟩⟩ := by
  obtain rfl | ⟨next, rfl⟩ := ht.cases
  · rw [inside]
    rfl
  · rw [inside]
    rfl

/-- The scanner of strings reads the segments of a line up to the closing quote. -/
theorem inside_eq (line : '\n' ∉ cs) {rest : List Char}
    (h : cs = Quoted.written (Quoted.scan cs).1 ++
      (if (Quoted.scan cs).2 then ['"'] else []) ++ rest) :
    inside ⟨cs ++ tail, place⟩ =
      .of (Quoted.scan cs).1 (Quoted.scan cs).2 place (rest ++ tail) := by
  fun_induction Quoted.scan cs generalizing place with
  | case1 =>
    obtain rfl : rest = [] := h.symm
    exact inside_ends ht
  | case2 cs =>
    obtain rfl : cs = rest := (List.cons.inj h).2
    exact inside_quote (cs ++ tail)
  | case3 c cs quote s ss closed hs =>
    rename_i ih
    have parts := (Quoted.starts_segment c cs).drop
    have below : '\n' ∉ cs.drop (s.text.length - 1) :=
      fun hm => line (List.mem_cons_of_mem c (List.mem_of_mem_drop hm))
    have left : cs.drop (s.text.length - 1) =
        Quoted.written ss ++ (if closed then ['"'] else []) ++ rest := by
      rw [← parts, Quoted.written, List.flatMap_cons, List.append_assoc, List.append_assoc,
        List.append_cancel_left_eq] at h
      rw [h, List.append_assoc]
      rfl
    rw [hs] at ih
    have more : inside ⟨cs.drop (s.text.length - 1) ++ tail, place.advance s.text⟩ = _ :=
      ih below left
    rw [Inside.of_cons s ss closed place _ (cs.drop (s.text.length - 1) ++ tail), ← more]
    by_cases slash : c = '\\'
    · subst slash
      have first : escape ⟨'\\' :: cs ++ tail, place⟩ =
          .of s place (cs.drop (s.text.length - 1) ++ tail) :=
        escape_eq ht fun hm => line (List.mem_cons_of_mem _ (List.mem_of_mem_head? hm))
      rw [List.cons_append] at first ⊢
      rw [inside_escape, first]
      rfl
    · have newline : c ≠ '\n' := fun hc => line (hc ▸ List.mem_cons_self)
      have plain : s = { text := [c], value := [c] } := if_neg slash
      rw [List.cons_append, inside_cons _ quote newline slash, plain]
      rfl

theorem string_eq (line : '\n' ∉ cs) {rest : List Char} {l : Lexeme}
    (hl : l = .quoted (Quoted.scan cs).1 (Quoted.scan cs).2) (h : '"' :: cs = l.text ++ rest) :
    string ⟨'"' :: cs ++ tail, place⟩ =
      (⟨.str (String.ofList (Quoted.value (Quoted.scan cs).1)), String.ofList l.text, place⟩,
        l.diagnostics place, ⟨rest ++ tail, place.advance l.text⟩) := by
  subst hl
  have inside : inside ⟨cs ++ tail, place.step '"'⟩ = _ :=
    inside_eq ht line (List.cons.inj h).2
  have opened : advance ⟨'"' :: cs ++ tail, place⟩ = ⟨cs ++ tail, place.step '"'⟩ := rfl
  have text : ('"' :: cs ++ tail).take (('"' :: cs ++ tail).length - (rest ++ tail).length) =
      (Lexeme.quoted (Quoted.scan cs).1 (Quoted.scan cs).2).text := by
    rw [h, List.append_assoc, List.length_append, Nat.add_sub_cancel, List.take_left]
  simp only [string, opened, inside, Inside.of, text]
  rfl

end

end Cursor

end Wireframe
