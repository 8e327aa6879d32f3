import Mathlib.Computability.RegularExpressions
import Wireframe.Proofs.Lexeme.Coverage
import Wireframe.Proofs.Lexeme.Numbers
import Wireframe.Proofs.Lexeme.Spelling
import Wireframe.Proofs.Text.Case
import Wireframe.Proofs.Runs

/-!
# Words

A word is a run of characters that goes on as far as it can, and what it is can be told from its
text alone: one of two keywords, a number, or else a name (`words_by_text`). What a number is is told
by a regular expression, whatever stands in front of the word or behind it.
-/

namespace Wireframe

namespace Lexeme

open RegularExpression (char)

/-! ## The numbers -/

/-- A decimal digit. -/
def digit : RegularExpression Char :=
  char '0' + char '1' + char '2' + char '3' + char '4' + char '5' + char '6' + char '7' +
    char '8' + char '9'

/-- Decimal digits, at least one. -/
def digits : RegularExpression Char :=
  digit * digit.star

/-- The numbers: `-?[0-9]+(\.[0-9]+)?`. -/
def numeral : RegularExpression Char :=
  (1 + char '-') * (digits * (1 + char '.' * digits))

theorem mem_digit {cs : List Char} :
    cs ∈ digit.matches' ↔ ∃ c, c.isDigit = true ∧ cs = [c] := by
  constructor
  · intro h
    simp only [digit, RegularExpression.matches'_add, RegularExpression.matches'_char,
      Language.mem_add] at h
    rcases h with ((((((((h | h) | h) | h) | h) | h) | h) | h) | h) | h
    all_goals exact ⟨_, rfl, h⟩
  · rintro ⟨c, hc, rfl⟩
    have ascii : c.toNat < 128 :=
      Text.ascii_of_isAlphanum (by rw [Char.isAlphanum, hc, Bool.or_true])
    revert hc
    exact Text.forall_ascii (P := fun c => c.isDigit = true → [c] ∈ digit.matches')
      (by decide +kernel) ascii

theorem mem_star_digit {cs : List Char} :
    cs ∈ digit.star.matches' ↔ ∀ c ∈ cs, c.isDigit = true := by
  rw [RegularExpression.matches'_star, Language.mem_kstar]
  constructor
  · rintro ⟨parts, rfl, h⟩ c hc
    obtain ⟨part, hp, hc⟩ := List.mem_flatten.mp hc
    obtain ⟨d, hd, rfl⟩ := mem_digit.mp (h part hp)
    rwa [List.mem_singleton.mp hc]
  · intro h
    refine ⟨cs.map fun c => [c], ?_, fun part hp => ?_⟩
    · rw [← List.flatMap_def, List.flatMap_singleton']
    · obtain ⟨c, hc, rfl⟩ := List.mem_map.mp hp
      exact mem_digit.mpr ⟨c, h c hc, rfl⟩

theorem mem_digits {cs : List Char} : cs ∈ digits.matches' ↔ Digits cs := by
  rw [digits, RegularExpression.matches'_mul, Language.mem_mul]
  constructor
  · rintro ⟨first, hf, more, hm, rfl⟩
    obtain ⟨c, hc, rfl⟩ := mem_digit.mp hf
    exact ⟨List.cons_ne_nil c more, List.forall_mem_cons.mpr ⟨hc, mem_star_digit.mp hm⟩⟩
  · rintro ⟨written, h⟩
    obtain ⟨c, more, rfl⟩ := List.exists_cons_of_ne_nil written
    obtain ⟨hc, hm⟩ := List.forall_mem_cons.mp h
    exact ⟨[c], mem_digit.mpr ⟨c, hc, rfl⟩, more, mem_star_digit.mpr hm, rfl⟩

theorem mem_magnitude {cs : List Char} :
    cs ∈ (digits * (1 + char '.' * digits)).matches' ↔ Magnitude cs := by
  simp only [RegularExpression.matches'_mul, RegularExpression.matches'_add,
    RegularExpression.matches'_epsilon, RegularExpression.matches'_char, Language.mem_mul,
    Language.mem_add, Language.mem_one]
  constructor
  · rintro ⟨ds, hd, tail, rfl | ⟨point, hp, es, he, rfl⟩, rfl⟩
    · rw [List.append_nil]
      exact .whole (mem_digits.mp hd)
    · obtain rfl : point = ['.'] := hp
      exact .point (mem_digits.mp hd) (mem_digits.mp he)
  · rintro (⟨hd⟩ | ⟨hd, he⟩)
    · exact ⟨cs, mem_digits.mpr hd, [], .inl rfl, List.append_nil cs⟩
    · exact ⟨_, mem_digits.mpr hd, _, .inr ⟨['.'], rfl, _, mem_digits.mpr he, rfl⟩, rfl⟩

theorem mem_numeral {cs : List Char} :
    cs ∈ numeral.matches' ↔ Magnitude cs ∨ ∃ ms, cs = '-' :: ms ∧ Magnitude ms := by
  rw [numeral, RegularExpression.matches'_mul, Language.mem_mul]
  simp only [mem_magnitude, RegularExpression.matches'_add, Language.mem_add,
    RegularExpression.matches'_epsilon, RegularExpression.matches'_char, Language.mem_one]
  constructor
  · rintro ⟨sign, rfl | hs, ms, hm, rfl⟩
    · exact .inl hm
    · obtain rfl : sign = ['-'] := hs
      exact .inr ⟨ms, rfl, hm⟩
  · rintro (h | ⟨ms, rfl, h⟩)
    · exact ⟨[], .inl rfl, cs, h, rfl⟩
    · exact ⟨['-'], .inr rfl, ms, h, rfl⟩

theorem isNumber_iff {cs : List Char} : isNumber cs = true ↔ cs ∈ numeral.matches' := by
  rw [isNumber_eq, isMagnitude_iff, mem_numeral]
  constructor
  · intro h
    rcases undashed_eq_self_or cs with he | he
    · exact .inl (he ▸ h)
    · exact .inr ⟨_, he, h⟩
  · rintro (h | ⟨ms, rfl, h⟩)
    · rcases undashed_eq_self_or cs with he | he
      · rwa [he]
      · -- a number behind its sign does not begin with another one
        obtain ⟨c, more, hc, digit⟩ := h.head?_isDigit
        rw [he] at hc
        rw [← (List.cons.inj hc).1] at digit
        cases digit
    · exact h

/-- Every number is the double of a decimal. -/
theorem Magnitude.exists_ofText? {cs : List Char} (h : Magnitude cs) :
    ∃ d, Decimal.ofText? cs = some d := by
  cases h with
  | whole h =>
    have run := takeWhile_run [] h.isDigit rfl
    rw [List.append_nil] at run
    simp [Decimal.ofText?, run.1, run.2, h.ne_nil, Decimal.exponent?]
  | @point ds es h h' =>
    have before := takeWhile_run ('.' :: es) h.isDigit rfl
    have behind := takeWhile_run [] h'.isDigit rfl
    rw [List.append_nil] at behind
    simp [Decimal.ofText?, before.1, before.2, behind.1, behind.2, h.ne_nil, Decimal.exponent?]

theorem exists_read? {cs : List Char} (h : cs ∈ numeral.matches') :
    ∃ x, Decimal.read? cs = some x := by
  have number := isMagnitude_iff.mp (isNumber_eq cs ▸ isNumber_iff.mpr h)
  obtain ⟨d, hd⟩ := number.exists_ofText?
  rw [read?_of_magnitude number, signed_of_magnitude number, hd]
  exact ⟨_, rfl⟩

/-! ## The kinds of words -/

theorem wordKind_cases (w : String) :
    (w = "ATTR" ∧ wordKind w.toList = .attr) ∨
      (w = "CONTENT" ∧ wordKind w.toList = .content) ∨
      (w ≠ "ATTR" ∧ w ≠ "CONTENT" ∧
        ((w.toList ∈ numeral.matches' ∧ ∃ x, wordKind w.toList = .number x) ∨
          (w.toList ∉ numeral.matches' ∧ wordKind w.toList = .ident w))) := by
  by_cases attr : w = "ATTR"
  · exact .inl ⟨attr, by rw [attr]; rfl⟩
  by_cases content : w = "CONTENT"
  · exact .inr (.inl ⟨content, by rw [content]; rfl⟩)
  refine .inr (.inr ⟨attr, content, ?_⟩)
  rw [wordKind, if_neg (mt String.toList_inj.mp attr), if_neg (mt String.toList_inj.mp content)]
  by_cases number : w.toList ∈ numeral.matches'
  · obtain ⟨x, hx⟩ := exists_read? number
    refine .inl ⟨number, x, ?_⟩
    rw [if_pos (isNumber_iff.mpr number), hx]
  · refine .inr ⟨number, ?_⟩
    rw [if_neg (mt isNumber_iff.mp number), String.ofList_toList]

/-- What a word is, by its text. -/
theorem wordKind_by_text (w : String) :
    (wordKind w.toList = .attr ↔ w = "ATTR") ∧
      (wordKind w.toList = .content ↔ w = "CONTENT") ∧
      ((∃ x, wordKind w.toList = .number x) ↔ w.toList ∈ numeral.matches') ∧
      ∀ name, wordKind w.toList = .ident name ↔
        name = w ∧ w ≠ "ATTR" ∧ w ≠ "CONTENT" ∧ w.toList ∉ numeral.matches' := by
  have keywords : "ATTR".toList ∉ numeral.matches' ∧ "CONTENT".toList ∉ numeral.matches' := by
    decide
  rcases wordKind_cases w with ⟨rfl, h⟩ | ⟨rfl, h⟩ | ⟨attr, content, ⟨number, x, h⟩ | ⟨name, h⟩⟩
  · rw [h]
    simpa using keywords.1
  · rw [h]
    simpa using keywords.2
  · simp [h, attr, content, number]
  · simp [h, attr, content, name, eq_comm]

/-! ## Where words end -/

theorem inWord_of_startsWord {c : Char} {next : Option Char} (h : startsWord c next = true) :
    inWord c = true := by
  simp only [startsWord, Bool.or_eq_true, Bool.and_eq_true, decide_eq_true_eq] at h
  rcases h with (begins | digit) | ⟨rfl, -⟩
  · exact inWord_of_beginsWord begins
  · exact inWord_of_isDigit digit
  · rfl

theorem first_eq_word {c : Char} {cs ws : List Char} (h : first c cs = word ws) :
    ws = c :: cs.takeWhile inWord ∧ inWord c = true := by
  have begun := begun_first c cs
  generalize first c cs = l at begun h
  cases begun with
  | word starts => exact ⟨(word.inj h).symm, inWord_of_startsWord starts⟩
  | _ => cases h

theorem inWord_of_scanned {ws : List Char} (h : Scanned (word ws)) :
    ∀ c ∈ ws, inWord c = true := by
  generalize hl : word ws = l at h
  cases h with
  | first c cs =>
    obtain ⟨rfl, hc⟩ := first_eq_word hl.symm
    exact inWord_takeWhile hc
  | _ => cases hl

/-- What stands behind a word does not go on with it. -/
theorem head?_text_of_word {cs ws : List Char} {ls₁ ls₂ : List Lexeme} {m : Lexeme}
    (h : ofText cs = ls₁ ++ word ws :: m :: ls₂) :
    ∃ c more, m.text = c :: more ∧ inWord c = false := by
  refine of_neighbours (P := fun l => ∃ ws, l = word ws)
    (Q := fun m => ∃ c more, m.text = c :: more ∧ inWord c = false) ⟨by simp, by simp, by simp⟩
    (fun _ => ⟨'\n', [], rfl, by decide⟩) ?_ h ⟨ws, rfl⟩
  rintro c cs ⟨ws, hl⟩ m hm
  have text : (first c cs).text = c :: cs.takeWhile inWord := by
    rw [hl, ← (first_eq_word hl).1]
    rfl
  have other := head?_dropWhile inWord cs
  rw [text, List.length_cons, Nat.add_sub_cancel, drop_takeWhile] at hm
  generalize cs.dropWhile inWord = behind at hm other
  cases behind with
  | nil =>
    rw [inLine] at hm
    cases hm
  | cons d ds =>
    rw [inLine, List.head?_cons, Option.mem_some_iff] at hm
    obtain ⟨more, hm', -⟩ := starts_first d ds
    exact ⟨d, more, hm ▸ hm', by simpa using other⟩

end Lexeme

namespace Token

open Lexeme (inWord numeral wordKind_by_text)
open Location (behind)

/-- A word of a text is a run of characters that could not go on, and its text alone decides whether
it is a keyword, a number or a name, and which. -/
theorem words_by_text (source : String) (t : Token) (ht : t ∈ (scan source).1)
    (hw : t.kind.isWord = true) :
    (∃ before after, body source = before ++ t.text.toList ++ after ∧
        t.location = behind before ∧ (∀ c ∈ t.text.toList, inWord c = true) ∧
        after.head?.any inWord = false) ∧
      (t.kind = .attr ↔ t.text = "ATTR") ∧
      (t.kind = .content ↔ t.text = "CONTENT") ∧
      ((∃ x, t.kind = .number x) ↔ t.text.toList ∈ numeral.matches') ∧
      ∀ name, t.kind = .ident name ↔
        name = t.text ∧ t.text ≠ "ATTR" ∧ t.text ≠ "CONTENT" ∧
          t.text.toList ∉ numeral.matches' := by
  rcases mem_scan ht with mem | rfl
  · obtain ⟨ls₁, l, ls₂, hl, kind, text, place⟩ := Lexeme.exists_of_mem_tokens mem
    have scanned := Lexeme.scanned_ofText (body source) l (hl ▸ by simp)
    obtain ⟨ws, rfl, hk⟩ := scanned.word kind hw
    have written : t.text.toList = ws := by
      rw [text, String.toList_ofList]
      rfl
    refine ⟨⟨ls₁.flatMap Lexeme.text, ls₂.flatMap Lexeme.text, ?_, ?_, ?_, ?_⟩, ?_⟩
    · rw [← Lexeme.flatMap_text_ofText (body source), hl, written]
      simp [Lexeme.text]
    · rw [place, Location.start_advance]
    · rw [written]
      exact Lexeme.inWord_of_scanned scanned
    · cases ls₂ with
      | nil => rfl
      | cons m ls₂ =>
        obtain ⟨c, more, hm, other⟩ := Lexeme.head?_text_of_word hl
        simp [hm, other]
    · rw [← hk, ← written]
      exact wordKind_by_text t.text
  · cases hw

/-- Two points make a name of digits. -/
theorem words_by_text_pointed :
    (⟨.ident "-1.5.2", "-1.5.2", ⟨1, 2, 1⟩⟩ : Token) ∈ (scan "(-1.5.2)").1 ∧
      "-1.5.2".toList ∉ numeral.matches' := by
  have mem : (⟨.ident "-1.5.2", "-1.5.2", ⟨1, 2, 1⟩⟩ : Token) ∈ (scan "(-1.5.2)").1 := by
    decide +kernel
  obtain ⟨-, -, -, -, name⟩ := words_by_text _ _ mem rfl
  exact ⟨mem, ((name _).mp rfl).2.2.2⟩

end Token

end Wireframe
