import Mathlib.Data.List.TakeWhile
import Wireframe.Lexeme.Basic

/-!
# Quoting

Between quotes a character is written as itself, by a letter that stands for it, or by its code
(`Writes`). What decides that a run of segments is read as itself is that each segment is, whatever
follows it (`Stands`), and every way to write a character is (`Writes.stands`). So every text can be
quoted so that it is read back (`scan_quoted`): a backslash is put before backslashes and quotes, and
the end of a line is written as a letter.
-/

namespace Wireframe

namespace Quoted

/-- Whether a segment is read as itself, whatever follows it. -/
def Stands (s : Segment) : Prop :=
  ∀ rest, scan (s.text ++ rest) = (s :: (scan rest).1, (scan rest).2)

/-- Segments that stand are read up to the quote behind them. -/
theorem scan_written {ss : List Segment} (h : ∀ s ∈ ss, Stands s) (rest : List Char) :
    scan (written ss ++ '"' :: rest) = (ss, true) := by
  induction ss with
  | nil =>
    rw [written, List.flatMap_nil, List.nil_append, scan]
    rfl
  | cons s ss ih =>
    have first := h s List.mem_cons_self
    have more := ih fun t ht => h t (List.mem_cons_of_mem s ht)
    rw [written, List.flatMap_cons, ← written, List.append_assoc, first, more]

/-- The letters that stand for a character behind a backslash. -/
def shortForms : List (Char × Char) :=
  [('n', '\n'), ('t', '\t'), ('r', '\r'), ('"', '"'), ('\\', '\\'), ('/', '/')]

/-- Hexadecimal digits of either case that write the code of a character. -/
structure Code (c : Char) (digits : List Char) : Prop where
  hex : ∀ d ∈ digits, Text.isHexDigit d = true
  value : Text.hexNumber digits = c.toNat

/-- How a character can be written between quotes. -/
inductive Writes (c : Char) : List Char → Prop
  | raw (quote : c ≠ '"') (slash : c ≠ '\\') (newline : c ≠ '\n') : Writes c [c]
  | short {letter : Char} (h : (letter, c) ∈ shortForms) : Writes c ['\\', letter]
  | braced {digits : List Char} (written : digits ≠ []) (h : Code c digits) :
      Writes c ('\\' :: 'u' :: '\x7b' :: (digits ++ ['\x7d']))
  | four {digits : List Char} (length : digits.length = 4) (h : Code c digits) :
      Writes c ('\\' :: 'u' :: digits)

theorem simpleEscape?_eq_some_iff {letter c : Char} :
    simpleEscape? letter = some c ↔ (letter, c) ∈ shortForms := by
  constructor
  · intro h
    unfold simpleEscape? at h
    split at h
    all_goals cases h
    all_goals decide
  · have listed : ∀ p ∈ shortForms, simpleEscape? p.1 = some p.2 := by decide
    exact listed (letter, c)

theorem scalar?_eq_some_iff {n : Nat} {c : Char} : scalar? n = some c ↔ n = c.toNat := by
  unfold scalar?
  constructor
  · intro h
    split at h
    next valid =>
      cases h
      rw [Char.ofNat, dif_pos valid]
      rfl
    · cases h
  · rintro rfl
    have valid : c.toNat.isValidChar := c.valid
    rw [if_pos valid, Char.ofNat_toNat]

section

variable {c : Char} {digits : List Char} (h : Code c digits) (rest : List Char)

include h

theorem scalar?_of_code : scalar? (Text.hexNumber digits) = some c :=
  scalar?_eq_some_iff.mpr h.value

/-- The digits between braces end where the brace is, since it is none. -/
theorem unicodeEscape?_braced (written : digits ≠ []) :
    unicodeEscape? ('\x7b' :: (digits ++ '\x7d' :: rest)) =
      some ('\x7b' :: (digits ++ ['\x7d']), c) := by
  have run : (digits ++ '\x7d' :: rest).takeWhile Text.isHexDigit = digits := by
    rw [List.takeWhile_append_of_pos h.hex, List.takeWhile_cons_of_neg (by decide),
      List.append_nil]
  rw [unicodeEscape?]
  simp only [run, List.drop_left, List.head?_cons]
  rw [if_pos ⟨written, trivial⟩, scalar?_of_code h]
  rfl

/-- Four digits are all that is read, even if more of them follow. -/
theorem unicodeEscape?_four (four : digits.length = 4) :
    unicodeEscape? (digits ++ rest) = some (digits, c) := by
  have open_not_hex : Text.isHexDigit '\x7b' = false := by decide
  have run : ((digits ++ rest).take 4).takeWhile Text.isHexDigit = digits := by
    rw [← four, List.take_left]
    exact List.takeWhile_eq_self_iff.mpr h.hex
  rw [unicodeEscape?]
  · simp only [run]
    rw [if_pos four, scalar?_of_code h, Option.map_some]
  · intro cs hcs
    cases digits with
    | nil => cases four
    | cons d digits =>
      obtain ⟨rfl, -⟩ := List.cons.inj hcs
      rw [h.hex _ List.mem_cons_self] at open_not_hex
      cases open_not_hex

end

/-- What is read where a character is written in one of its ways. -/
def reading (c : Char) (part : List Char) : Segment :=
  { text := part, value := [c] }

theorem stands_of_escape {c : Char} {part : List Char}
    (h : ∀ rest, escape (part ++ rest) = reading c ('\\' :: part)) :
    Stands (reading c ('\\' :: part)) := by
  intro rest
  show scan ('\\' :: (part ++ rest)) = _
  rw [scan, if_neg (by decide), segment, if_pos rfl, h]
  simp [reading]

theorem escape_unicode {c : Char} {cs written : List Char}
    (h : unicodeEscape? cs = some (written, c)) :
    escape ('u' :: cs) = reading c ('\\' :: 'u' :: written) := by
  rw [escape, h]
  rfl

theorem Writes.stands {c : Char} {part : List Char} (h : Writes c part) :
    Stands (reading c part) := by
  cases h with
  | raw quote slash _ =>
    intro rest
    show scan (c :: rest) = _
    rw [scan, if_neg quote, segment, if_neg slash]
    rfl
  | @short letter listed =>
    refine stands_of_escape fun rest => ?_
    have simple := simpleEscape?_eq_some_iff.mpr listed
    have notUnicode : letter ≠ 'u' := by
      rintro rfl
      cases simple
    rw [List.singleton_append, escape, simple]
    · rfl
    · exact notUnicode
  | @braced digits written code =>
    refine stands_of_escape fun rest => ?_
    show escape ('u' :: '\x7b' :: (digits ++ ['\x7d'] ++ rest)) = _
    rw [List.append_assoc]
    exact escape_unicode (unicodeEscape?_braced code rest written)
  | @four digits length code =>
    exact stands_of_escape fun rest => escape_unicode (unicodeEscape?_four code rest length)

/-- However a character is written, it is written on one line. -/
theorem Writes.newline_not_mem {c : Char} {part : List Char} (h : Writes c part) :
    '\n' ∉ part := by
  have digits {digits : List Char} (code : Code c digits) : '\n' ∉ digits :=
    fun hm => absurd (code.hex _ hm) (by decide)
  cases h with
  | raw _ _ newline => simpa using Ne.symm newline
  | @short letter listed =>
    have letters : ∀ p ∈ shortForms, '\n' ∉ ['\\', p.1] := by decide
    exact letters _ listed
  | braced _ code => simpa using digits code
  | four _ code => simpa using digits code

/-- How a character is written where it has to be. -/
def escaped (c : Char) : List Char :=
  if c = '\\' then ['\\', '\\']
  else if c = '"' then ['\\', '"']
  else if c = '\n' then ['\\', 'n']
  else [c]

theorem writes_escaped (c : Char) : Writes c (escaped c) := by
  unfold escaped
  split
  next h => exact .short (by rw [h]; decide)
  split
  next h => exact .short (by rw [h]; decide)
  split
  next h => exact .short (by rw [h]; decide)
  next slash quote newline => exact .raw quote slash newline

def spelled (c : Char) : Segment :=
  { text := escaped c, value := [c] }

theorem stands_spelled (c : Char) : Stands (spelled c) :=
  (writes_escaped c).stands

/-- A text between quotes. -/
def quoted (s : String) : List Char :=
  '"' :: (s.toList.flatMap escaped ++ ['"'])

def segments (s : String) : List Segment :=
  s.toList.map spelled

theorem written_segments (s : String) : written (segments s) = s.toList.flatMap escaped := by
  rw [written, segments, List.flatMap_map]
  rfl

theorem value_segments (s : String) : value (segments s) = s.toList := by
  have single : (fun c => (spelled c).value) = fun c => [c] := rfl
  rw [value, segments, List.flatMap_map, single, List.flatMap_singleton']

theorem scan_quoted (s : String) (rest : List Char) :
    scan (s.toList.flatMap escaped ++ '"' :: rest) = (segments s, true) := by
  rw [← written_segments]
  refine scan_written (fun t ht => ?_) rest
  obtain ⟨c, _, rfl⟩ := List.mem_map.mp ht
  exact stands_spelled c

theorem diagnostics_segments (p : Location) (s : String) : diagnostics p (segments s) = [] := by
  rw [segments]
  induction s.toList generalizing p with
  | nil => rfl
  | cons c cs ih =>
    rw [List.map_cons, diagnostics, ih]
    rfl

/-- A quoted text stands on one line. -/
theorem newline_not_mem_quoted (s : String) : '\n' ∉ quoted s := by
  simp only [quoted, List.mem_cons, List.mem_append, List.mem_flatMap, List.not_mem_nil, or_false]
  rintro (h | ⟨c, _, hc⟩ | h)
  · cases h
  · exact (writes_escaped c).newline_not_mem hc
  · cases h

end Quoted

end Wireframe
