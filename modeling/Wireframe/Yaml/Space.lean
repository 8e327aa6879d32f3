/-!
# White space in YAML texts

What separates the words of a text: blanks and tabs within a line, and breaks between lines. All
ways to end a line are one break before anything else is read, except for the two separators that
keep their meaning.
-/

namespace Wireframe.Yaml

/-- The end of a line. -/
def isBreak (c : Char) : Bool :=
  c = '\n' || c = '\u2028' || c = '\u2029'

def isWhite (c : Char) : Bool :=
  c = ' ' || c = '\t'

/-- Whether no word goes on here. -/
def startsBlank : List Char → Bool
  | [] => true
  | c :: _ => isWhite c || isBreak c

/-- Whether a line that starts here is the start or the end of a document. -/
def atMarker (cs : List Char) : Bool :=
  (['-', '-', '-'].isPrefixOf cs || ['.', '.', '.'].isPrefixOf cs) && startsBlank (cs.drop 3)

/-- The characters that a text may be written with. -/
def isAllowed (c : Char) : Bool :=
  let n := c.toNat
  n = 9 || n = 10 || n = 13 || (32 ≤ n && n ≤ 126) || n = 0x85 || (0xa0 ≤ n && n ≠ 0xfeff &&
    n ≠ 0xfffe && n ≠ 0xffff)

/-- A text with every end of a line written in one way. -/
def unifyBreaks : List Char → List Char
  | '\r' :: '\n' :: cs => '\n' :: unifyBreaks cs
  | '\r' :: cs | '\u0085' :: cs => '\n' :: unifyBreaks cs
  | c :: cs => c :: unifyBreaks cs
  | [] => []

/-- The characters of a text, without a byte order mark; none when one of them is not allowed. -/
def characters? (s : String) : Option (List Char) :=
  let cs := match s.toList with
    | '\ufeff' :: cs => cs
    | cs => cs
  if cs.all isAllowed then some (unifyBreaks cs) else none

theorem length_dropWhile_le (p : Char → Bool) (cs : List Char) :
    (cs.dropWhile p).length ≤ cs.length :=
  (List.dropWhile_sublist p).length_le

/-- The breaks at the start of a text, each with the white space behind it, and what follows. -/
def breaks : List Char → List (Char × List Char) × List Char
  | [] => ([], [])
  | c :: cs =>
    if isBreak c then
      let (ls, rest) := breaks (cs.dropWhile isWhite)
      ((c, cs.takeWhile isWhite) :: ls, rest)
    else ([], c :: cs)
termination_by cs => cs.length
decreasing_by
  have := length_dropWhile_le isWhite cs
  simp only [List.length_cons]
  omega

/-- The white space between two words. -/
structure Gap where
  /-- The white space before the first break. -/
  white : List Char
  /-- The breaks, each with the white space behind it. -/
  lines : List (Char × List Char)

namespace Gap

/-- Whether what follows starts in a new line. -/
def broken (g : Gap) : Bool :=
  g.lines ≠ []

/-- The white space at the start of the line of what follows. -/
def indentation (g : Gap) : List Char :=
  (g.lines.getLast?.map (·.2)).getD []

/-- The text that a gap stands for inside a scalar: a single break is a blank, the first of several
is dropped. -/
def folded (g : Gap) : List Char :=
  match g.lines.map (·.1) with
  | [] => g.white
  | ['\n'] => [' ']
  | '\n' :: more => more
  | all => all

/-- Whether what follows is the start or the end of a document. -/
def endsDocument (g : Gap) (rest : List Char) : Bool :=
  g.broken && g.indentation.isEmpty && atMarker rest

end Gap

/-- The white space at the start of a text, and what follows. -/
def gap (cs : List Char) : Gap × List Char :=
  let (lines, rest) := breaks (cs.dropWhile isWhite)
  (⟨cs.takeWhile isWhite, lines⟩, rest)

theorem breaks_length_le (cs : List Char) : (breaks cs).2.length ≤ cs.length := by
  fun_induction breaks cs with
  | case1 => simp
  | case2 c cs _ ls rest h ih =>
    have := length_dropWhile_le isWhite cs
    rw [h] at ih
    simp only [List.length_cons] at *
    omega
  | case3 => simp

theorem gap_length_le (cs : List Char) : (gap cs).2.length ≤ cs.length :=
  Nat.le_trans (breaks_length_le _) (length_dropWhile_le isWhite cs)

theorem gap_length_lt {c : Char} (cs : List Char) (h : isWhite c ∨ isBreak c) :
    (gap (c :: cs)).2.length < (c :: cs).length := by
  by_cases hw : isWhite c
  · have := breaks_length_le (cs.dropWhile isWhite)
    have := length_dropWhile_le isWhite cs
    simp only [gap, List.dropWhile_cons, hw, if_true, List.length_cons]
    omega
  · have hb : isBreak c := h.resolve_left hw
    have := breaks_length_le (cs.dropWhile isWhite)
    have := length_dropWhile_le isWhite cs
    rw [gap, List.dropWhile_cons, if_neg hw, breaks, if_pos hb]
    simp only [List.length_cons]
    omega

end Wireframe.Yaml
