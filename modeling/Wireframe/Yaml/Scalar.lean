import Wireframe.Text.Classes
import Wireframe.Yaml.Space

/-!
# Scalars of YAML texts

A scalar is written plainly, between quotes of either kind, or as a block of lines behind `|` or
`>`. Each reader takes the text behind what the scalar begins with, and gives the scalar's own text
and what follows it; it fails where the scalar is malformed.
-/

namespace Wireframe.Yaml

inductive Style where
  | plain
  | quoted
  | literal
  | folded
deriving Repr, DecidableEq

structure Scalar where
  text : String
  style : Style
deriving Repr, DecidableEq

/-! ## Plain scalars -/

/-- The marks of collections within a line. -/
def flowMarks : List Char := [',', '[', ']', '\x7b', '\x7d']

/-- Whether a plain scalar ends before a character. -/
def endsPlain (flow : Bool) (c : Char) (cs : List Char) : Bool :=
  isWhite c || isBreak c || (c = ':' && startsBlank cs) || (flow && c ∈ flowMarks)

/-- Whether a colon in a flow collection stands before a mark that it must not stand before. -/
def strayColon (flow : Bool) (c : Char) (cs : List Char) : Bool :=
  flow && c = ':' && cs.head?.any fun d => d ∈ '?' :: flowMarks

/-- The length of a word of a plain scalar. -/
def wordLength? (flow : Bool) : List Char → Option Nat
  | [] => some 0
  | c :: cs =>
    if strayColon flow c cs then none
    else if endsPlain flow c cs then some 0
    else (wordLength? flow cs).map (· + 1)

/-- A plain scalar, whether the line ends behind it, and what follows. It goes on in lines with at
least `indent` blanks; no tab may be among these. -/
def plain? (flow : Bool) (indent : Nat) (cs : List Char) :
    Option (List Char × Bool × List Char) :=
  match cs with
  | [] => some ([], false, [])
  | c :: cs =>
    match wordLength? flow (c :: cs) with
    | none => none
    | some 0 => some ([], false, c :: cs)
    | some (n + 1) =>
      let word := (c :: cs).take (n + 1)
      match _h : gap (cs.drop n) with
      | (g, rest) =>
        if g.lines.any fun l => (l.2.take indent).contains '\t' then none
        else if (!flow && g.broken && g.indentation.length < indent) ||
            g.endsDocument rest || rest.head? = some '#' then
          some (word, g.broken, rest)
        else
          match plain? flow indent rest with
          | none => none
          | some ([], _, rest) => some (word, g.broken, rest)
          | some (more, broken, rest) => some (word ++ g.folded ++ more, broken, rest)
termination_by cs.length
decreasing_by
  have := gap_length_le (cs.drop n)
  rw [_h] at this
  simp only [List.length_cons, List.length_drop] at *
  omega

/-! ## Quoted scalars -/

/-- The text behind a single quote, in which a quote is written twice. -/
def singleQuoted? : List Char → Option (List Char × List Char)
  | [] => none
  | '\'' :: '\'' :: cs => (singleQuoted? cs).map fun (s, rest) => ('\'' :: s, rest)
  | '\'' :: cs => some ([], cs)
  | c :: cs =>
    if _h : isWhite c ∨ isBreak c then
      match _hg : gap (c :: cs) with
      | (g, rest) =>
        if g.endsDocument rest then none
        else (singleQuoted? rest).map fun (s, rest) => (g.folded ++ s, rest)
    else (singleQuoted? cs).map fun (s, rest) => (c :: s, rest)
termination_by cs => cs.length
decreasing_by
  all_goals simp only [List.length_cons]
  · omega
  · have := gap_length_lt cs _h
    rw [_hg] at this
    simpa using this
  · omega

/-- The characters that a letter behind a backslash stands for. -/
def escapes : List (Char × Char) :=
  [('0', '\x00'), ('a', '\x07'), ('b', '\x08'), ('t', '\t'), ('\t', '\t'), ('n', '\n'),
    ('v', '\x0b'), ('f', '\x0c'), ('r', '\r'), ('e', '\x1b'), (' ', ' '), ('"', '"'), ('/', '/'),
    ('\\', '\\'), ('N', '\u0085'), ('_', '\u00a0'), ('L', '\u2028'), ('P', '\u2029')]

/-- The number of hexadecimal digits behind a letter that begins a character's number. -/
def escapeWidth? : Char → Option Nat
  | 'x' => some 2
  | 'u' => some 4
  | 'U' => some 8
  | _ => none

/-- The character with a number; none where no character has it. -/
def scalarValue? (n : Nat) : Option Char :=
  if n < 0xd800 ∨ 0xdfff < n ∧ n < 0x110000 then some (Char.ofNat n) else none

/-- The character behind a backslash, and what follows. -/
def escaped? : List Char → Option (Char × List Char)
  | [] => none
  | c :: cs =>
    match escapes.lookup c with
    | some d => some (d, cs)
    | none => do
      let width ← escapeWidth? c
      let digits := cs.take width
      if digits.length = width ∧ digits.all Text.isHexDigit then
        let d ← scalarValue? (Text.hexNumber digits)
        some (d, cs.drop width)
      else none

theorem escaped?_length {cs rest : List Char} {d : Char} (h : escaped? cs = some (d, rest)) :
    rest.length < cs.length := by
  cases cs with
  | nil => simp [escaped?] at h
  | cons c cs =>
    simp only [escaped?] at h
    split at h
    · simp only [Option.some.injEq, Prod.mk.injEq] at h
      simp [← h.2]
    · simp only [bind, Option.bind_eq_some_iff] at h
      obtain ⟨width, _, h⟩ := h
      split at h
      · obtain ⟨d', _, h⟩ := Option.bind_eq_some_iff.mp h
        simp only [Option.some.injEq, Prod.mk.injEq] at h
        simp only [← h.2, List.length_cons, List.length_drop]
        omega
      · cases h

/-- The text behind a double quote. A backslash before a break drops it and the white space around
what follows. -/
def doubleQuoted? : List Char → Option (List Char × List Char)
  | [] => none
  | '"' :: cs => some ([], cs)
  | '\\' :: cs =>
    match cs with
    | [] => none
    | c :: ds =>
      if _h : isBreak c then
        match _hg : gap (c :: ds) with
        | (g, rest) =>
          if g.endsDocument rest then none
          else
            (doubleQuoted? rest).map fun (s, rest) => ((g.lines.map (·.1)).drop 1 ++ s, rest)
      else
        match _he : escaped? (c :: ds) with
        | none => none
        | some (d, rest) => (doubleQuoted? rest).map fun (s, rest) => (d :: s, rest)
  | c :: cs =>
    if _h : isWhite c ∨ isBreak c then
      match _hg : gap (c :: cs) with
      | (g, rest) =>
        if g.endsDocument rest then none
        else (doubleQuoted? rest).map fun (s, rest) => (g.folded ++ s, rest)
    else (doubleQuoted? cs).map fun (s, rest) => (c :: s, rest)
termination_by cs => cs.length
decreasing_by
  · have := gap_length_lt ds (.inr _h)
    rw [_hg] at this
    simp only [List.length_cons] at *
    omega
  · have := escaped?_length _he
    simp only [List.length_cons] at *
    omega
  · have := gap_length_lt cs _h
    rw [_hg] at this
    simpa using this
  · simp

/-! ## Block scalars -/

/-- A line and the break that ends it; the last line of a text has none. -/
structure Line where
  text : List Char
  ending : Option Char

/-- The lines of a text. -/
def lines : List Char → List Line
  | [] => [⟨[], none⟩]
  | c :: cs =>
    if isBreak c then ⟨[], some c⟩ :: lines cs
    else
      match lines cs with
      | l :: ls => ⟨c :: l.text, l.ending⟩ :: ls
      | [] => [⟨[c], none⟩]

/-- The text that lines make up. -/
def joinLines (ls : List Line) : List Char :=
  ls.flatMap fun l => l.text ++ l.ending.toList

/-- What happens to the breaks at the end of a block. -/
inductive Chomping where
  | strip
  | clip
  | keep
deriving DecidableEq

/-- What stands behind the mark of a block: how its end is treated, and its indentation. -/
structure Header where
  chomping : Chomping
  indent : Option Nat

def chomping? : Char → Option Chomping
  | '-' => some .strip
  | '+' => some .keep
  | _ => none

def indentDigit? (c : Char) : Option Nat :=
  if '1' ≤ c ∧ c ≤ '9' then some (c.toNat - '0'.toNat) else none

/-- The header in the line behind the mark; its parts stand in either order, and a comment may
follow. -/
def header? (cs : List Char) : Option Header :=
  let first := cs.head?
  let second := (cs.drop 1).head?
  let (h, rest) : Header × List Char :=
    match first.bind chomping?, first.bind indentDigit? with
    | some ch, _ =>
      match second.bind indentDigit? with
      | some n => (⟨ch, some n⟩, cs.drop 2)
      | none => (⟨ch, none⟩, cs.drop 1)
    | none, some n =>
      match second.bind chomping? with
      | some ch => (⟨ch, some n⟩, cs.drop 2)
      | none => (⟨.clip, some n⟩, cs.drop 1)
    | none, none => (⟨.clip, none⟩, cs)
  match rest.dropWhile isWhite with
  | [] | '#' :: _ => some h
  | _ => none

/-- The most blanks before anything but the end of a line, up to the first line that is not blank.
Fails where a tab stands behind them. -/
def detectIndent? : List Line → Option Nat
  | [] => some 0
  | l :: ls =>
    let n := (l.text.takeWhile (· = ' ')).length
    match l.text.drop n, l.ending with
    | '\t' :: _, _ => none
    | [], some _ => (detectIndent? ls).map (max n)
    | _, _ => some n

/-- What of a block has been read and not yet been written: the last break, whether the line before
it began with white space, and the blank lines behind it. -/
structure Pending where
  last : List Char
  spaced : Bool
  blank : List Char

/-- What joins two lines of a block. In a folded block a single break between lines that begin with
a word is a blank. -/
def Pending.joint (p : Pending) (folded spaced : Bool) : List Char :=
  if folded ∧ p.last = ['\n'] ∧ !p.spaced ∧ !spaced then
    if p.blank = [] then [' '] else p.blank
  else p.last ++ p.blank

/-- The text of a block with a known indentation, what is pending at its end, and the lines behind
it. -/
def blockBody? (folded : Bool) (indent : Nat) (p : Pending) :
    List Line → Option (List Char × Pending × List Line)
  | [] => some ([], p, [])
  | l :: ls =>
    let n := ((l.text.take indent).takeWhile (· = ' ')).length
    match l.text.drop n, l.ending with
    | [], some b => blockBody? folded indent { p with blank := p.blank ++ [b] } ls
    | [], none => some ([], p, l :: ls)
    | c :: text, ending =>
      if n < indent then
        if c = '\t' then none else some ([], p, l :: ls)
      else do
        let (more, q, rest) ← blockBody? folded indent ⟨ending.toList, isWhite c, []⟩ ls
        some (p.joint folded (isWhite c) ++ c :: text ++ more, q, rest)

/-- A block behind its mark, and what follows. `parent` is the indentation of what holds it, `-1`
for a whole document. -/
def block? (folded : Bool) (parent : Int) (cs : List Char) : Option (List Char × List Char) :=
  match lines cs with
  | [] => none
  | first :: ls => do
    let h ← header? first.text
    let indent ← match h.indent with
      | some n => some (if parent < 0 then n else parent.toNat + n)
      | none => (detectIndent? ls).map fun n => max n (max (parent + 1).toNat 1)
    let (text, p, rest) ← blockBody? folded indent ⟨[], false, []⟩ ls
    let tail := match h.chomping with
      | .strip => []
      | .clip => p.last
      | .keep => p.last ++ p.blank
    some (text ++ tail, joinLines rest)

end Wireframe.Yaml
