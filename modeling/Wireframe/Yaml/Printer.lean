import Wireframe.Decimal.Reading
import Wireframe.Yaml.Basic

/-!
# Writing YAML texts

Mappings are written as blocks, one member a line. A text is written plainly where it reads back as
that text, and else between single quotes; as a literal block where it has several lines; and
between double quotes, with escapes, where nothing else can hold it.
-/

namespace Wireframe.Yaml

/-- Whether a text looks like an integer of up to 128 bits. -/
def looksInteger (s : String) : Bool :=
  (natOf? s).any (· < 1 <<< 128) ||
    match s.toList with
    | '-' :: cs => (based? cs).any (· ≤ 1 <<< 127)
    | _ => false

/-- Whether a text looks like a finite number, or like the name of one that is not finite. -/
def looksFloat (s : String) : Bool :=
  let unsigned := match s.toList with
    | '+' :: cs => cs
    | cs => cs
  let signed := unsigned.length < s.toList.length
  s ∈ [".nan", ".NaN", ".NAN", "-.inf", "-.Inf", "-.INF"] ||
    String.ofList unsigned ∈ [".inf", ".Inf", ".INF"] ||
    (!(signed && unsigned.head?.any fun c => c = '+' || c = '-') &&
      (Decimal.read? unsigned).any Float.isFinite)

/-- Words that some readers take for truth values. -/
def truthWords : List String :=
  ["y", "Y", "yes", "Yes", "YES", "n", "N", "no", "No", "NO", "true", "True", "TRUE", "false",
    "False", "FALSE", "on", "On", "ON", "off", "Off", "OFF"]

/-- Whether a text would be read as something else if it were written plainly. -/
def looksSpecial (s : String) : Bool :=
  s = "" || isNull s || paddedDigits s.toList || looksInteger s || looksFloat s

/-- Whether a character is written as itself. -/
def isPrintable (c : Char) : Bool :=
  let n := c.toNat
  n = 10 || (32 ≤ n && n ≤ 126) || (0xa0 ≤ n && n ≠ 0xfeff && n ≠ 0xfffe && n ≠ 0xffff)

/-- A character that ends a line in one of the ways there are. -/
def endsLine (c : Char) : Bool :=
  isBreak c || c = '\r' || c = '\u0085'

def blankOrEnd (c : Option Char) : Bool :=
  c.all fun c => isWhite c || endsLine c

/-- Whether a character begins no plain text. -/
def marksStart (c : Char) (next : Option Char) : Bool :=
  c ∈ "#,[]\x7b\x7d&*!|>'\"%@`".toList || (c ∈ ['?', ':', '-'] && blankOrEnd next)

/-- Whether a mark stands inside a text, behind a given character. -/
def marksInside (before : Char) : List Char → Bool
  | [] => false
  | c :: cs =>
    (c = ':' && blankOrEnd cs.head?) || (c = '#' && blankOrEnd (some before)) || marksInside c cs

/-- Whether two characters in a row are of two kinds. -/
def adjacent (p q : Char → Bool) : List Char → Bool
  | c :: d :: cs => (p c && q d) || adjacent p q (d :: cs)
  | _ => false

def isSpace (c : Char) : Bool := c = ' '

/-- Whether a text can be written neither between single quotes nor in lines of its own. -/
def needsEscapes (cs : List Char) : Bool :=
  cs.any (fun c => !isPrintable c) || adjacent isSpace endsLine cs

/-- Whether a text can be written between single quotes. -/
def quotable (cs : List Char) : Bool :=
  !needsEscapes cs && !adjacent endsLine isSpace cs

/-- Whether a text can be written in lines of its own. -/
def blockable (cs : List Char) : Bool :=
  !needsEscapes cs && !cs.getLast?.any isSpace

/-- Whether a text can be written without marks. -/
def plainable (cs : List Char) : Bool :=
  quotable cs && !cs.any endsLine && !cs.head?.any isSpace && !cs.getLast?.any isSpace &&
    !(['-', '-', '-'].isPrefixOf cs || ['.', '.', '.'].isPrefixOf cs) &&
    match cs with
    | [] => true
    | c :: cs => !marksStart c cs.head? && !marksInside c cs

/-- The ways to write a scalar. -/
inductive Form where
  | plain
  | single
  | double
  | literal
deriving DecidableEq

/-- How a text is written. -/
def form (s : String) : Form :=
  let cs := s.toList
  let quotes := if quotable cs then Form.single else .double
  if s ∈ truthWords then quotes
  else if '\n' ∈ cs then if blockable cs then .literal else .double
  else if looksSpecial s then quotes
  else if plainable cs then .plain
  else quotes

def blanks (n : Nat) : List Char :=
  List.replicate n ' '

/-- Text in lines: each begins with so many blanks, unless it is empty. -/
def indented (indent : Nat) (lineStart : Bool) : List Char → List Char
  | [] => []
  | c :: cs =>
    if isBreak c then c :: indented indent true cs
    else (if lineStart then blanks indent else []) ++ c :: indented indent false cs

/-- A text between single quotes; lines behind its breaks are indented. -/
def singleQuoted (indent : Nat) (cs : List Char) : List Char :=
  let body := indented indent false (cs.flatMap fun c => if c = '\'' then ['\'', '\''] else [c])
  '\'' :: body ++ (if cs.getLast?.any isBreak then blanks indent else []) ++ ['\'']

/-- A character between double quotes. -/
def escapedChar (c : Char) : List Char :=
  if isPrintable c && !isBreak c && c ≠ '"' && c ≠ '\\' then [c]
  else
    let n := c.toNat
    let digits (width : Nat) := (Text.hexDigits width n).map Char.toUpper
    '\\' :: match escapes.find? (·.2 = c) with
      | some (letter, _) => [letter]
      | none =>
        if n < 0x100 then 'x' :: digits 2
        else if n < 0x10000 then 'u' :: digits 4
        else 'U' :: digits 8

def doubleQuoted (cs : List Char) : List Char :=
  '"' :: cs.flatMap escapedChar ++ ['"']

/-- What stands behind the mark of a literal block: its indentation where it begins with white
space, and how its last breaks are kept. -/
def literalHints (indent : Nat) (cs : List Char) : List Char :=
  let width := if cs.head?.any fun c => isSpace c || endsLine c then (toString indent).toList else []
  let chomping := match cs.reverse with
    | [] => ['-']
    | c :: before =>
      if !endsLine c then ['-'] else if before.head?.all endsLine then ['+'] else []
  width ++ chomping

/-- How far the members of a mapping are indented inside another. -/
def step : Nat := 2

/-- A scalar inside something that is indented so far, and the end of its line. -/
def scalarLines (indent : Nat) (s : String) : List Char :=
  let cs := s.toList
  match form s with
  | .plain => cs ++ ['\n']
  | .single => singleQuoted (indent + step) cs ++ ['\n']
  | .double => doubleQuoted cs ++ ['\n']
  | .literal =>
    '|' :: literalHints step cs ++ '\n' :: indented (indent + step) true cs ++
      if cs.getLast?.any isBreak then [] else ['\n']

/-- The most bytes of a key that stands in one line with its value. -/
def keyLimit : Nat := 128

/-- The key of a member that is indented so far, up to its value. -/
def keyLines (indent : Nat) (key : String) : List Char :=
  if key.toList.any endsLine || keyLimit < key.utf8ByteSize then
    blanks indent ++ ['?', ' '] ++ scalarLines indent key ++ blanks indent ++ [':']
  else blanks indent ++ (scalarLines indent key).dropLast ++ [':']

/-- A member whose value is a text. -/
def textMember (indent : Nat) (key value : String) : String :=
  String.ofList (keyLines indent key ++ ' ' :: scalarLines indent value)

/-- A member whose value is a number. -/
def numberMember (indent : Nat) (key : String) (value : Nat) : String :=
  String.ofList (keyLines indent key) ++ s!" {value}\n"

/-- A member whose value is a mapping from texts to texts. -/
def tableMember (indent : Nat) (key : String) (t : Table String) : String :=
  if t.entries = [] then String.ofList (keyLines indent key) ++ " \x7b\x7d\n"
  else
    String.ofList (keyLines indent key) ++ "\n" ++
      String.join (t.entries.map fun (k, v) => textMember (indent + step) k v)

end Wireframe.Yaml
