import Wireframe.Yaml.Scalar

/-!
# Tokens of YAML texts

A text is read into the marks of its collections, its scalars and their properties. The indentation
of lines tells where a block collection starts and ends. Whether something is the key of a mapping
shows only by the colon behind it; it must then stand in one line, and the marks that make it a key
are put in front of it afterwards.
-/

namespace Wireframe.Yaml

inductive Token where
  | version (major minor : Nat)
  | handle (name replacement : String)
  | documentStart
  | documentEnd
  | blockSequence
  | blockMapping
  | blockEnd
  | openSequence
  | closeSequence
  | openMapping
  | closeMapping
  | item
  | comma
  | key
  | value
  | alias (name : String)
  | anchor (name : String)
  | tag (handle rest : String)
  | scalar (s : Scalar)
deriving Repr, DecidableEq

namespace Token

/-- Something that is a key if a colon comes behind it. -/
structure Candidate where
  /-- The number of tokens before it. -/
  before : Nat
  line : Nat
  column : Nat
  /-- The number of characters before it. -/
  offset : Nat
  /-- Whether it can be nothing but a key, since it begins a line of a mapping. -/
  required : Bool

structure Scanner where
  rest : List Char
  line : Nat := 0
  column : Nat := 0
  /-- The number of characters before `rest`. -/
  offset : Nat := 0
  tokens : Array Token := #[]
  /-- The column of the innermost block collection, `-1` outside of all, and those around it. -/
  indent : Int := -1
  outer : List Int := []
  /-- The possible key in each open flow collection, and outside of all. -/
  candidate : Option Candidate := none
  outerCandidates : List (Option Candidate) := []
  /-- Whether a key may start here. -/
  keyAllowed : Bool := true

namespace Scanner

def inFlow (s : Scanner) : Bool :=
  s.outerCandidates ≠ []

/-- Moves behind the characters before `rest`. -/
def moveTo (s : Scanner) (rest : List Char) : Scanner :=
  let passed := s.rest.take (s.rest.length - rest.length)
  let lastLine := (passed.reverse.takeWhile fun c => !isBreak c).length
  let breaks := passed.countP isBreak
  { s with
    rest
    line := s.line + breaks
    column := if breaks = 0 then s.column + passed.length else lastLine
    offset := s.offset + passed.length }

def push (s : Scanner) (t : Token) : Scanner :=
  { s with tokens := s.tokens.push t }

/-- Puts a token behind the first `n`. -/
def insertAt (s : Scanner) (n : Nat) (t : Token) : Scanner :=
  { s with tokens := s.tokens.insertIdxIfInBounds n t }

/-- Drops the possible key; fails if it can be nothing else. -/
def dropCandidate (s : Scanner) : Option Scanner :=
  if s.candidate.any (·.required) then none else some { s with candidate := none }

/-- Notes that what starts here may be a key. -/
def noteCandidate (s : Scanner) : Option Scanner :=
  if s.keyAllowed then do
    let s ← s.dropCandidate
    some { s with
      candidate := some
        { before := s.tokens.size
          line := s.line
          column := s.column
          offset := s.offset
          required := !s.inFlow && s.indent = s.column } }
  else some s

/-- The most characters that a key may have. -/
def keyLimit : Nat := 1024

/-- Drops a possible key that is too long or of a line before this. -/
def dropStale (s : Scanner) : Option Scanner :=
  match s.candidate with
  | some c => if c.line < s.line ∨ c.offset + keyLimit < s.offset then s.dropCandidate else some s
  | none => some s

/-- Opens a block collection behind the first `n` tokens where a column is further in. -/
def indentTo (s : Scanner) (column n : Nat) (t : Token) : Scanner :=
  if s.inFlow ∨ (column : Int) ≤ s.indent then s
  else { s.insertAt n t with indent := column, outer := s.indent :: s.outer }

/-- Closes collections around one from the innermost on, as long as they are further in. -/
def unindent (column indent : Int) (tokens : Array Token) :
    List Int → Array Token × Int × List Int
  | [] => (tokens, indent, [])
  | i :: outer =>
    if column < indent then unindent column i (tokens.push .blockEnd) outer
    else (tokens, indent, i :: outer)

/-- Closes the block collections that are further in than a column. -/
def unindentTo (s : Scanner) (column : Int) : Scanner :=
  if s.inFlow then s
  else
    let (tokens, indent, outer) := unindent column s.indent s.tokens s.outer
    { s with tokens, indent, outer }

/-- What follows the white space, the comments and the breaks at the start of a text, and whether a
key may start there. Tabs count as white space only where no key may start. -/
def skipped (flow comment keyAllowed : Bool) : List Char → List Char × Bool
  | [] => ([], keyAllowed)
  | c :: cs =>
    if isBreak c then skipped flow false (keyAllowed || !flow) cs
    else if comment || c = ' ' || (c = '\t' && (flow || !keyAllowed)) then
      skipped flow comment keyAllowed cs
    else if c = '#' then skipped flow true keyAllowed cs
    else (c :: cs, keyAllowed)

/-- A mark of one character that opens or closes nothing. -/
def mark (s : Scanner) (t : Token) : Scanner :=
  (s.moveTo (s.rest.drop 1)).push t

/-- The mark of the start or the end of a document. -/
def documentMark (s : Scanner) (t : Token) : Option Scanner := do
  let s ← (s.unindentTo (-1)).dropCandidate
  some ({ s with keyAllowed := false }.moveTo (s.rest.drop 3) |>.push t)

/-- A character of a name. -/
def inName (c : Char) : Bool :=
  c.isAlphanum || c = '_' || c = '-'

/-- Whether nothing but a comment comes before the end of the line. -/
def restOfLineBlank (cs : List Char) : Bool :=
  match cs.dropWhile isWhite with
  | [] => true
  | c :: _ => c = '#' || isBreak c

/-- The version that a directive names. -/
def version? (cs : List Char) : Option Token := do
  let major := cs.takeWhile Char.isDigit
  let '.' :: cs := cs.dropWhile Char.isDigit | none
  let minor := cs.takeWhile Char.isDigit
  if major = [] ∨ minor = [] ∨ 9 < major.length ∨ 9 < minor.length ∨
      !restOfLineBlank (cs.dropWhile Char.isDigit) then none
  else some (.version (Text.decimalNumber major) (Text.decimalNumber minor))

/-- The handle of a tag: `!`, or a name between two of them. -/
def handle? (cs : List Char) : Option (List Char × List Char) :=
  match cs with
  | '!' :: cs =>
    let name := cs.takeWhile inName
    match cs.dropWhile inName with
    | '!' :: rest => some ('!' :: name ++ ['!'], rest)
    | _ => some (['!'], cs)
  | _ => none

/-- The handle that a directive defines, and what it stands for. -/
def handleDirective? (cs : List Char) : Option Token := do
  let (name, cs) ← handle? cs
  let replacement := (cs.dropWhile isWhite).takeWhile fun c => !isWhite c && !isBreak c
  let rest := (cs.dropWhile isWhite).dropWhile fun c => !isWhite c && !isBreak c
  if !startsBlank cs ∨ replacement = [] ∨ !restOfLineBlank rest then none
  else some (.handle (String.ofList name) (String.ofList replacement))

/-- A directive, which takes a line. -/
def directive (s : Scanner) : Option Scanner := do
  let s ← (s.unindentTo (-1)).dropCandidate
  let body := s.rest.drop 1
  let name := body.takeWhile inName
  let arguments := (body.dropWhile inName).dropWhile isWhite
  if !startsBlank (body.dropWhile inName) then none
  let t ←
    if name = "YAML".toList then version? arguments
    else if name = "TAG".toList then handleDirective? arguments
    else none
  some ({ s with keyAllowed := false }.moveTo (s.rest.dropWhile fun c => !isBreak c) |>.push t)

/-- The start of a collection within a line. -/
def openFlow (s : Scanner) (t : Token) : Option Scanner := do
  let s ← s.noteCandidate
  some { s.mark t with
    candidate := none
    outerCandidates := s.candidate :: s.outerCandidates
    keyAllowed := true }

/-- The end of a collection within a line. -/
def closeFlow (s : Scanner) (t : Token) : Option Scanner := do
  let s ← s.dropCandidate
  match s.outerCandidates with
  | c :: outer =>
    some { s.mark t with candidate := c, outerCandidates := outer, keyAllowed := false }
  | [] => some { s.mark t with keyAllowed := false }

def comma (s : Scanner) : Option Scanner := do
  let s ← s.dropCandidate
  some { s.mark .comma with keyAllowed := true }

/-- The mark of an item of a block sequence. -/
def item (s : Scanner) : Option Scanner :=
  if !s.inFlow && !s.keyAllowed then none
  else do
    let s ← (s.indentTo s.column s.tokens.size .blockSequence).dropCandidate
    some { s.mark .item with keyAllowed := true }

/-- The mark of a key that need not stand in one line. -/
def key (s : Scanner) : Option Scanner :=
  if !s.inFlow && !s.keyAllowed then none
  else do
    let s ← (s.indentTo s.column s.tokens.size .blockMapping).dropCandidate
    some { s.mark .key with keyAllowed := !s.inFlow }

/-- The mark of a value. A possible key before it is one. -/
def value (s : Scanner) : Option Scanner :=
  match s.candidate with
  | some c =>
    let s := (s.insertAt c.before .key).indentTo c.column c.before .blockMapping
    some { s.mark .value with candidate := none, keyAllowed := false }
  | none =>
    if !s.inFlow && !s.keyAllowed then none
    else
      let s := s.indentTo s.column s.tokens.size .blockMapping
      some { s.mark .value with keyAllowed := !s.inFlow }

/-- The name behind the mark of an anchor or an alias. -/
def named (s : Scanner) (make : String → Token) : Option Scanner := do
  let s ← s.noteCandidate
  let body := s.rest.drop 1
  let name := body.takeWhile inName
  let rest := body.dropWhile inName
  if name = [] ∨ !(startsBlank rest ∨ rest.head?.any fun c => c ∈ "?:,]\x7d%@`".toList) then none
  some ({ s with keyAllowed := false }.moveTo rest |>.push (make (String.ofList name)))

/-- A character of a tag without its handle. -/
def inTag (c : Char) : Bool :=
  inName c || c ∈ ";/?:@&=+$.!~*'()%".toList

/-- A tag; one between angle brackets has no handle. -/
def tag (s : Scanner) : Option Scanner := do
  let s ← s.noteCandidate
  let (t, rest) ← match s.rest with
    | '!' :: '<' :: cs =>
      let inAngles (c : Char) : Bool := inTag c || c ∈ [',', '[', ']']
      match cs.takeWhile inAngles, cs.dropWhile inAngles with
      | c :: name, '>' :: rest => some (Token.tag "" (String.ofList (c :: name)), rest)
      | _, _ => none
    | cs => do
      let (start, cs) ← handle? cs
      let name := cs.takeWhile inTag
      if name = [] ∧ start ≠ ['!'] then none
      some (Token.tag (String.ofList start) (String.ofList name), cs.dropWhile inTag)
  if !(startsBlank rest ∨ s.inFlow ∧ rest.head? = some ',') then none
  some ({ s with keyAllowed := false }.moveTo rest |>.push t)

/-- A scalar in a block of lines. -/
def block (s : Scanner) (style : Style) : Option Scanner := do
  let s ← s.dropCandidate
  let (text, rest) ← block? (style = .folded) s.indent (s.rest.drop 1)
  some ({ s with keyAllowed := true }.moveTo rest |>.push (.scalar ⟨String.ofList text, style⟩))

/-- A scalar between quotes. -/
def quoted (s : Scanner) (read? : List Char → Option (List Char × List Char)) :
    Option Scanner := do
  let s ← s.noteCandidate
  let (text, rest) ← read? (s.rest.drop 1)
  some ({ s with keyAllowed := false }.moveTo rest |>.push (.scalar ⟨String.ofList text, .quoted⟩))

/-- A scalar without marks. -/
def plain (s : Scanner) : Option Scanner := do
  let s ← s.noteCandidate
  let (text, broken, rest) ← plain? s.inFlow (s.indent + 1).toNat s.rest
  some ({ s with keyAllowed := broken }.moveTo rest |>.push (.scalar ⟨String.ofList text, .plain⟩))

/-- The characters that begin no plain scalar. -/
def reserved : List Char := "-?:,[]\x7b\x7d#&*!|>'\"%@`".toList

/-- Whether a plain scalar may begin with a character. -/
def beginsPlain (flow : Bool) (c : Char) (cs : List Char) : Bool :=
  c ∉ reserved || (c = '-' && !cs.head?.any isWhite) ||
    (!flow && (c = '?' || c = ':') && !startsBlank cs)

/-- The token that begins with a character. -/
def next (s : Scanner) (c : Char) (cs : List Char) : Option Scanner :=
  if s.column = 0 && c = '%' then s.directive
  else if s.column = 0 && c = '-' && atMarker (c :: cs) then s.documentMark .documentStart
  else if s.column = 0 && c = '.' && atMarker (c :: cs) then s.documentMark .documentEnd
  else if c = '[' then s.openFlow .openSequence
  else if c = '\x7b' then s.openFlow .openMapping
  else if c = ']' then s.closeFlow .closeSequence
  else if c = '\x7d' then s.closeFlow .closeMapping
  else if c = ',' then s.comma
  else if c = '-' && startsBlank cs then s.item
  else if c = '?' && (s.inFlow || startsBlank cs) then s.key
  else if c = ':' && (s.inFlow || startsBlank cs) then s.value
  else if c = '*' then s.named .alias
  else if c = '&' then s.named .anchor
  else if c = '!' then s.tag
  else if c = '|' && !s.inFlow then s.block .literal
  else if c = '>' && !s.inFlow then s.block .folded
  else if c = '\'' then s.quoted singleQuoted?
  else if c = '"' then s.quoted doubleQuoted?
  else if beginsPlain s.inFlow c cs then s.plain
  else none

/-- Reads so many tokens, or to the end of the text. -/
def run (s : Scanner) : Nat → Option (List Token)
  | 0 => none
  | n + 1 => do
    let (rest, keyAllowed) := skipped s.inFlow false s.keyAllowed s.rest
    let s ← ({ s with keyAllowed }.moveTo rest).dropStale
    match rest with
    | [] => do
      let s ← (s.unindentTo (-1)).dropCandidate
      some s.tokens.toList
    | c :: cs => do
      let s ← (s.unindentTo s.column).next c cs
      run s n

end Scanner

/-- The tokens of a text. Each takes one character or more. -/
def ofText? (s : String) : Option (List Token) := do
  let cs ← characters? s
  ({ rest := cs } : Scanner).run (cs.length + 1)

end Token

end Wireframe.Yaml
