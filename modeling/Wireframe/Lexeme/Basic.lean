import Wireframe.Lexeme.Quoted
import Wireframe.Split
import Wireframe.Text.Basic
import Wireframe.Decimal.Reading

/-!
# Lexemes

Every line of a source text is made of lexemes whose texts, put together, are the line. Most lexemes
are tokens; blanks, comments and characters that begin nothing are not, and an `indent` is a token
without text. A line that holds no more than blanks and a comment has no `indent`, and its end is no
token. The scanner does not cut a text into lexemes: it comes upon their tokens and problems on its
way through the text.
-/

namespace Wireframe

inductive Lexeme where
  | indent (width : Nat)
  | blanks (text : List Char)
  | comment (text : List Char)
  | symbol (kind : Token.Kind) (c : Char)
  | word (text : List Char)
  | quoted (segments : List Quoted.Segment) (closed : Bool)
  | illegal (c : Char)
  /-- The end of a line; a token when the line has content. -/
  | lineEnd (content : Bool)
deriving DecidableEq

namespace Lexeme

/-- What a lexeme is written as. -/
def text : Lexeme → List Char
  | indent _ => []
  | blanks cs | comment cs | word cs => cs
  | symbol _ c | illegal c => [c]
  | quoted ss closed => '"' :: Quoted.written ss ++ if closed then ['"'] else []
  | lineEnd _ => ['\n']

/-- The characters that may lead a line without ending its indentation. -/
def isIndentation (c : Char) : Bool :=
  c = ' ' || c = '\t' || c = '\r'

/-- The characters between tokens that mean nothing. -/
def isSpacing (c : Char) : Bool :=
  c = ' ' || c = '\t' || c = '\r' || c = '\u3000'

/-- A letter, or one of the marks that may begin a word. -/
def beginsWord (c : Char) : Bool :=
  Text.isLetter c || c = '_' || c = '#' || c = '.'

/-- A letter, a numeral, or one of the marks that may stand inside a word. -/
def inWord (c : Char) : Bool :=
  Text.isLetter c || Text.isNumeral c || c = '_' || c = '-' || c = '.' || c = '#' || c = '%' ||
    c = '/'

theorem inWord_of_beginsWord {c : Char} (h : beginsWord c = true) : inWord c = true := by
  simp only [beginsWord, Bool.or_eq_true, decide_eq_true_eq] at h
  rcases h with ((letter | rfl) | rfl) | rfl
  · simp [inWord, letter]
  · rfl
  · rfl
  · rfl

/-- Whether a word begins with `c` and is followed by `next`. A dash begins one only when it is
followed by more of it. -/
def startsWord (c : Char) (next : Option Char) : Bool :=
  beginsWord c || c.isDigit || (c = '-' && next.any inWord)

/-- The token that a single character is. The full-width colon and comma are as good as their
narrow forms. -/
def symbol? : Char → Option Token.Kind
  | '[' => some .openBracket
  | ']' => some .closeBracket
  | '\x7b' => some .openBrace
  | '\x7d' => some .closeBrace
  | '(' => some .openParen
  | ')' => some .closeParen
  | ':' | '：' => some .colon
  | ',' | '，' => some .comma
  | _ => none

/-- The columns that a leading tab is worth. -/
def tabWidth : Nat := 4

/-- The columns that a character of an indentation takes. -/
def columns (c : Char) : Nat :=
  if c = ' ' then 1 else if c = '\t' then tabWidth else 0

/-- The width of leading blanks. -/
def indentation (cs : List Char) : Nat :=
  cs.foldr (fun c width => columns c + width) 0

/-- The lexeme that begins with `c` and is followed by `cs` on its line. -/
def first (c : Char) (cs : List Char) : Lexeme :=
  if isSpacing c then .blanks (c :: cs.takeWhile isSpacing)
  else if c = '/' ∧ cs.head? = some '/' then .comment (c :: cs)
  else
    match symbol? c with
    | some kind => .symbol kind c
    | none =>
      if c = '"' then
        let (segments, closed) := Quoted.scan cs
        .quoted segments closed
      else if startsWord c cs.head? then .word (c :: cs.takeWhile inWord)
      else .illegal c

/-- The lexemes of a line behind its indentation. -/
def inLine : List Char → List Lexeme
  | [] => []
  | c :: cs =>
    let l := first c cs
    l :: inLine (cs.drop (l.text.length - 1))
termination_by cs => cs.length
decreasing_by
  simp only [List.length_drop, List.length_cons]
  omega

/-- Whether what follows the indentation of a line is a comment. -/
def isComment : List Char → Bool
  | '/' :: '/' :: _ => true
  | _ => false

/-- The lexemes of a line. -/
def ofLine (cs : List Char) : List Lexeme :=
  let lead := cs.takeWhile isIndentation
  let rest := cs.dropWhile isIndentation
  let led := if lead = [] then [] else [blanks lead]
  if rest = [] then led
  else if isComment rest then led ++ [comment rest]
  else indent (indentation lead) :: led ++ inLine rest

/-- Whether a line has an indentation of its own. -/
def hasContent (ls : List Lexeme) : Bool :=
  ls.any fun l => match l with
    | indent _ => true
    | _ => false

/-- The lexemes of consecutive lines. -/
def ofLines : List (List Char) → List Lexeme
  | [] => []
  | [cs] => ofLine cs
  | cs :: lines => ofLine cs ++ lineEnd (hasContent (ofLine cs)) :: ofLines lines

/-- The lexemes of a text. -/
def ofText (cs : List Char) : List Lexeme :=
  ofLines (splitWhere (· = '\n') cs)

/-- Whether the text of a word is a number: digits, with a dash before them and a point among
them where wanted. -/
def isNumber (cs : List Char) : Bool :=
  let body := match cs with
    | '-' :: r => r
    | r => r
  let fraction := body.dropWhile Char.isDigit
  !(body.takeWhile Char.isDigit).isEmpty &&
    match fraction with
    | [] => true
    | '.' :: ds => !ds.isEmpty && ds.all Char.isDigit
    | _ => false

/-- What the text of a word makes of it: a keyword, a number or a name. -/
def wordKind (cs : List Char) : Token.Kind :=
  if cs = "ATTR".toList then .attr
  else if cs = "CONTENT".toList then .content
  else
    match if isNumber cs then Decimal.read? cs else none with
    | some x => .number x
    | none => .ident (String.ofList cs)

/-- The token that a lexeme is. -/
def kind? : Lexeme → Option Token.Kind
  | indent width => some (.indent width)
  | symbol kind _ => some kind
  | word cs => some (wordKind cs)
  | quoted ss _ => some (.str (String.ofList (Quoted.value ss)))
  | lineEnd true => some .newline
  | blanks _ | comment _ | illegal _ | lineEnd false => none

/-- What is wrong with a lexeme that begins at a place. -/
def diagnostics (p : Location) : Lexeme → List Diagnostic
  | illegal c => [⟨.illegalCharacter c, p⟩]
  | quoted ss closed =>
    Quoted.diagnostics (p.step '"') ss ++ if closed then [] else [⟨.unterminatedString, p⟩]
  | _ => []

/-- The tokens of lexemes that begin at a place, without the one that ends the input. -/
def tokens : Location → List Lexeme → List Token
  | _, [] => []
  | p, l :: ls =>
    (l.kind?.map (⟨·, String.ofList l.text, p⟩)).toList ++ tokens (p.advance l.text) ls

/-- The problems of lexemes that begin at a place. -/
def problems : Location → List Lexeme → List Diagnostic
  | _, [] => []
  | p, l :: ls => l.diagnostics p ++ problems (p.advance l.text) ls

end Lexeme

namespace Token

/-- A source text without the mark that may stand before its first character. -/
def body (source : String) : List Char :=
  match source.toList with
  | '\ufeff' :: cs => cs
  | cs => cs

end Token

end Wireframe
