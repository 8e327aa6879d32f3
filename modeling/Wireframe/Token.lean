import Wireframe.Location
import Wireframe.Decimal.Notation

/-!
# Tokens

The units that a source text is read as. A token keeps the text it was read from and the place
where that text begins. A line with content opens with an `indent`, which stands for the width of
its leading blanks and has no text of its own.
-/

namespace Wireframe

namespace Token

inductive Kind where
  | attr
  | content
  | ident (name : String)
  | str (value : String)
  | number (value : Float)
  | openBracket
  | closeBracket
  | openBrace
  | closeBrace
  | openParen
  | closeParen
  | colon
  | comma
  | indent (width : Nat)
  | newline
  | eof
deriving DecidableEq, Inhabited

namespace Kind

/-- What a message calls a token. -/
def describe : Kind → String
  | .attr => "'ATTR'"
  | .content => "'CONTENT'"
  | .ident name => s!"identifier '{name}'"
  | .str _ => "string literal"
  | .number x => "number " ++ Decimal.plainText x
  | .openBracket => "'['"
  | .closeBracket => "']'"
  | .openBrace => "'\x7b'"
  | .closeBrace => "'\x7d'"
  | .openParen => "'('"
  | .closeParen => "')'"
  | .colon => "':'"
  | .comma => "','"
  | .indent _ => "indentation"
  | .newline => "end of line"
  | .eof => "end of input"

/-- Whether a line is over at such a token. An `indent` only ever begins a line, so the line
before it is over. -/
def endsLine : Kind → Bool
  | .newline | .eof | .indent _ => true
  | _ => false

end Kind

end Token

structure Token where
  kind : Token.Kind
  text : String
  location : Location
deriving DecidableEq, Inhabited

namespace Token

/-- The token that stands for the end of the input at a place. -/
def eofAt (p : Location) : Token := ⟨.eof, "", p⟩

/-- The text that a token adds to a value: what it says for strings and words, what was written
for all others. -/
def valueText (t : Token) : String :=
  match t.kind with
  | .str s | .ident s => s
  | _ => t.text

/-- The texts of a run of tokens with a space between them. -/
def joined (ts : List Token) : String :=
  " ".intercalate (ts.map valueText)

end Token

end Wireframe
