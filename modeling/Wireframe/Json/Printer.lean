import Wireframe.Json.Basic
import Wireframe.Decimal.Notation
import Wireframe.Text.Classes

/-!
# JSON texts

`Json.compact` writes a value on one line without blanks. `Json.pretty` begins a line for every
item and member and indents it by two blanks for every container around it; an empty container
stays on its line. A number that is not finite is written as `null`.
-/

namespace Wireframe.Json

/-- A character inside a string: quotes, backslashes and control characters are escaped. -/
def escape (c : Char) : List Char :=
  if c = '"' then ['\\', '"']
  else if c = '\\' then ['\\', '\\']
  else if c = '\n' then ['\\', 'n']
  else if c = '\r' then ['\\', 'r']
  else if c = '\t' then ['\\', 't']
  else if c = '\x08' then ['\\', 'b']
  else if c = '\x0c' then ['\\', 'f']
  else if c.toNat < 32 then '\\' :: 'u' :: Text.hexDigits 4 c.toNat
  else [c]

/-- A text as a string literal. -/
def quote (s : String) : String :=
  String.ofList ('"' :: s.toList.flatMap escape ++ ['"'])

/-- A number that is not written as an integer. -/
def floatText (x : Float) : String :=
  (Decimal.jsonText? x).getD "null"

mutual

/-- A value without blanks. -/
def compact : Json → String
  | null | malformed => "null"
  | bool b => if b then "true" else "false"
  | int n => toString n
  | float x => floatText x
  | str s => quote s
  | arr [] => "[]"
  | arr (v :: vs) => "[" ++ compact v ++ compactItems vs
  | obj [] => "\x7b\x7d"
  | obj ((k, v) :: ms) => "\x7b" ++ quote k ++ ":" ++ compact v ++ compactMembers ms

/-- The items behind the first one, and the end of their array. -/
def compactItems : List Json → String
  | [] => "]"
  | v :: vs => "," ++ compact v ++ compactItems vs

/-- The members behind the first one, and the end of their object. -/
def compactMembers : List (String × Json) → String
  | [] => "\x7d"
  | (k, v) :: ms => "," ++ quote k ++ ":" ++ compact v ++ compactMembers ms

end

/-- The start of a line inside `depth` containers. -/
def lineStart (depth : Nat) : String :=
  String.ofList ('\n' :: List.replicate (2 * depth) ' ')

mutual

/-- A value inside `depth` containers. -/
def prettyAt (depth : Nat) : Json → String
  | null | malformed => "null"
  | bool b => if b then "true" else "false"
  | int n => toString n
  | float x => floatText x
  | str s => quote s
  | arr [] => "[]"
  | arr (v :: vs) =>
    "[" ++ lineStart (depth + 1) ++ prettyAt (depth + 1) v ++ prettyItems depth vs
  | obj [] => "\x7b\x7d"
  | obj ((k, v) :: ms) =>
    "\x7b" ++ lineStart (depth + 1) ++ quote k ++ ": " ++ prettyAt (depth + 1) v ++
      prettyMembers depth ms

/-- The items behind the first one, and the end of their array inside `depth` containers. -/
def prettyItems (depth : Nat) : List Json → String
  | [] => lineStart depth ++ "]"
  | v :: vs => "," ++ lineStart (depth + 1) ++ prettyAt (depth + 1) v ++ prettyItems depth vs

/-- The members behind the first one, and the end of their object inside `depth` containers. -/
def prettyMembers (depth : Nat) : List (String × Json) → String
  | [] => lineStart depth ++ "\x7d"
  | (k, v) :: ms =>
    "," ++ lineStart (depth + 1) ++ quote k ++ ": " ++ prettyAt (depth + 1) v ++
      prettyMembers depth ms

end

/-- A value over several lines. -/
def pretty (v : Json) : String :=
  prettyAt 0 v

end Wireframe.Json
