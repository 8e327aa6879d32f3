import Wireframe.Table
import Wireframe.Yaml.Scalar

/-!
# YAML values

A value keeps how its scalars were written, for what a scalar stands for depends on it and on what
is asked of it: a plain `true` is a truth value or a text, a quoted one is a text. A value that is
left out is an empty plain scalar.
-/

namespace Wireframe

inductive Yaml where
  | scalar (tag : Option String) (s : Yaml.Scalar)
  | sequence (items : List Yaml)
  | mapping (members : List (Yaml × Yaml))
deriving Inhabited

namespace Yaml

/-- A value that is left out. -/
def absent (tag : Option String) : Yaml :=
  scalar tag ⟨"", .plain⟩

/-- The text of any scalar. -/
def text? : Yaml → Option String
  | scalar _ s => some s.text
  | _ => none

/-- The text of a scalar that may stand for more than a text: a plain one, or a literal block with
a given tag. -/
def resolvable? (tag : String) : Yaml → Option String
  | scalar t s =>
    if s.style = .plain ∨ s.style = .literal ∧ t = some tag then some s.text else none
  | _ => none

def boolTag : String := "tag:yaml.org,2002:bool"

def intTag : String := "tag:yaml.org,2002:int"

def nullTag : String := "tag:yaml.org,2002:null"

/-- The truth value that a text stands for. -/
def boolOf? (s : String) : Option Bool :=
  if s ∈ ["true", "True", "TRUE"] then some true
  else if s ∈ ["false", "False", "FALSE"] then some false
  else none

def bool? (y : Yaml) : Option Bool :=
  (y.resolvable? boolTag).bind boolOf?

/-- Whether a text stands for no value. -/
def isNull (s : String) : Bool :=
  s ∈ ["~", "null", "Null", "NULL"]

/-- The number that digits of a base write. -/
def digitsOf? (base : Nat) (cs : List Char) : Option Nat :=
  if cs ≠ [] ∧ cs.all fun c => Text.isHexDigit c && Text.hexValue c < base then
    some (cs.foldl (fun n c => base * n + Text.hexValue c) 0)
  else none

/-- Whether a text is more than one digit, the first of them zero. Such a text is no number. -/
def paddedDigits (cs : List Char) : Bool :=
  let ds := match cs with
    | '-' :: ds | '+' :: ds => ds
    | ds => ds
  1 < ds.length && ds.head? = some '0' && ds.all Char.isDigit

/-- The number behind the mark of its base, if there is one. -/
def based? : List Char → Option Nat
  | '0' :: 'x' :: cs => digitsOf? 16 cs
  | '0' :: 'o' :: cs => digitsOf? 8 cs
  | '0' :: 'b' :: cs => digitsOf? 2 cs
  | _ => none

/-- The natural number that a text stands for, with or without a plus sign. -/
def natOf? (s : String) : Option Nat :=
  let cs := s.toList
  let unsigned := match cs with
    | '+' :: cs => cs
    | cs => cs
  match based? unsigned with
  | some n => some n
  | none => if paddedDigits cs then none else digitsOf? 10 unsigned

/-- A number that fits in 64 bits. -/
def word? (y : Yaml) : Option UInt64 := do
  let n ← (y.resolvable? intTag).bind natOf?
  if n < UInt64.size then some n.toUInt64 else none

/-- A value that may be left out. -/
def optional? (read? : Yaml → Option α) : Yaml → Option (Option α)
  | scalar t s =>
    if s.style = .plain ∧ (t = none ∧ s.text = "" ∨ (t = none ∨ t = some nullTag) ∧ isNull s.text)
    then some none
    else if s.style = .plain ∧ t = some nullTag then none
    else (read? (scalar t s)).map some
  | y => (read? y).map some

/-- The name of one of several cases: the text of a scalar, or its own tag where no value comes
with it. -/
def caseName? : Yaml → Option String
  | scalar t s =>
    match t.map String.toList with
    | some ('!' :: name) =>
      if s.style = .plain ∧ (s.text = "" ∨ isNull s.text) then
        some (if name = [] then "!" else String.ofList name)
      else none
    | _ => some s.text
  | _ => none

/-- The members of a mapping; a value that is left out has none. -/
def members? : Yaml → Option (List (Yaml × Yaml))
  | mapping members => some members
  | scalar _ s => if s.style = .plain ∧ s.text = "" then some [] else none
  | _ => none

/-- A mapping from texts to texts; the last value of a key stays. -/
def table? (y : Yaml) : Option (Table String) := do
  let members ← y.members?
  let entries ← members.mapM fun (k, v) => do some (← k.text?, ← v.text?)
  some (.ofList entries)

/-- The values of the named fields of a record, in order; none for a field that is left out. Other
fields may stand beside them, but none of these twice. -/
def fields? (names : List String) (y : Yaml) : Option (List (Option Yaml)) := do
  let members ← y.members?
  let entries ← members.mapM fun (k, v) => k.text?.map (·, v)
  names.mapM fun name =>
    match entries.filter (·.1 = name) with
    | [] => some none
    | [(_, v)] => some (some v)
    | _ => none

/-- The value of a field, or another if the field is left out. -/
def fieldOr (value : α) (read? : Yaml → Option α) : Option Yaml → Option α
  | some y => read? y
  | none => some value

end Yaml

end Wireframe
