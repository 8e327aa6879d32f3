/-!
# JSON values

A value keeps the order of its members. A number is kept as an integer where it is written as one
and fits in 64 bits, and as a double otherwise. `malformed` is a string whose escapes denote no
text: it may be read over, but it is no value of anything.
-/

namespace Wireframe

inductive Json where
  | null
  | bool (b : Bool)
  | int (n : Int)
  | float (x : Float)
  | str (s : String)
  | malformed
  | arr (items : List Json)
  | obj (members : List (String × Json))
deriving Inhabited

namespace Json

/-- The value of the only member with a given name; none when there is no such member or more
than one. -/
def member? (name : String) (members : List (String × Json)) : Option Json :=
  match members.filter (·.1 = name) with
  | [(_, v)] => some v
  | _ => none

/-- Whether a name stands for at most one member. -/
def unrepeated (name : String) (members : List (String × Json)) : Bool :=
  (members.filter (·.1 = name)).length ≤ 1

def str? : Json → Option String
  | str s => some s
  | _ => none

/-- The double that a number is; none for one that no finite double is near. -/
def float? : Json → Option Float
  | int n => some (Float.ofInt n)
  | float x => if x.isFinite then some x else none
  | _ => none

end Json

end Wireframe
