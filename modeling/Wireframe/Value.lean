/-!
# Values of attributes and props
-/

namespace Wireframe

/-- A value is a truth value, a number or a text. -/
inductive Value where
  | bool (b : Bool)
  | number (x : Float)
  | text (s : String)
deriving DecidableEq, Inhabited

/-- The text of a value that is one. -/
def Value.text? : Value → Option String
  | .text s => some s
  | _ => none

end Wireframe
