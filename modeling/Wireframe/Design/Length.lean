import Wireframe.Decimal.Notation
import Wireframe.Decimal.Reading

/-!
# Lengths in pixels
-/

namespace Wireframe.Design

/-- A number with two places behind the point; a half is rounded away from zero. -/
def round2 (x : Float) : Float :=
  (x * 100).round / 100

/-- The text of a length, which has two places behind the point at most. -/
def px (x : Float) : String :=
  Decimal.plainText (round2 x) ++ "px"

/-- The length that a text writes: a number, blanks around it or not, and `px`. -/
def parsePx? (s : String) : Option Float :=
  let cs := s.toList
  let unit := "px".toList
  if unit.isSuffixOf cs then
    Decimal.read? (Text.trimEnd (Text.trimStart (cs.take (cs.length - unit.length))))
  else none

end Wireframe.Design
