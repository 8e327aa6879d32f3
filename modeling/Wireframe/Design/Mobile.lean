import Wireframe.Design.Dimension
import Wireframe.Design.Length
import Wireframe.Design.Scales
import Wireframe.Kind

/-!
# Designs for touch screens

On a small screen spacings and text shrink, and lines move apart to make up for it. A value that
is no length or no number stays as it is.
-/

namespace Wireframe.Design

/-- What spacings are multiplied by. -/
def mobileSpacing : Float := 0.75

/-- The size of body text on a small screen. -/
def mobileFontSize : Float := 15

/-- What is added to the heights of lines. -/
def mobileLineHeight : Float := 0.1

/-- A value on a small screen, if it changes there. -/
def compressed? (token value : String) : Option String :=
  if Text.startsWith token "spacing-" then
    (parsePx? value).map fun x => px (x * mobileSpacing)
  else if Text.startsWith token "font-size-" then
    (parsePx? value).map fun x => px (x * (mobileFontSize / baseFontSize))
  else if Text.startsWith token "line-height-" then
    (Decimal.read? value.toList).map fun x => Decimal.plainText (round2 (x + mobileLineHeight))
  else none

/-- The token for the least extent of what is touched. -/
def touchTarget : String × String := ("touch-target-min", "44px")

/-- The tokens of a design on a small screen. -/
def Tokens.compress (t : Tokens) : Tokens :=
  (t.mapValues fun k v => (compressed? k v).getD v).insert touchTarget.1 touchTarget.2

/-- The classes by which an element that can be pressed answers to touch. -/
def touchClasses : Platform → List String
  | .mobile =>
    ["active:scale-95", "active:opacity-80", "transition-transform", "duration-150", "select-none",
      "touch-manipulation"]
  | .web => []

end Wireframe.Design
