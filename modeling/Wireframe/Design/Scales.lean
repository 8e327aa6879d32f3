import Wireframe.Design.Category
import Wireframe.Design.Length

/-!
# The dimensions without colour

The tokens that the categories of spacing, typography, shape and ornamentation expand to. Each
expansion is a list of names and values in which no name occurs twice.
-/

namespace Wireframe.Design

/-- The unit that spacings are multiples of. -/
def Density.unit : Density → Float
  | compact => 3
  | normal => 4
  | spacious => 5

/-- The multiples of the unit, from the smallest spacing to the largest. -/
def spacingSteps : List (String × Float) :=
  [("xs", 1), ("sm", 2), ("md", 4), ("lg", 6), ("xl", 8), ("2xl", 12)]

def Density.tokens (d : Density) : List (String × String) :=
  ("spacing-density", d.name) :: ("spacing-unit", px d.unit) ::
    spacingSteps.map fun (name, factor) => ("spacing-" ++ name, px (d.unit * factor))

/-- The size of body text. -/
def baseFontSize : Float := 16

/-- The powers of the ratio that the sizes of text are. -/
def fontSizes : List (String × Int) :=
  [("xs", -2), ("sm", -1), ("base", 0), ("lg", 1), ("xl", 2), ("2xl", 3), ("3xl", 4)]

def lineHeights : List (String × Float) :=
  [("tight", 1.25), ("normal", 1.5), ("relaxed", 1.75)]

/-- A product of powers of `x` by squaring: `r · x ^ n`, rounded at every step. -/
def powerFrom (r x : Float) (n : Nat) : Float :=
  let r := if n % 2 = 1 then r * x else r
  if _h : n / 2 = 0 then r else powerFrom r (x * x) (n / 2)
termination_by n

/-- A whole power. -/
def power (x : Float) (n : Int) : Float :=
  let p := powerFrom 1 x n.natAbs
  if n < 0 then 1 / p else p

def Scene.bodyFont : Scene → String
  | professional => "Inter, \"Helvetica Neue\", Arial, sans-serif"
  | playful => "Nunito, \"Segoe UI\", sans-serif"
  | elegant => "\"Source Sans 3\", \"Helvetica Neue\", sans-serif"
  | energetic => "\"DM Sans\", \"Segoe UI\", sans-serif"

def Scene.headingFont : Scene → String
  | professional => "Inter, \"Helvetica Neue\", Arial, sans-serif"
  | playful => "\"Baloo 2\", Nunito, sans-serif"
  | elegant => "\"Playfair Display\", Georgia, serif"
  | energetic => "Montserrat, \"Arial Black\", sans-serif"

def Scene.headingWeight : Scene → String
  | professional => "600"
  | playful => "800"
  | elegant => "500"
  | energetic => "800"

def TypeScale.tokens (s : TypeScale) (scene : Scene) : List (String × String) :=
  [("type-scale", s.name), ("type-scale-ratio", Decimal.plainText s.ratio)] ++
    (fontSizes.map fun (name, n) => ("font-size-" ++ name, px (baseFontSize * power s.ratio n))) ++
    (lineHeights.map fun (name, h) => ("line-height-" ++ name, Decimal.plainText h)) ++
    [("font-family-body", scene.bodyFont), ("font-family-heading", scene.headingFont),
      ("font-family-mono", "\"JetBrains Mono\", Menlo, monospace"), ("font-weight-body", "400"),
      ("font-weight-heading", scene.headingWeight)]

/-- The small, the middle and the large radius of corners. -/
def ShapeStyle.radii : ShapeStyle → Float × Float × Float
  | sharp => (0, 2, 4)
  | soft => (4, 6, 8)
  | rounded => (8, 12, 16)
  | pill => (12, 16, 24)

def ShapeStyle.tokens (s : ShapeStyle) : List (String × String) :=
  let (sm, md, lg) := s.radii
  [("radius-style", s.name), ("radius-sm", px sm), ("radius-md", px md), ("radius-lg", px lg),
    ("radius-full", "9999px"), ("radius-button", if s = .pill then "9999px" else px md),
    ("radius-input", px md), ("radius-card", px lg)]

/-- The small, the middle and the large shadow. -/
def Ornament.shadows : Ornament → String × String × String
  | none => ("none", "none", "none")
  | subtle =>
    ("0 1px 2px rgba(0, 0, 0, 0.05)", "0 2px 6px rgba(0, 0, 0, 0.08)",
      "0 8px 24px rgba(0, 0, 0, 0.10)")
  | rich =>
    ("0 2px 4px rgba(0, 0, 0, 0.10)", "0 6px 16px rgba(0, 0, 0, 0.14)",
      "0 16px 40px rgba(0, 0, 0, 0.18)")

/-- The width of borders, the blur and the kind of gradient. -/
def Ornament.effects : Ornament → String × String × String
  | none => ("1px", "0px", "none")
  | subtle => ("1px", "4px", "none")
  | rich => ("2px", "12px", "linear")

def Ornament.tokens (o : Ornament) : List (String × String) :=
  let (sm, md, lg) := o.shadows
  let (border, blur, gradient) := o.effects
  [("ornament-level", o.name), ("shadow-sm", sm), ("shadow-md", md), ("shadow-lg", lg),
    ("border-width", border), ("ornament-blur", blur), ("ornament-gradient", gradient)]

end Wireframe.Design
