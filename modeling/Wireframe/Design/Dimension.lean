import Wireframe.Table
import Wireframe.Text.Basic

/-!
# Dimensions of designs

The tokens of a design are a flat table of names and values. The name of a token tells the
dimension that it belongs to, if any. A table is complete when it holds a token that is not empty
in every dimension.
-/

namespace Wireframe.Design

inductive Dimension where
  | spacing
  | typography
  | shape
  | ornamentation
  | color
deriving Repr, DecidableEq

namespace Dimension

def all : List Dimension := [spacing, typography, shape, ornamentation, color]

def name : Dimension → String
  | spacing => "spacing"
  | typography => "typography"
  | shape => "shape"
  | ornamentation => "ornamentation"
  | color => "color"

/-- What the names of the tokens of a dimension begin with. -/
def beginnings : Dimension → List String
  | spacing => ["spacing-", "touch-target-"]
  | typography => ["font-", "line-height-", "type-scale"]
  | shape => ["radius-"]
  | ornamentation => ["shadow-", "border-width", "ornament-"]
  | color => ["color-"]

/-- The dimension of a token. -/
def of? (token : String) : Option Dimension :=
  all.find? fun d => d.beginnings.any (Text.startsWith token)

end Dimension

/-- The values of design tokens by name. -/
abbrev Tokens := Table String

namespace Tokens

/-- The tokens of one dimension. -/
def inDimension (t : Tokens) (d : Dimension) : List (String × String) :=
  t.entries.filter fun e => Dimension.of? e.1 = some d

/-- The dimensions without a token that is not empty. -/
def missing (t : Tokens) : List Dimension :=
  Dimension.all.filter fun d => !(t.inDimension d).any fun e => e.2 ≠ ""

def isComplete (t : Tokens) : Bool :=
  t.missing = []

end Tokens

end Wireframe.Design
