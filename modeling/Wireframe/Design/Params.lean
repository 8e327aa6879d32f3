import Wireframe.Design.Hash
import Wireframe.Design.Mobile
import Wireframe.Design.Palette
import Wireframe.Json.Printer

/-!
# What a design is made from

A design is a function of the context it is for, the session it belongs to, the platform and the
values that are set by hand. The hash of context and session selects a category in every dimension,
each category expands into its tokens, a small screen compresses them, and the values set by hand
come last.
-/

namespace Wireframe.Design

structure Params where
  context : String
  session : Option String := none
  platform : Platform := .web
  /-- The values set by hand. -/
  overrides : Table String := .empty
deriving Repr, DecidableEq

namespace Params

def hash (p : Params) : UInt64 :=
  designHash p.context p.session

def categories (p : Params) : Categories :=
  .select p.context p.hash

/-- The tokens of every dimension, before the platform and the values set by hand. -/
def expanded (p : Params) : List (String × String) :=
  let c := p.categories
  c.density.tokens ++ c.typeScale.tokens c.scene ++ c.shape.tokens ++ c.ornament.tokens ++
    (Palette.make c.scene c.hueBits p.hash).tokens

/-- The tokens on the platform, before the values set by hand. -/
def derived (p : Params) : Tokens :=
  let tokens := Table.ofList p.expanded
  match p.platform with
  | .web => tokens
  | .mobile => Tokens.compress tokens

/-- The tokens of a design. -/
def tokens (p : Params) : Tokens :=
  p.derived.insertAll p.overrides.entries

end Params

namespace Tokens

def toJson (t : Tokens) : Json :=
  .obj (t.entries.map fun (k, v) => (k, .str v))

/-- The length that a token is, in pixels. -/
def px? (t : Tokens) (token : String) : Option Float :=
  (t.get? token).bind parsePx?

end Tokens

end Wireframe.Design
