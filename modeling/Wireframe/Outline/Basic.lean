import Wireframe.Diagnostic
import Wireframe.Tree
import Wireframe.Value

/-!
# Outlines

An outline is what a source text says, tag by tag, before any of it is understood: a forest whose
nodes carry a tag as it was written and everything that was written for it.
-/

namespace Wireframe

/-- An entry of a layout block or of an attribute list, with its key as written. -/
structure Attribute where
  key : String
  value : Value
  location : Location
deriving DecidableEq

/-- What follows the colon in the bracket of a tag. -/
inductive Payload where
  | none
  | id (written : String)
  | literal (text : String)
deriving DecidableEq, Inhabited

structure Element where
  /-- The tag as written; empty where it is missing. -/
  tag : String
  payload : Payload
  /-- The entries of layout blocks, in source order. -/
  layout : List Attribute
  /-- The entries of attribute lists, in source order. -/
  attributes : List Attribute
  content : Option String
  location : Location
deriving DecidableEq

/-- An element for which nothing is written but its bracket. -/
def Element.bare (tag : String) (payload : Payload) (location : Location) : Element :=
  ⟨tag, payload, [], [], none, location⟩

/-- A forest of elements. -/
abbrev Outline := List (Tree Element)

end Wireframe
