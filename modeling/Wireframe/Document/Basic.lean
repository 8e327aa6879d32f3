import Wireframe.Kind
import Wireframe.Table
import Wireframe.Tree
import Wireframe.Value

/-!
# Documents

A document is what a renderer gets: a forest of components, the platform it is meant for, and the
entries of the bottom navigation if it has one.
-/

namespace Wireframe

structure Component where
  kind : Kind
  id : String
  props : Table Value
deriving DecidableEq

structure Document where
  children : List (Tree Component)
  platform : Platform
  navigation : Option (List String)
deriving DecidableEq

namespace Document

/-- Every component with what is below it, in source order. -/
def nodes (d : Document) : List (Tree Component) :=
  d.children.flatMap Tree.walk

/-- The first component with a given id. -/
def find? (d : Document) (id : String) : Option (Tree Component) :=
  d.nodes.find? fun t => t.value.id = id

/-- The number of components. -/
def size (d : Document) : Nat :=
  d.nodes.length

end Document

end Wireframe
