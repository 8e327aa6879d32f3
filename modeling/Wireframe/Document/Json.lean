import Wireframe.Document.Basic
import Wireframe.Json.Printer
import Wireframe.Json.Reader

/-!
# Documents as JSON

A document is written with its fields in a fixed order and the props of each component sorted by
their keys. Reading takes the fields in any order, passes over fields that it does not know, and
refuses a field that is missing or repeated; a record may also be an array of its fields in order.
The bottom navigation may be left out. Nesting is read down to 127 containers.
-/

namespace Wireframe.Document

def valueJson : Value → Json
  | .bool b => .bool b
  | .number x => .float x
  | .text s => .str s

def propsJson (props : Table Value) : Json :=
  .obj (props.entries.map fun (k, v) => (k, valueJson v))

mutual

def treeJson : Tree Component → Json
  | .node c ts =>
    .obj [("type", .str c.kind.name), ("id", .str c.id), ("props", propsJson c.props),
      ("children", .arr (treesJson ts))]

def treesJson : List (Tree Component) → List Json
  | [] => []
  | t :: ts => treeJson t :: treesJson ts

end

def navigationJson : Option (List String) → Json
  | none => .null
  | some entries => .arr (entries.map .str)

def toJson (d : Document) : Json :=
  .obj [("children", .arr (treesJson d.children)), ("platform", .str d.platform.name),
    ("mobileNavigation", navigationJson d.navigation)]

/-- The containers that may still be opened inside the outermost one. -/
def room : Nat := 127

/-- The values of the named fields of a record, in order; none for a field that is left out. -/
def fields? (names : List String) : Json → Option (List (Option Json))
  | .obj members =>
    if names.all (Json.unrepeated · members) then some (names.map (Json.member? · members))
    else none
  | .arr items => if items.length = names.length then some (items.map some) else none
  | _ => none

/-- A name, which may be written as the only member of an object. -/
def nameJson? (room : Nat) : Json → Option String
  | .str s => some s
  | .obj [(s, .null)] => if room = 0 then none else some s
  | _ => none

def value? : Json → Option Value
  | .bool b => some (.bool b)
  | .str s => some (.text s)
  | j => j.float?.map .number

def props? : Json → Option (Table Value)
  | .obj members =>
    (members.mapM fun m => (value? m.2).map (m.1, ·)).map .ofList
  | _ => none

/-- The component in a JSON value that may hold so many nested containers. -/
def tree? : Nat → Json → Option (Tree Component)
  | inside + 2, j =>
    match fields? ["type", "id", "props", "children"] j with
    | some [some kind, some id, some props, some (.arr children)] => do
      let kind ← (nameJson? (inside + 1) kind).bind Kind.ofName?
      let component : Component := ⟨kind, ← id.str?, ← props? props⟩
      let children ← children.mapM (tree? inside)
      some (.node component children)
    | _ => none
  | _, _ => none

def navigation? : Option Json → Option (Option (List String))
  | none | some .null => some none
  | some (.arr entries) => (entries.mapM Json.str?).map some
  | _ => none

/-- The document in a JSON value. -/
def ofJson? (j : Json) : Option Document :=
  match fields? ["children", "platform", "mobileNavigation"] j with
  | some [some (.arr children), some platform, navigation] => do
    let children ← children.mapM (tree? (room - 2))
    let platform ← (nameJson? (room - 1) platform).bind Platform.ofName?
    some ⟨children, platform, ← navigation? navigation⟩
  | _ => none

/-- The text of a document on one line. -/
def compact (d : Document) : String :=
  d.toJson.compact

/-- The text of a document over several lines. -/
def pretty (d : Document) : String :=
  d.toJson.pretty

/-- The document that a text writes. -/
def read? (text : String) : Option Document :=
  (Json.read? text).bind ofJson?

end Wireframe.Document
