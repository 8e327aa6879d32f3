import Wireframe.Text.Basic

/-!
# Kinds of components and target platforms

The closed vocabulary of components that a document is made of. The name of a kind is its written
form in a document; its snake-case form begins the ids that are made up for components without one.
-/

namespace Wireframe

inductive Kind where
  | section | container | grid | flex | spacer | card | text | image | icon | badge | link
  | button | input | table | list | tabs | alert | modal | divider | code | form | header
  | footer | sidebar | nav | heading | quote
  | mobileHeader | tabBar | bottomSheet | fab | listItem
deriving Repr, DecidableEq, Inhabited

namespace Kind

/-- Every kind, once. -/
def all : List Kind :=
  [.section, .container, .grid, .flex, .spacer, .card, .text, .image, .icon, .badge, .link,
    .button, .input, .table, .list, .tabs, .alert, .modal, .divider, .code, .form, .header,
    .footer, .sidebar, .nav, .heading, .quote, .mobileHeader, .tabBar, .bottomSheet, .fab,
    .listItem]

def name : Kind → String
  | .section => "Section"
  | .container => "Container"
  | .grid => "Grid"
  | .flex => "Flex"
  | .spacer => "Spacer"
  | .card => "Card"
  | .text => "Text"
  | .image => "Image"
  | .icon => "Icon"
  | .badge => "Badge"
  | .link => "Link"
  | .button => "Button"
  | .input => "Input"
  | .table => "Table"
  | .list => "List"
  | .tabs => "Tabs"
  | .alert => "Alert"
  | .modal => "Modal"
  | .divider => "Divider"
  | .code => "Code"
  | .form => "Form"
  | .header => "Header"
  | .footer => "Footer"
  | .sidebar => "Sidebar"
  | .nav => "Nav"
  | .heading => "Heading"
  | .quote => "Quote"
  | .mobileHeader => "MobileHeader"
  | .tabBar => "TabBar"
  | .bottomSheet => "BottomSheet"
  | .fab => "Fab"
  | .listItem => "ListItem"

/-- The kind with a given name. -/
def ofName? (s : String) : Option Kind :=
  all.find? fun k => k.name = s

theorem mem_all (k : Kind) : k ∈ all := by
  cases k <;> decide

/-- A name in small letters, each capital but the first set off by an underscore. -/
def snakeCase : List Char → List Char
  | [] => []
  | c :: cs =>
    c.toLower :: cs.flatMap fun d => if d.isUpper then ['_', d.toLower] else [d.toLower]

/-- What the made-up ids of a kind begin with. -/
def idPrefix (k : Kind) : String :=
  String.ofList (snakeCase k.name.toList)

/-- The kinds that make sense on a touch screen only. -/
def mobileOnly : Kind → Bool
  | .mobileHeader | .tabBar | .bottomSheet | .fab => true
  | _ => false

end Kind

/-- What a document is compiled for. -/
inductive Platform where
  | web
  | mobile
deriving Repr, DecidableEq, Inhabited

namespace Platform

def name : Platform → String
  | .web => "web"
  | .mobile => "mobile"

/-- The platform with a given name. -/
def ofName? (s : String) : Option Platform :=
  [web, mobile].find? fun p => p.name = s

/-- A text that names no platform, in the form in which it was compared with the names. -/
structure Unknown where
  written : String
deriving Repr, DecidableEq

def Unknown.message (u : Unknown) : String :=
  s!"unknown platform '{u.written}' (expected web or mobile)"

/-- The platform that a text names, whatever the case of its letters and the blanks around it. -/
def read (s : String) : Except Unknown Platform :=
  let name := Text.asciiLower (Text.trim s)
  match ofName? name with
  | some p => .ok p
  | none => .error ⟨name⟩

end Platform

end Wireframe
