import Wireframe.Kind

/-!
# Which components may stand inside which

Kinds that render their own content take no children, interactive kinds take inline content, a tab
bar takes what can be a tab, and every other kind takes anything. A violation is advice: what
becomes of it is decided where a document is built.
-/

namespace Wireframe.Nesting

/-- The kinds that a parent accepts as children; none when it accepts all. -/
def accepted? : Kind → Option (List Kind)
  | .text | .heading | .image | .icon | .badge | .divider | .spacer | .input | .code => some []
  | .button | .link => some [.icon, .text, .badge]
  | .tabBar => some [.button, .icon, .link]
  | _ => none

/-- Whether a parent accepts a child. -/
def accepts (parent child : Kind) : Bool :=
  (accepted? parent).all (·.contains child)

/-- Why a parent that does not accept a child refuses it. -/
def reason (parent child : Kind) : String :=
  match accepted? parent with
  | none | some [] => s!"{parent.name} does not accept children (found {child.name})"
  | some kinds =>
    s!"{child.name} is not allowed inside {parent.name} (expected one of: " ++
      ", ".intercalate (kinds.map Kind.name) ++ ")"

end Wireframe.Nesting
