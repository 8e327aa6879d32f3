import Wireframe.Outline.Item

/-!
# Tags that are still open

Indentation decides which tag an element or an item of metadata belongs to. While an outline is
read, the tags that may still take children are kept as a stack of frames, the innermost first,
each with the width of its indentation. A new tag closes all frames that are at least as wide as
itself; metadata closes the frames that are wider, provided that one remains.
-/

namespace Wireframe

/-- An open tag with the children it has so far, the last one first. -/
structure Frame where
  width : Nat
  element : Element
  children : List (Tree Element)

/-- The tree that an open tag is closed to. -/
def Frame.tree (f : Frame) : Tree Element :=
  .node f.element f.children.reverse

/-- An outline in the making: the open tags, the innermost first, and the closed trees, the last
one first. -/
structure Builder where
  frames : List Frame
  roots : Outline

namespace Builder

/-- Nothing has been read. -/
def empty : Builder := ⟨[], []⟩

/-- Closes open tags from the inside as long as they satisfy `p`. -/
def collapse (p : Frame → Bool) : List Frame → Outline → Builder
  | [], roots => ⟨[], roots⟩
  | [f], roots => if p f then ⟨[], f.tree :: roots⟩ else ⟨[f], roots⟩
  | f :: g :: fs, roots =>
    if p f then collapse p ({ g with children := f.tree :: g.children } :: fs) roots
    else ⟨f :: g :: fs, roots⟩
termination_by fs => fs.length

/-- The outline that is read so far, with all tags closed. -/
def finish (b : Builder) : Outline :=
  (collapse (fun _ => true) b.frames b.roots).roots.reverse

/-- Opens a tag at a width. -/
def openTag (b : Builder) (width : Nat) (e : Element) : Builder :=
  let c := collapse (fun f => width ≤ f.width) b.frames b.roots
  { c with frames := ⟨width, e, []⟩ :: c.frames }

/-- Whether a tag at a width is wider than its parent but not as wide as any child before it:
the outermost tag that it closes is wider than itself. -/
def unmatched (b : Builder) (width : Nat) : Bool :=
  ((b.frames.takeWhile fun f => width ≤ f.width).getLast?).any fun f => f.width ≠ width

/-- Whether some open tag may take metadata at a width. -/
def hasOwner (b : Builder) (width : Nat) : Bool :=
  b.frames.any fun f => f.width ≤ width

/-- Closes the tags that are too wide to take metadata at a width. -/
def closeWider (b : Builder) (width : Nat) : Builder :=
  collapse (fun f => width < f.width) b.frames b.roots

/-- Adds items to an element. Content that is already there is replaced. -/
def addItems (e : Element) : List Outline.Item → Element
  | [] => e
  | .layout entries :: items => addItems { e with layout := e.layout ++ entries } items
  | .attributes entries :: items =>
    addItems { e with attributes := e.attributes ++ entries } items
  | .content text _ :: items => addItems { e with content := some text } items

/-- A warning for every content that replaces another one, given whether there is one already. -/
def replacements (present : Bool) : List Outline.Item → List Diagnostic
  | [] => []
  | .content _ location :: items =>
    (if present then [⟨.duplicateContent, location⟩] else []) ++ replacements true items
  | _ :: items => replacements present items

/-- Adds items to the innermost open tag. -/
def attach (b : Builder) (items : List Outline.Item) : Builder :=
  match b.frames with
  | [] => b
  | f :: fs => { b with frames := { f with element := addItems f.element items } :: fs }

/-- What is to be reported when items are added to the innermost open tag. -/
def attachProblems (b : Builder) (items : List Outline.Item) : List Diagnostic :=
  match b.frames with
  | [] => []
  | f :: _ => replacements f.element.content.isSome items

end Builder

end Wireframe
