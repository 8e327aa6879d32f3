import Wireframe.Document.Basic
import Wireframe.Identifier
import Wireframe.Outline.Basic
import Wireframe.Vocabulary

/-!
# From outlines to documents

An element whose tag names a kind becomes a component of that kind; an element whose tag does not
is replaced by its children. A component gets the props that its kind has by default, then those
its tag implies, then those of its layout blocks, then those of its attribute lists, then its
content, later ones taking the place of earlier ones. It gets the id that is written for it, made
legal and unique, or one made up of its kind. A child that its parent does not accept is reported;
under a strict policy it is left out with all that is below it.
-/

namespace Wireframe

/-- What the author of a document does not write into its source. -/
structure Options where
  /-- What the document is for, in free words. -/
  context : Option String := none
  platform : Option Platform := none
  /-- The entries of the bottom navigation; having any, even none, makes the document mobile. -/
  navigation : Option (List String) := none
  /-- Whether misplaced children are left out. -/
  strict : Bool := false
deriving Repr, DecidableEq, Inhabited

/-- The platform of a document compiled with these options. -/
def Options.target (o : Options) : Platform :=
  if o.navigation.isSome then .mobile else o.platform.getD .web

namespace Element

/-- The text that a value is as an id. -/
def idText : Value → String
  | .text s => s
  | .number x => Decimal.plainText x
  | .bool b => if b then "true" else "false"

/-- The id that is written for an element: the one in its bracket, else the last entry called `id`
among its attributes followed by its layout. -/
def writtenId? (e : Element) : Option String :=
  match e.payload with
  | .id written => some written
  | _ =>
    (((e.attributes ++ e.layout).reverse.find? fun a => Text.asciiLower a.key = "id").map
      fun a => idText a.value)

/-- The legal id that is written for an element. -/
def cleanId? (e : Element) : Option String :=
  e.writtenId?.bind Identifier.sanitize?

/-- The text that an element shows. -/
def shown? (e : Element) : Option String :=
  match e.content, e.payload with
  | some text, _ => some text
  | none, .literal text => some text
  | none, _ => none

/-- Sets the prop that an entry writes. The id is no prop, and neither is what has no key. -/
def putEntry (props : Table Value) (a : Attribute) : Table Value :=
  let key := Vocabulary.canonicalKey a.key
  if key = "id" ∨ key = "" then props
  else props.insert key (Vocabulary.canonicalValue key a.value)

/-- The props of a component of a given kind. -/
def props (e : Element) (kind : Kind) : Table Value :=
  let implied := Vocabulary.implied (Text.asciiUpper e.tag)
  let written := (e.layout ++ e.attributes).foldl putEntry
    ((Vocabulary.defaults kind).insertAll implied)
  match e.shown? with
  | some text => written.insert "content" (.text text)
  | none => written

/-- A warning for every entry without a key. -/
def entryProblems (e : Element) : List Diagnostic :=
  ((e.layout ++ e.attributes).filter fun a => Vocabulary.canonicalKey a.key = "").map
    fun a => ⟨.emptyKey, a.location⟩

end Element

namespace Analysis

open Identifier (Allocator Claim sanitize?)

/-- An id for an element that becomes a component of a given kind, what is to be said about it, and
the ids that are handed out then. -/
def assignId (ids : Allocator) (e : Element) (kind : Kind) :
    String × List Diagnostic × Allocator :=
  match e.writtenId? with
  | none =>
    let (id, ids) := ids.generate kind
    (id, [], ids)
  | some written =>
    match sanitize? written with
    | some clean =>
      match ids.claim clean with
      | (.granted id, ids) => (id, [], ids)
      | (.renamed requested granted, ids) =>
        (granted, [⟨.duplicateId requested granted, e.location⟩], ids)
    | none =>
      let (id, ids) := ids.generate kind
      (id, [⟨.unusableId written id, e.location⟩], ids)

/-- What elements become, what is to be said about them, and the ids that are handed out then. -/
structure Result where
  trees : List (Tree Component)
  problems : List Diagnostic
  ids : Allocator

/-- What is to be said about the place of a child. -/
def placement (strict : Bool) (parent : Option Kind) (kind : Kind) (location : Location) :
    List Diagnostic :=
  match parent with
  | none => []
  | some p =>
    if Nesting.accepts p kind then []
    else [⟨if strict then .dropped p kind else .misplaced p kind, location⟩]

/-- Whether a child is left out. -/
def isDropped (strict : Bool) (parent : Option Kind) (kind : Kind) : Bool :=
  strict && parent.any fun p => !Nesting.accepts p kind

/-- A warning about a component that makes no sense on its platform. -/
def platformProblems (target : Platform) (kind : Kind) (location : Location) : List Diagnostic :=
  if kind.mobileOnly ∧ target = .web then [⟨.mobileOnWeb kind, location⟩] else []

mutual

/-- What an element below a component of kind `parent` becomes. -/
def tree (strict : Bool) (target : Platform) (parent : Option Kind) (ids : Allocator) :
    Tree Element → Result
  | .node e children =>
    match Vocabulary.kindOf? e.tag with
    | none =>
      let below := trees strict target parent ids children
      { below with
        problems := (if e.tag = "" then [] else [⟨.unknownTag e.tag, e.location⟩]) ++
          below.problems }
    | some kind =>
      let placed := placement strict parent kind e.location
      if isDropped strict parent kind then ⟨[], placed, ids⟩
      else
        let (id, idProblems, ids) := assignId ids e kind
        let below := trees strict target (some kind) ids children
        ⟨[.node ⟨kind, id, e.props kind⟩ below.trees],
          placed ++ platformProblems target kind e.location ++ e.entryProblems ++ idProblems ++
            below.problems,
          below.ids⟩

/-- What the elements of a forest become. -/
def trees (strict : Bool) (target : Platform) (parent : Option Kind) (ids : Allocator) :
    List (Tree Element) → Result
  | [] => ⟨[], [], ids⟩
  | t :: ts =>
    let first := tree strict target parent ids t
    let more := trees strict target parent first.ids ts
    ⟨first.trees ++ more.trees, first.problems ++ more.problems, more.ids⟩

end

/-- The legal ids that are written for elements whose tags name kinds. -/
def writtenIds (o : Outline) : List String :=
  (Tree.preorderAll o).filterMap fun t =>
    if (Vocabulary.kindOf? t.value.tag).isSome then t.value.cleanId? else none

/-- The document of an outline and what is to be said about it. There is none when no element
became a component. -/
def document? (o : Outline) (options : Options) : Option Document × List Diagnostic :=
  let ids := (writtenIds o).foldl Allocator.reserve .empty
  let result := trees options.strict options.target none ids o
  if result.trees = [] then
    let place := (o.head?.map fun t => t.value.location).getD .nowhere
    (none, result.problems ++ [⟨.noComponents, place⟩])
  else (some ⟨result.trees, options.target, options.navigation⟩, result.problems)

end Analysis

end Wireframe
