import Wireframe.Yaml.Basic
import Wireframe.Yaml.Token

/-!
# Reading YAML texts

`Yaml.read?` gives the value of the one document that a text holds. A text without a document
stands for a value that is left out; one with several is refused.
-/

namespace Wireframe.Yaml

/-- What is left to read, and what has been named so far. -/
structure Progress where
  tokens : List Token
  anchors : List (String × Yaml) := []
  /-- What the handles of tags stand for; the default ones come last. -/
  handles : List (String × String) := [("!", "!"), ("!!", "tag:yaml.org,2002:")]

/-- Reads something from the start of the tokens. -/
abbrev Parse := StateT Progress Option

namespace Parse

def peek : Parse (Option Token) :=
  return (← get).tokens.head?

def skip : Parse Unit :=
  modify fun p => { p with tokens := p.tokens.drop 1 }

/-- Takes a token away if it comes next. -/
def accept (t : Token) : Parse Bool := do
  if (← peek) = some t then
    skip
    pure true
  else pure false

def expect (t : Token) : Parse Unit := do
  unless ← accept t do failure

/-- The tag that a handle and what follows it make up. -/
def resolve (name rest : String) : Parse String := do
  if name = "" ∨ name = "!" ∧ rest = "" then pure (name ++ rest)
  else
    match (← get).handles.lookup name with
    | some replacement => pure (replacement ++ rest)
    | none => failure

def anchorName : Parse (Option String) := do
  match ← peek with
  | some (.anchor name) => skip; pure (some name)
  | _ => pure none

def tagName : Parse (Option String) := do
  match ← peek with
  | some (.tag name rest) => skip; pure (some (← resolve name rest))
  | _ => pure none

/-- The anchor and the tag of a value, in either order. -/
def properties : Parse (Option String × Option String) := do
  match ← anchorName with
  | some name => pure (some name, ← tagName)
  | none =>
    let tag ← tagName
    pure (← anchorName, tag)

mutual

/-- A value. Block collections may stand where `block` allows them, and the items of a sequence
without indentation of its own where `bare` allows them. -/
def node (block bare : Bool) : Nat → Parse Yaml
  | 0 => failure
  | n + 1 => do
    match ← peek with
    | some (.alias name) =>
      skip
      match (← get).anchors.lookup name with
      | some y => pure y
      | none => failure
    | _ =>
      let (anchor, tag) ← properties
      let y ← content block bare (anchor.isSome || tag.isSome) tag n
      if let some name := anchor then
        modify fun p => { p with anchors := (name, y) :: p.anchors }
      pure y

/-- A value behind its properties. -/
def content (block bare named : Bool) (tag : Option String) : Nat → Parse Yaml
  | 0 => failure
  | n + 1 => do
    match ← peek, block, bare with
    | some (.scalar s), _, _ => skip; pure (.scalar tag s)
    | some .openSequence, _, _ => skip; return .sequence (← flowItems true n)
    | some .openMapping, _, _ => skip; return .mapping (← flowMembers true n)
    | some .item, _, true => return .sequence (← bareItems n)
    | some .blockSequence, true, _ => skip; return .sequence (← blockItems n)
    | some .blockMapping, true, _ => skip; return .mapping (← blockMembers n)
    | _, _, _ => if named then pure (absent tag) else failure

/-- A value that is left out before one of the listed tokens. -/
def entry (block bare : Bool) (ends : List Token) : Nat → Parse Yaml
  | 0 => failure
  | n + 1 => do
    match ← peek with
    | some t => if t ∈ ends then pure (absent none) else node block bare n
    | none => failure

def blockItems : Nat → Parse (List Yaml)
  | 0 => failure
  | n + 1 => do
    if ← accept .blockEnd then pure []
    else
      expect .item
      let y ← entry true false [.item, .blockEnd] n
      return y :: (← blockItems n)

def bareItems : Nat → Parse (List Yaml)
  | 0 => failure
  | n + 1 => do
    if ← accept .item then
      let y ← entry true false [.item, .key, .value, .blockEnd] n
      return y :: (← bareItems n)
    else pure []

def blockMembers : Nat → Parse (List (Yaml × Yaml))
  | 0 => failure
  | n + 1 => do
    if ← accept .blockEnd then pure []
    else
      expect .key
      let ends := [.key, .value, .blockEnd]
      let k ← entry true true ends n
      let v ← if ← accept .value then entry true true ends n else pure (absent none)
      return (k, v) :: (← blockMembers n)

/-- The items of a sequence in brackets. One of them may be a single member of a mapping. -/
def flowItems (first : Bool) : Nat → Parse (List Yaml)
  | 0 => failure
  | n + 1 => do
    if ← accept .closeSequence then pure []
    else
      unless first do expect .comma
      if ← accept .closeSequence then pure []
      else if ← accept .key then
        let k ← node false false n
        let v ←
          if ← accept .value then entry false false [.comma, .closeSequence] n
          else pure (absent none)
        return .mapping [(k, v)] :: (← flowItems false n)
      else
        let y ← node false false n
        return y :: (← flowItems false n)

/-- The members of a mapping in braces. A key may stand without a value. -/
def flowMembers (first : Bool) : Nat → Parse (List (Yaml × Yaml))
  | 0 => failure
  | n + 1 => do
    if ← accept .closeMapping then pure []
    else
      unless first do expect .comma
      if ← accept .closeMapping then pure []
      else if ← accept .key then
        let k ← entry false false [.value, .comma, .closeMapping] n
        let v ←
          if ← accept .value then entry false false [.comma, .closeMapping] n
          else pure (absent none)
        return (k, v) :: (← flowMembers false n)
      else
        let k ← node false false n
        return (k, absent none) :: (← flowMembers false n)

end

/-- The directives before a document: one version at most, and each handle once. -/
def directives (versioned : Bool) (defined : List String) : Nat → Parse Unit
  | 0 => failure
  | n + 1 => do
    match ← peek with
    | some (.version major minor) =>
      if versioned ∨ major ≠ 1 ∨ minor ∉ [1, 2] then failure
      skip
      directives true defined n
    | some (.handle name replacement) =>
      if name ∈ defined then failure
      skip
      modify fun p => { p with handles := (name, replacement) :: p.handles }
      directives versioned (name :: defined) n
    | _ => pure ()

/-- A document; only one that begins with directives or its mark may have no value. -/
def document (fuel : Nat) : Parse Yaml := do
  match ← peek with
  | some (.version ..) | some (.handle ..) | some .documentStart =>
    directives false [] fuel
    expect .documentStart
    match ← peek with
    | none | some (.version ..) | some (.handle ..) | some .documentStart | some .documentEnd =>
      pure (absent none)
    | _ => node true false fuel
  | _ => node true false fuel

end Parse

/-- The value of the document that a text holds. Each token is looked at a bounded number of
times. -/
def read? (s : String) : Option Yaml := do
  let tokens ← Token.ofText? s
  if tokens = [] then some (absent none)
  else
    let (y, p) ← (Parse.document (4 * tokens.length + 4)).run { tokens }
    if p.tokens.all (· = .documentEnd) then some y else none

end Wireframe.Yaml
