import Wireframe.Nesting
import Wireframe.Token

/-!
# Diagnostics

A problem says what is wrong, a diagnostic where. The severity of a problem, the phase that reports
it and its wording are functions of the problem, so that no other part of the library deals with
texts of messages.
-/

namespace Wireframe

inductive Severity where
  | error
  | warning
deriving Repr, DecidableEq

inductive Phase where
  | lex
  | parse
  | semantic
deriving Repr, DecidableEq

inductive Problem where
  | illegalCharacter (c : Char)
  | unterminatedString
  | invalidUnicodeEscape
  | unknownEscape (c : Char)
  | orphanMetadata (found : Token.Kind)
  | unexpectedAtLineStart (found : Token.Kind)
  | unexpectedAtLineEnd (found : Token.Kind)
  | expectedTagName (found : Token.Kind)
  | expectedTagEnd (found : Token.Kind)
  | unterminatedTag
  | unterminatedLayout
  | unexpectedInLayout (found : Token.Kind)
  | missingLayoutColon (key : String)
  | missingLayoutValue (key : String)
  | missingAttrColon
  | expectedAttributeName (found : Token.Kind)
  | missingAttributeValue (key : String)
  | unterminatedArguments
  | missingContentColon
  | emptyContent
  | duplicateContent
  | unmatchedIndentation (width : Nat)
  | unknownTag (tag : String)
  | misplaced (parent child : Kind)
  | dropped (parent child : Kind)
  | mobileOnWeb (kind : Kind)
  | emptyKey
  | duplicateId (requested granted : String)
  | unusableId (written granted : String)
  | noComponents
deriving DecidableEq

namespace Problem

def phase : Problem → Phase
  | illegalCharacter _ | unterminatedString | invalidUnicodeEscape | unknownEscape _ => .lex
  | unknownTag _ | misplaced .. | dropped .. | mobileOnWeb _ | emptyKey | duplicateId ..
  | unusableId .. | noComponents => .semantic
  | _ => .parse

def severity : Problem → Severity
  | invalidUnicodeEscape | unknownEscape _ | duplicateContent | misplaced .. | mobileOnWeb _
  | emptyKey | duplicateId .. | unusableId .. => .warning
  | _ => .error

/-- The wording of a problem that was met at a byte offset. -/
def message (offset : Nat) : Problem → String
  | illegalCharacter c => s!"illegal character '{c}' at offset {offset}"
  | unterminatedString => s!"unterminated string literal at offset {offset}"
  | invalidUnicodeEscape => "invalid unicode escape kept verbatim"
  | unknownEscape c => "unknown escape '\\" ++ String.singleton c ++ "' kept verbatim"
  | orphanMetadata found => s!"{found.describe} has no tag to attach to"
  | unexpectedAtLineStart found => s!"unexpected {found.describe} at start of line"
  | unexpectedAtLineEnd found => s!"unexpected {found.describe}"
  | expectedTagName found => s!"expected tag name, got {found.describe}"
  | expectedTagEnd found => s!"expected ':' or ']' after tag name, got {found.describe}"
  | unterminatedTag => "unterminated tag bracket, expected ']'"
  | unterminatedLayout => "unterminated layout block, expected '\x7d'"
  | unexpectedInLayout found => s!"unexpected {found.describe} in layout block"
  | missingLayoutColon key => s!"expected ':' after layout key '{key}'"
  | missingLayoutValue key => s!"missing value for '{key}'"
  | missingAttrColon => "expected ':' after ATTR"
  | expectedAttributeName found => s!"expected attribute name, got {found.describe}"
  | missingAttributeValue key => s!"missing value for attribute '{key}'"
  | unterminatedArguments => "unterminated argument list, expected ')'"
  | missingContentColon => "expected ':' after CONTENT"
  | emptyContent => "CONTENT without text"
  | duplicateContent => "duplicate CONTENT, the last one wins"
  | unmatchedIndentation width => s!"indentation of {width} matches no enclosing level"
  | unknownTag tag => s!"unknown tag '{tag}'"
  | misplaced parent child => Nesting.reason parent child
  | dropped parent child => Nesting.reason parent child ++ "; dropped"
  | mobileOnWeb kind => s!"{kind.name} is a mobile component in a web document"
  | emptyKey => "attribute with empty key ignored"
  | duplicateId requested granted => s!"duplicate id '{requested}' renamed to '{granted}'"
  | unusableId written granted =>
    s!"id '{written}' has no usable characters; using '{granted}'"
  | noComponents => "document contains no usable components"

end Problem

structure Diagnostic where
  problem : Problem
  location : Location
deriving DecidableEq

namespace Diagnostic

def severity (d : Diagnostic) : Severity := d.problem.severity

def phase (d : Diagnostic) : Phase := d.problem.phase

def message (d : Diagnostic) : String := d.problem.message d.location.offset

def isError (d : Diagnostic) : Bool := d.severity = .error

/-- One line that says where, in which phase, how severe and what. -/
def render (d : Diagnostic) : String :=
  let phase := match d.phase with
    | .lex => "Lex"
    | .parse => "Parse"
    | .semantic => "Semantic"
  let severity := match d.severity with
    | .error => "error"
    | .warning => "warning"
  s!"[{d.location.line}:{d.location.column}] {phase} {severity}: {d.message}"

end Diagnostic

end Wireframe
