import Wireframe.Diagnostic
import Wireframe.Text.Classes

/-!
# Quoted text

The inside of a string literal is a run of segments, each a plain character or an escape. A
segment keeps what was written and what it stands for, so that the written segments put together
are the written literal and their values put together are its value. An escape that is not
understood stands for itself and is reported.
-/

namespace Wireframe.Quoted

structure Segment where
  /-- What is written. -/
  text : List Char
  /-- What it stands for. -/
  value : List Char
  problem : Option Problem := none
deriving DecidableEq

/-- The character with a given code point, unless there is none. -/
def scalar? (n : Nat) : Option Char :=
  if n.isValidChar then some (Char.ofNat n) else none

/-- The character that stands behind `\u` as four hexadecimal digits, or as any number of them
between braces, together with what was written. -/
def unicodeEscape? : List Char → Option (List Char × Char)
  | '\x7b' :: cs =>
    let digits := cs.takeWhile Text.isHexDigit
    if digits ≠ [] ∧ (cs.drop digits.length).head? = some '\x7d' then
      (scalar? (Text.hexNumber digits)).map fun c => ('\x7b' :: digits ++ ['\x7d'], c)
    else none
  | cs =>
    let digits := (cs.take 4).takeWhile Text.isHexDigit
    if digits.length = 4 then
      (scalar? (Text.hexNumber digits)).map fun c => (digits, c)
    else none

/-- What the character behind a backslash stands for, where it is not `u`. -/
def simpleEscape? : Char → Option Char
  | 'n' => some '\n'
  | 't' => some '\t'
  | 'r' => some '\r'
  | '"' => some '"'
  | '\\' => some '\\'
  | '/' => some '/'
  | _ => none

/-- The segment that begins with a backslash and is followed by `cs`. -/
def escape : List Char → Segment
  | [] => { text := ['\\'], value := ['\\'] }
  | 'u' :: cs =>
    match unicodeEscape? cs with
    | some (written, c) => { text := '\\' :: 'u' :: written, value := [c] }
    | none =>
      { text := ['\\', 'u'], value := ['\\', 'u'], problem := some .invalidUnicodeEscape }
  | c :: _ =>
    match simpleEscape? c with
    | some d => { text := ['\\', c], value := [d] }
    | none => { text := ['\\', c], value := ['\\', c], problem := some (.unknownEscape c) }

/-- The segment that begins with `c` and is followed by `cs`. -/
def segment (c : Char) (cs : List Char) : Segment :=
  if c = '\\' then escape cs else { text := [c], value := [c] }

/-- The segments of a line up to a closing quote, and whether there is one. -/
def scan : List Char → List Segment × Bool
  | [] => ([], false)
  | c :: cs =>
    if c = '"' then ([], true)
    else
      let s := segment c cs
      let (ss, closed) := scan (cs.drop (s.text.length - 1))
      (s :: ss, closed)
termination_by cs => cs.length
decreasing_by
  simp only [List.length_drop, List.length_cons]
  omega

/-- What segments are written as. -/
def written (ss : List Segment) : List Char :=
  ss.flatMap Segment.text

/-- What segments stand for. -/
def value (ss : List Segment) : List Char :=
  ss.flatMap Segment.value

/-- The problems of segments, each at the place where its segment begins. -/
def diagnostics : Location → List Segment → List Diagnostic
  | _, [] => []
  | p, s :: ss => (s.problem.map (⟨·, p⟩)).toList ++ diagnostics (p.advance s.text) ss

end Wireframe.Quoted
