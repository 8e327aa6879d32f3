import Wireframe.Json.Basic
import Wireframe.Decimal.Shortest
import Wireframe.Text.Basic

/-!
# Reading JSON texts

A text is cut into marks, and the marks are put together with the containers part way through held
in a list, innermost first. Both passes go through their input once.
-/

namespace Wireframe.Json

/-- The units of a JSON text. -/
inductive Mark where
  | openArr
  | closeArr
  | openObj
  | closeObj
  | comma
  | colon
  | scalar (v : Json)

/-- The number that four hexadecimal digits write. -/
def unit? (a b c d : Char) : Option Nat :=
  if [a, b, c, d].all Text.isHexDigit then some (Text.hexNumber [a, b, c, d]) else none

/-- What a character behind a backslash stands for, where it is not `u`. -/
def unescape? : Char → Option Char
  | '"' => some '"'
  | '\\' => some '\\'
  | '/' => some '/'
  | 'b' => some '\x08'
  | 'f' => some '\x0c'
  | 'n' => some '\n'
  | 'r' => some '\r'
  | 't' => some '\t'
  | _ => none

/-- The inside of a string up to its closing quote. A character that could not be read as text
leaves the string malformed; a control character, an unknown escape or a missing quote leave no
string at all. -/
def stringBody : List Char → Option (Option (List Char) × List Char)
  | '"' :: cs => some (some [], cs)
  | '\\' :: 'u' :: a :: b :: c :: d :: '\\' :: 'u' :: a' :: b' :: c' :: d' :: cs =>
    match unit? a b c d, unit? a' b' c' d' with
    | some hi, some lo =>
      if 0xd800 ≤ hi ∧ hi < 0xdc00 ∧ 0xdc00 ≤ lo ∧ lo < 0xe000 then
        (stringBody cs).map fun (s, r) =>
          (s.map (Char.ofNat (0x10000 + (hi - 0xd800) * 0x400 + (lo - 0xdc00)) :: ·), r)
      else
        (stringBody ('\\' :: 'u' :: a' :: b' :: c' :: d' :: cs)).map fun (s, r) =>
          (if hi.isValidChar then s.map (Char.ofNat hi :: ·) else none, r)
    | _, _ => none
  | '\\' :: 'u' :: a :: b :: c :: d :: cs =>
    match unit? a b c d with
    | some n =>
      (stringBody cs).map fun (s, r) =>
        (if n.isValidChar then s.map (Char.ofNat n :: ·) else none, r)
    | none => none
  | '\\' :: c :: cs =>
    match unescape? c with
    | some e => (stringBody cs).map fun (s, r) => (s.map (e :: ·), r)
    | none => none
  | c :: cs =>
    if c = '\\' ∨ c.toNat < 32 then none
    else (stringBody cs).map fun (s, r) => (s.map (c :: ·), r)
  | [] => none

/-- The characters that numbers are written with. -/
def inNumber (c : Char) : Bool :=
  c.isDigit || c = '-' || c = '+' || c = '.' || c = 'e' || c = 'E'

/-- The exponent that ends a number, and whether there is one. -/
def exponent? : List Char → Option (Int × Bool)
  | [] => some (0, false)
  | c :: cs =>
    let (negative, ds) : Bool × List Char := match cs with
      | '-' :: ds => (true, ds)
      | '+' :: ds => (false, ds)
      | ds => (false, ds)
    if (c = 'e' ∨ c = 'E') ∧ ds ≠ [] ∧ ds.all Char.isDigit then
      let n : Int := Text.decimalNumber ds
      some (if negative then -n else n, true)
    else none

/-- Whether a whole number fits in 64 bits, with or without a sign. -/
def fits (n : Int) : Bool :=
  -9223372036854775808 ≤ n && n < 18446744073709551616

/-- The number that a text writes behind its sign. Minus zero and what is too large for an integer
are doubles. -/
def unsigned? (negative : Bool) (cs : List Char) : Option Json :=
  let whole := cs.takeWhile Char.isDigit
  let rest := cs.dropWhile Char.isDigit
  let (point, fraction, rest) : Bool × List Char × List Char := match rest with
    | '.' :: r => (true, r.takeWhile Char.isDigit, r.dropWhile Char.isDigit)
    | r => (false, [], r)
  if whole = [] ∨ (whole.length ≠ 1 ∧ whole.head? = some '0') ∨ (point ∧ fraction = []) then none
  else
    (exponent? rest).map fun (e, hasExponent) =>
      let digits := Text.decimalNumber (whole ++ fraction)
      let n : Int := if negative then -digits else digits
      if !point && !hasExponent && fits n && !(negative && digits = 0) then .int n
      else .float (Decimal.toFloat negative ⟨digits, e - fraction.length⟩)

/-- The number that a text writes. -/
def number? : List Char → Option Json
  | '-' :: cs => unsigned? true cs
  | cs => unsigned? false cs

/-- The mark that a single character is. -/
def punctuation? : Char → Option Mark
  | '[' => some .openArr
  | ']' => some .closeArr
  | '\x7b' => some .openObj
  | '\x7d' => some .closeObj
  | ',' => some .comma
  | ':' => some .colon
  | _ => none

/-- The value that a bare word stands for. -/
def literal? (word : List Char) : Option Json :=
  if word = "null".toList then some .null
  else if word = "true".toList then some (.bool true)
  else if word = "false".toList then some (.bool false)
  else none

/-- The first mark of a text whose first character is `c`, and the rest of it. -/
def firstMark (c : Char) (cs : List Char) : Option (Mark × List Char) :=
  match punctuation? c with
  | some m => some (m, cs)
  | none =>
    if c = '"' then
      (stringBody cs).map fun (s, r) =>
        (.scalar (s.elim .malformed fun s => .str (String.ofList s)), r)
    else if c.isAlpha then
      (literal? (c :: cs.takeWhile Char.isAlpha)).map fun v =>
        (.scalar v, cs.dropWhile Char.isAlpha)
    else
      (number? (c :: cs.takeWhile inNumber)).map fun v =>
        (.scalar v, cs.dropWhile inNumber)

/-- The characters that may stand between marks. -/
def isSpace (c : Char) : Bool :=
  c = ' ' || c = '\n' || c = '\t' || c = '\r'

theorem stringBody_length {cs r : List Char} {s : Option (List Char)}
    (h : stringBody cs = some (s, r)) : r.length < cs.length := by
  fun_induction stringBody cs generalizing s r <;> grind [Option.map_eq_some_iff, List.length_cons]

theorem firstMark_length {c : Char} {cs r : List Char} {m : Mark}
    (h : firstMark c cs = some (m, r)) : r.length ≤ cs.length := by
  unfold firstMark at h
  have word := (List.dropWhile_sublist (l := cs) Char.isAlpha).length_le
  have number := (List.dropWhile_sublist (l := cs) inNumber).length_le
  have body := @stringBody_length cs
  grind [Option.map_eq_some_iff]

/-- The marks of a text. -/
def marks? (cs : List Char) : Option (List Mark) :=
  match _hd : cs.dropWhile isSpace with
  | [] => some []
  | c :: r =>
    match _hm : firstMark c r with
    | some (m, r') => (marks? r').map (m :: ·)
    | none => none
termination_by cs.length
decreasing_by
  have hr := firstMark_length _hm
  have hd := (List.dropWhile_sublist (l := cs) isSpace).length_le
  rw [_hd] at hd
  simp only [List.length_cons] at hd
  omega

/-- A container part way through, with its parts in reverse. An object may hold the name of the
member whose value is to come. -/
inductive Frame where
  | arr (items : List Json)
  | obj (members : List (String × Json)) (name : Option String)

/-- What may come next. -/
inductive Expect where
  /-- A value, or the end of the array that has just begun. -/
  | value (first : Bool)
  /-- The name of a member, or the end of the object that has just begun. -/
  | name (first : Bool)
  | colon
  /-- A comma or the end of the container. -/
  | more
  /-- Nothing: the text is a whole value. -/
  | nothing (v : Json)

structure State where
  stack : List Frame
  expect : Expect

/-- A value has come to its end. -/
def State.deliver (stack : List Frame) (v : Json) : Option State :=
  match stack with
  | [] => some ⟨[], .nothing v⟩
  | .arr items :: stack => some ⟨.arr (v :: items) :: stack, .more⟩
  | .obj members (some name) :: stack =>
    some ⟨.obj ((name, v) :: members) none :: stack, .more⟩
  | .obj _ none :: _ => none

/-- The state behind one mark; none where the mark may not stand. -/
def State.step (s : State) (m : Mark) : Option State :=
  match s.expect, m with
  | .value _, .openArr => some ⟨.arr [] :: s.stack, .value true⟩
  | .value _, .openObj => some ⟨.obj [] none :: s.stack, .name true⟩
  | .value _, .scalar v => deliver s.stack v
  | .value true, .closeArr =>
    match s.stack with
    | .arr items :: stack => deliver stack (.arr items.reverse)
    | _ => none
  | .name _, .scalar (.str name) =>
    match s.stack with
    | .obj members _ :: stack => some ⟨.obj members (some name) :: stack, .colon⟩
    | _ => none
  | .name true, .closeObj =>
    match s.stack with
    | .obj members _ :: stack => deliver stack (.obj members.reverse)
    | _ => none
  | .colon, .colon => some ⟨s.stack, .value false⟩
  | .more, .comma =>
    match s.stack with
    | .arr _ :: _ => some ⟨s.stack, .value false⟩
    | .obj _ _ :: _ => some ⟨s.stack, .name false⟩
    | [] => none
  | .more, .closeArr =>
    match s.stack with
    | .arr items :: stack => deliver stack (.arr items.reverse)
    | _ => none
  | .more, .closeObj =>
    match s.stack with
    | .obj members _ :: stack => deliver stack (.obj members.reverse)
    | _ => none
  | _, _ => none

/-- The value that a text writes; none when it writes none, or anything behind it. -/
def read? (s : String) : Option Json := do
  let ms ← marks? s.toList
  let final ← ms.foldlM State.step ⟨[], .value false⟩
  match final.expect with
  | .nothing v => some v
  | _ => none

end Wireframe.Json
