import Wireframe.Decimal.Shortest

/-!
# Writing doubles

A finite double is written with the digits of its shortest decimal. The notations differ only in
when an exponent is used and in what follows the digits of a whole number: `Notation.json` is that
of a JSON text, where what is not finite has no text, and `Notation.plain` the one of messages,
identifiers and lengths.
-/

namespace Wireframe.Decimal

/-- The decisions in which two ways to write a finite double differ. -/
structure Notation where
  /-- The least and the greatest place of the point, counted from the first digit, that are
  written without an exponent; with none, an exponent is never written. -/
  window : Option (Int × Int)
  /-- What follows the digits of a whole number. -/
  wholeSuffix : String

/-- Places from `-4` to `16` need no exponent and a whole number ends in `.0`. -/
def Notation.json : Notation := ⟨some (-4, 16), ".0"⟩

/-- An exponent is never written and a whole number is written as one. -/
def Notation.plain : Notation := ⟨none, ""⟩

/-- As many zeros as asked for. -/
def zeros (n : Nat) : String :=
  String.ofList (List.replicate n '0')

/-- The text of a magnitude with no zero at the end of its digits. -/
def Notation.magnitude (style : Notation) (d : Decimal) : String :=
  let ds := toString d.digits
  let point : Int := ds.length + d.exponent
  let fixed := match style.window with
    | none => true
    | some (least, greatest) => decide (least ≤ point) && decide (point ≤ greatest)
  if fixed then
    if 0 ≤ d.exponent then ds ++ zeros d.exponent.toNat ++ style.wholeSuffix
    else if 0 < point then
      String.ofList (ds.toList.take point.toNat) ++ "." ++
        String.ofList (ds.toList.drop point.toNat)
    else "0." ++ zeros (-point).toNat ++ ds
  else
    let fraction := String.ofList (ds.toList.drop 1)
    String.ofList (ds.toList.take 1) ++ (if fraction = "" then "" else "." ++ fraction) ++
      "e" ++ toString (point - 1)

/-- The text of a finite double. -/
def Notation.write (style : Notation) (b : Binary) : String :=
  (if b.negative then "-" else "") ++ style.magnitude (shortest b)

/-- The text of a double in a JSON text; none for what is not finite. -/
def jsonText? (x : Float) : Option String :=
  (Binary.ofFloat? x).map Notation.json.write

/-- The text of a double without an exponent. -/
def plainText (x : Float) : String :=
  match Binary.ofFloat? x with
  | some b => Notation.plain.write b
  | none => if x.isNaN then "NaN" else if x < 0 then "-inf" else "inf"

end Wireframe.Decimal
