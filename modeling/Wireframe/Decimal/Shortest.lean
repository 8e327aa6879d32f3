import Wireframe.Decimal.Binary

/-!
# Shortest decimals

`Decimal.toFloat` is the double closest to a decimal. `Decimal.shortest` is the decimal with the
fewest digits among those that are read back as a given double, and the closest one to it among
decimals with equally many digits. A candidate is taken only when it is read back, and when none of
up to seventeen digits is, the exact expansion of the double is taken.
-/

namespace Wireframe

/-- The magnitude `digits · 10 ^ exponent`. -/
structure Decimal where
  digits : Nat
  exponent : Int
deriving Repr, DecidableEq

namespace Decimal

/-- A natural number with `zeros` zeros written behind its digits. -/
def scaled (n zeros : Nat) : Nat :=
  n * Nat.pow 10 zeros

/-- The magnitude as a quotient of natural numbers. -/
def ratio (d : Decimal) : Nat × Nat :=
  (scaled d.digits d.exponent.toNat, scaled 1 (-d.exponent).toNat)

/-- The number of decimal digits of a natural number; one for zero. -/
def width (n : Nat) : Nat :=
  (Nat.toDigits 10 n).length

/-- The double closest to a signed decimal. Far outside the range of the doubles the answer is
known without the power of ten. -/
def toFloat (negative : Bool) (d : Decimal) : Float :=
  let order : Int := d.exponent + width d.digits
  if d.digits = 0 ∨ order < -400 then nearest negative 0 1
  else if 400 < order then nearest negative (1 <<< 1100) 1
  else nearest negative d.ratio.1 d.ratio.2

/-- The same magnitude with no zero at the end of its digits. -/
def trimmed (d : Decimal) : Decimal :=
  if h : d.digits ≠ 0 ∧ d.digits % 10 = 0 then
    trimmed ⟨d.digits / 10, d.exponent + 1⟩
  else d
termination_by d.digits
decreasing_by exact Nat.div_lt_self (by omega) (by omega)

/-- The power of ten at or just below a positive quotient; an estimate from the power of two is at
most one too small. -/
def decimalOrder (num den : Nat) : Int :=
  let t : Int := (binaryOrder num den * 30103) / 100000
  if scaled den (t + 1).toNat ≤ scaled num (-(t + 1)).toNat then t + 1 else t

/-- The decimals with the given exponent that are next to a quotient, the closer one first. -/
def neighbours (num den : Nat) (exponent : Int) : List Decimal :=
  let n := scaled num (-exponent).toNat
  let d := scaled den exponent.toNat
  let below : Decimal := ⟨n / d, exponent⟩
  let above : Decimal := ⟨n / d + 1, exponent⟩
  let r := 2 * (n % d)
  if r < d ∨ (r = d ∧ n / d % 2 = 0) then [below, above] else [above, below]

/-- The exact decimal expansion of `m · 2 ^ e`. -/
def exact (b : Binary) : Decimal :=
  if 0 ≤ b.exponent then ⟨b.significand <<< b.exponent.toNat, 0⟩
  else ⟨b.significand * Nat.pow 5 (-b.exponent).toNat, b.exponent⟩

/-- The shortest decimal that is read back as a finite double. -/
def shortest (b : Binary) : Decimal :=
  if b.significand = 0 then ⟨0, 0⟩
  else
    let (num, den) := b.ratio
    let x := nearest false num den
    let order := decimalOrder num den
    let candidates := (List.range 17).flatMap fun (k : Nat) => neighbours num den (order - k)
    ((candidates.find? fun d => d.toFloat false = x).getD (exact b)).trimmed

end Decimal

end Wireframe
