/-!
# Double-precision numbers as exact binary fractions

A finite double is `m · 2 ^ e` with a sign, where `m` has at most 53 bits and `e` is at least
`-1074`. `Binary.ofFloat?` reads these parts off a double and `nearest` is the other direction: the
double closest to a quotient of natural numbers, a tie going to the even significand.
-/

namespace Wireframe.Decimal

/-- The parts of a finite double: its magnitude is `significand · 2 ^ exponent`. -/
structure Binary where
  negative : Bool
  significand : Nat
  exponent : Int
deriving Repr, DecidableEq

/-- The bit in front of the 52 stored ones of a significand. -/
def hiddenBit : Nat := 4503599627370496

/-- The parts of a double; none for the infinities and for what is not a number. -/
def Binary.ofFloat? (x : Float) : Option Binary :=
  let bits : Nat := x.toBits.toNat
  let negative := (bits >>> 63) % 2 == 1
  let biased : Nat := (bits >>> 52) % 2048
  let fraction : Nat := bits % hiddenBit
  if biased = 2047 then none
  else if biased = 0 then some ⟨negative, fraction, -1074⟩
  else some ⟨negative, fraction + hiddenBit, (biased : Int) - 1075⟩

/-- The magnitude as a quotient of natural numbers. -/
def Binary.ratio (b : Binary) : Nat × Nat :=
  (b.significand <<< b.exponent.toNat, 1 <<< (-b.exponent).toNat)

/-- A quotient rounded to a natural number, a tie going to the even one. -/
def roundDiv (num den : Nat) : Nat :=
  let q := num / den
  let r := 2 * (num % den)
  if den < r ∨ (r = den ∧ q % 2 = 1) then q + 1 else q

/-- The `k` with `2 ^ k ≤ num / den < 2 ^ (k + 1)`, for positive `num` and `den`. -/
def binaryOrder (num den : Nat) : Int :=
  let k : Int := num.log2 - den.log2
  if num <<< (-k).toNat < den <<< k.toNat then k - 1 else k

/-- The bits of the positive double closest to a quotient, or of infinity when the quotient is
beyond every double. -/
def nearestBits (num den : Nat) : Nat :=
  if num = 0 then 0
  else
    let e := max (binaryOrder num den - 52) (-1074)
    let n := roundDiv (num <<< (-e).toNat) (den <<< e.toNat)
    min ((e + 1074).toNat * hiddenBit + n) (2047 * hiddenBit)

/-- The double closest to a signed quotient. -/
def nearest (negative : Bool) (num den : Nat) : Float :=
  Float.ofBits (UInt64.ofNat (nearestBits num den + if negative then 1 <<< 63 else 0))

end Wireframe.Decimal
