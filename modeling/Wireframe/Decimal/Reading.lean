import Wireframe.Decimal.Shortest
import Wireframe.Text.Basic

/-!
# Reading doubles

The grammar of a number: a sign, digits with an optional point among, before or behind them, and an
optional exponent; or `inf`, `infinity` or `nan` in any case. The double is the one closest to the
decimal that is written.
-/

namespace Wireframe.Decimal

/-- A sign and what follows it. -/
def signed : List Char → Bool × List Char
  | '-' :: cs => (true, cs)
  | '+' :: cs => (false, cs)
  | cs => (false, cs)

/-- The exponent that ends a number; zero when there is none. -/
def exponent? : List Char → Option Int
  | [] => some 0
  | c :: cs =>
    let (negative, ds) := signed cs
    if (c = 'e' ∨ c = 'E') ∧ ds ≠ [] ∧ ds.all Char.isDigit then
      let n : Int := Text.decimalNumber ds
      some (if negative then -n else n)
    else none

/-- The decimal that a text without a sign writes. -/
def ofText? (cs : List Char) : Option Decimal :=
  let whole := cs.takeWhile Char.isDigit
  let rest := cs.dropWhile Char.isDigit
  let (fraction, rest) := match rest with
    | '.' :: r => (r.takeWhile Char.isDigit, r.dropWhile Char.isDigit)
    | r => ([], r)
  if whole = [] ∧ fraction = [] then none
  else
    (exponent? rest).map fun e =>
      ⟨Text.decimalNumber (whole ++ fraction), e - fraction.length⟩

/-- The double that a text writes. -/
def read? (cs : List Char) : Option Float :=
  let (negative, body) := signed cs
  let word := body.map Char.toLower
  if word = "inf".toList ∨ word = "infinity".toList then
    some (if negative then -1.0 / 0.0 else 1.0 / 0.0)
  else if word = "nan".toList then some (0.0 / 0.0)
  else (ofText? body).map (toFloat negative)

end Wireframe.Decimal
