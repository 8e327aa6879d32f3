import Wireframe.Text.Classes

/-!
# Colours in three channels

A colour is three channels of eight bits, and is written as `#` and two hexadecimal digits a
channel. The contrast of two colours is the ratio of their luminances, from 1 for equal colours
to 21 for black and white.
-/

namespace Wireframe.Design

structure Rgb where
  red : UInt8
  green : UInt8
  blue : UInt8
deriving Repr, DecidableEq

namespace Rgb

def black : Rgb := ⟨0, 0, 0⟩

def white : Rgb := ⟨255, 255, 255⟩

/-- The written form, in small letters. -/
def hex (c : Rgb) : String :=
  String.ofList ('#' :: [c.red, c.green, c.blue].flatMap fun x => Text.hexDigits 2 x.toNat)

/-- The channel that two characters write: two digits of either case, or a plus sign and one. -/
def channel? (a b : Char) : Option UInt8 :=
  if (a = '+' ∨ Text.isHexDigit a) ∧ Text.isHexDigit b then
    some (16 * Text.hexValue a + Text.hexValue b).toUInt8
  else none

/-- The colour that a text writes. -/
def ofHex? (s : String) : Option Rgb :=
  match s.toList with
  | ['#', a, b, c, d, e, f] => do some ⟨← channel? a b, ← channel? c d, ← channel? e f⟩
  | _ => none

/-- The intensity of light that a channel stands for, from 0 to 1. -/
def intensity (channel : UInt8) : Float :=
  let x := channel.toFloat * (1 / 255)
  if x ≤ 0.04045 then x * (1 / 12.92)
  else Float.pow (x * (1 / 1.055) + 0.055 / 1.055) 2.4

/-- The luminance of a colour, from 0 for black to 1 for white. -/
def luminance (c : Rgb) : Float :=
  min 1 (0.2126729 * intensity c.red + 0.7151522 * intensity c.green +
    0.0721750 * intensity c.blue)

/-- The contrast of two colours; their order does not matter. -/
def contrast (a b : Rgb) : Float :=
  let x := a.luminance
  let y := b.luminance
  (0.05 + max x y) / (0.05 + min x y)

end Rgb

/-- The contrast of two written colours. -/
def contrastOf? (a b : String) : Option Float := do
  some ((← Rgb.ofHex? a).contrast (← Rgb.ofHex? b))

end Wireframe.Design
