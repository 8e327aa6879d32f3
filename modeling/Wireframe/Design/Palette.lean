import Wireframe.Design.Category
import Wireframe.Design.Color
import Wireframe.Design.Keystream

/-!
# Palettes

One hue expands into the colours of a design. Colours are mixed from a hue, a saturation and a
lightness, all in single precision. A text colour and the colour behind it are moved apart in steps
of lightness until their contrast, taken of the channels that are written, is high enough, or until
there is no lightness left on the way.
-/

namespace Wireframe.Design

/-- The contrast of text, as WCAG AA asks for. -/
def textContrast : Float := 4.5

/-- The contrast of body text, as WCAG AAA asks for. -/
def bodyContrast : Float := 7

def clamp (lo hi x : Float32) : Float32 :=
  if x < lo then lo else if hi < x then hi else x

/-- A hue as an angle of at least 0 and less than 360 degrees, of one less than a turn away. -/
def wrapHue (hue : Float32) : Float32 :=
  if hue < 0 then hue + 360 else if hue < 360 then hue else hue - 360

/-- The greatest whole number that is not above `x`. From 2 ^ 23 on all numbers are whole. -/
def floor (x : Float32) : Float32 :=
  if ¬ x.abs < 8388608 then x
  else if x < 0 then
    let n := (-x).toUInt32.toFloat32
    if n < -x then -(n + 1) else -n
  else x.toUInt32.toFloat32

structure Hsl where
  /-- The angle in degrees. -/
  hue : Float32
  saturation : Float32
  lightness : Float32
deriving Inhabited

namespace Hsl

/-- A colour of a hue that may be up to a turn away. -/
def ofHue (hue saturation lightness : Float32) : Hsl :=
  ⟨wrapHue hue, saturation, lightness⟩

/-- How far the channels lie apart. -/
def chroma (c : Hsl) : Float32 :=
  (1 - (2 * c.lightness - 1).abs) * c.saturation

/-- The hue in sextants of the circle. -/
def sextants (c : Hsl) : Float32 :=
  let turned := c.hue - floor (c.hue / 360) * 360
  (if turned < 360 then turned else 0) / 60

/-- The share of the chroma that the middle channel has: it goes up along every other sextant and
down along those between. -/
def slope (h : Float32) : Float32 :=
  1 - ((h - floor (h * 0.5) * 2) - 1).abs

/-- A channel of eight bits; a half goes to the even number. Adding 2 ^ 23 to a number below it
rounds it to a whole one, which then is the low end of the bits. -/
def channel (x : Float32) : UInt8 :=
  let scaled := x * 255
  ((if scaled < 255 then scaled else 255) + 8388608).toBits.toUInt8

/-- The colour in channels, which lie around the lightness by the sextant of the hue. -/
def rgb (c : Hsl) : Rgb :=
  let chroma := c.chroma
  let h := c.sextants
  let x := chroma * slope h
  let m := c.lightness - chroma * 0.5
  let (r, g, b) :=
    if h < 1 then (chroma, x, 0)
    else if h < 2 then (x, chroma, 0)
    else if h < 3 then (0, chroma, x)
    else if h < 4 then (0, x, chroma)
    else if h < 5 then (x, 0, chroma)
    else (chroma, 0, x)
  let channelOf (v : Float32) := channel (clamp 0 1 (v + m))
  ⟨channelOf r, channelOf g, channelOf b⟩

def hex (c : Hsl) : String :=
  c.rgb.hex

/-- The colour with its lightness shifted, from none to all of it. -/
def shift (c : Hsl) (amount : Float32) : Hsl :=
  { c with lightness := clamp 0 1 (c.lightness + amount) }

/-- How far a step goes. -/
def step : Float32 := 0.02

/-- Shifts the lightness of a colour again and again, as long as the colour does not pass and there
is lightness left. -/
def moveUntil (left : Float32 → Bool) (amount : Float32) (passes : Rgb → Bool) (start : Hsl) :
    Hsl := Id.run do
  let mut c := start
  while left c.lightness && !passes c.rgb do
    c := c.shift amount
  return c

/-- What a first turn of the loop comes to. -/
theorem moveUntil_eq (left : Float32 → Bool) (amount : Float32) (passes : Rgb → Bool) (c : Hsl) :
    moveUntil left amount passes c =
      if left c.lightness && !passes c.rgb then moveUntil left amount passes (c.shift amount)
      else c := by
  have : Nonempty Hsl := ⟨c⟩
  refine (repeatM_eq_of_monadTail (m := Id) c).trans ?_
  simp only [repeatM.body]
  split <;> rfl

/-- Whether a colour has enough contrast against all others. -/
def readable (least : Float) (against : List Rgb) (c : Rgb) : Bool :=
  against.all fun other => least ≤ c.contrast other

/-- Darkens a colour step by step until it has enough contrast. -/
def darkenUntil (c : Hsl) (against : List Rgb) (least : Float) : Hsl :=
  c.moveUntil (0 < ·) (-step) (readable least against)

/-- Lightens a colour step by step until it has enough contrast. -/
def lightenUntil (c : Hsl) (against : List Rgb) (least : Float) : Hsl :=
  c.moveUntil (· < 1) step (readable least against)

end Hsl

/-- A colour and the colour of text on it. -/
structure Pairing where
  base : Hsl
  text : Rgb

/-- White or dark text on a colour, whichever reads better, and the colour moved away from it until
the text can be read. -/
def Hsl.pairing (c : Hsl) (dark : Rgb) : Pairing :=
  if c.rgb.contrast dark ≤ c.rgb.contrast .white then
    ⟨c.darkenUntil [.white] textContrast, .white⟩
  else ⟨c.lightenUntil [dark] textContrast, dark⟩

/-- How a scene places its colours around the hue. -/
structure ColorStyle where
  center : Float32
  saturation : Float32
  /-- Where the hues of the secondary colour and the accent lie, seen from the hue. -/
  secondary : Float32
  accent : Float32

def Scene.colorStyle : Scene → ColorStyle
  | professional => ⟨215, 0.55, 30, 180⟩
  | playful => ⟨320, 0.75, 60, 150⟩
  | elegant => ⟨275, 0.35, -25, 45⟩
  | energetic => ⟨18, 0.85, 40, 200⟩

/-- The hue of a scene: its centre, up to 20 degrees to either side. -/
def Scene.hue (s : Scene) (hueBits : UInt16) : Float32 :=
  wrapHue (s.colorStyle.center + ((hueBits.toFloat32 / 65535) * 40 - 20))

/-- The saturation of a scene, shifted by the seed. -/
def Scene.saturation (s : Scene) (seed : UInt64) : Float32 :=
  clamp 0.2 0.95 (s.colorStyle.saturation + Keystream.between seed (-0.08) 0.08)

/-- The colours of a scene that lead, by their role, before there is text on them. -/
def Scene.leads (s : Scene) (hueBits : UInt16) (seed : UInt64) : List (String × Hsl) :=
  let style := s.colorStyle
  let hue := s.hue hueBits
  let saturation := s.saturation seed
  let accented := saturation + 0.1
  [("primary", .ofHue hue saturation 0.45),
    ("secondary", .ofHue (hue + style.secondary) (saturation * 0.8) 0.50),
    ("accent", .ofHue (hue + style.accent) (if accented < 0.95 then accented else 0.95) 0.50)]

/-- The colours that tell a status, before there is text on them. -/
def statusColors : List (String × Hsl) :=
  [("success", .ofHue 142 0.70 0.42), ("warning", .ofHue 38 0.70 0.42),
    ("danger", .ofHue 0 0.70 0.42), ("info", .ofHue 205 0.70 0.42)]

/-- The colours of a design. -/
structure Palette where
  scene : Scene
  hue : Float32
  background : Hsl
  foreground : Hsl
  surface : Hsl
  muted : Hsl
  mutedForeground : Hsl
  border : Hsl
  /-- The colours that lead, by their role. -/
  roles : List (String × Pairing)
  statuses : List (String × Pairing)

namespace Palette

/-- The palette of a scene. -/
def make (scene : Scene) (hueBits : UInt16) (seed : UInt64) : Palette :=
  let hue := scene.hue hueBits
  let background : Hsl := .ofHue hue 0.20 0.98
  let muted : Hsl := .ofHue hue 0.12 0.92
  let foreground := (Hsl.ofHue hue 0.15 0.12).darkenUntil [background.rgb] bodyContrast
  let mutedForeground :=
    (Hsl.ofHue hue 0.10 0.42).darkenUntil [background.rgb, muted.rgb] textContrast
  let pairing : String × Hsl → String × Pairing := fun (name, c) =>
    (name, c.pairing foreground.rgb)
  { scene, hue, background, foreground, muted, mutedForeground
    surface := .ofHue hue 0.15 0.96
    border := .ofHue hue 0.12 0.86
    roles := (scene.leads hueBits seed).map pairing
    statuses := statusColors.map pairing }

/-- How much darker a colour is under the pointer. -/
def hoverShift : Float32 := -0.08

/-- The tokens of a colour and the text on it. -/
def pairTokens (name : String) (p : Pairing) : List (String × String) :=
  [("color-" ++ name, p.base.hex), ("color-" ++ name ++ "-foreground", p.text.hex)]

def tokens (p : Palette) : List (String × String) :=
  [("color-style", p.scene.name),
    ("color-hue", toString (p.hue.round.toUInt32.toNat % 360)),
    ("color-background", p.background.hex), ("color-foreground", p.foreground.hex),
    ("color-surface", p.surface.hex), ("color-muted", p.muted.hex),
    ("color-muted-foreground", p.mutedForeground.hex), ("color-border", p.border.hex)] ++
    (p.roles.flatMap fun (name, pair) =>
      pairTokens name pair ++ [("color-" ++ name ++ "-hover", (pair.base.shift hoverShift).hex)]) ++
    p.statuses.flatMap fun (name, pair) => pairTokens name pair

end Palette

end Wireframe.Design
