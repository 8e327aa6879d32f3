import Mathlib.Tactic.SplitIfs
import Wireframe.Proofs.Design.Magnitude

/-!
# Black and white

A colour without lightness is black and one with all of it is white. The chroma is zero there, and
what it is multiplied with is finite: the saturation, and the share of the chroma that the hue gives
a channel.
-/

namespace Wireframe.Design

open Float.Model (UnpackedFloat)

/-- Zero, with either sign. -/
def IsZero (x : Float32) : Prop :=
  x = 0 ∨ x = -0

theorem isZero_iff {x : Float32} : IsZero x ↔ ∃ s, x = ⟨.pack (.zero s)⟩ := by
  constructor
  · rintro (rfl | rfl)
    · exact ⟨.positive, rfl⟩
    · exact ⟨.negative, rfl⟩
  · rintro ⟨_ | _, rfl⟩
    · exact .inr rfl
    · exact .inl rfl

theorem IsZero.mul {x y : Float32} {k : Nat} (hx : IsZero x) (hy : Within k y) :
    IsZero (x * y) := by
  obtain ⟨s, rfl⟩ := isZero_iff.mp hx
  have zero : (Float32.Model.pack (.zero s)).unpack = .zero s := by cases s <;> rfl
  refine isZero_iff.mpr ?_
  change ∃ s', Float32.ofModel (.pack (.mul .binary32 (Float32.Model.unpack _) _)) = _
  rw [Within] at hy
  rw [zero]
  generalize y.toModel.unpack = y at hy ⊢
  cases y with
  | infinity => cases hy
  | notANumber => cases hy
  | zero => exact ⟨_, rfl⟩
  | finite => exact ⟨_, rfl⟩

theorem within_wrapHue {k : Nat} {hue : Float32} (h : Within k hue) (lo : 9 ≤ k)
    (hi : k + 2 ≤ 105) : Within (k + 2) (wrapHue hue) := by
  have turn : Within k 360 := Within.mono (k := 9) (by decide +kernel) lo
  exact (h.add turn hi).ite ((h.mono (by omega)).ite (h.sub turn hi))

namespace Scene

variable (scene : Scene)

theorem within_hue (hueBits : UInt16) : Within 31 (scene.hue hueBits) := by
  have center : Within 27 scene.colorStyle.center := by cases scene <;> decide +kernel
  have share := (Within.ofUInt16 hueBits).div (y := 65535) (by decide +kernel) (by decide)
  have shift := (share.mul (y := 40) (l := 6) (by decide +kernel) (by decide)).sub (y := 20)
    (by decide +kernel) (by decide)
  exact within_wrapHue (center.add shift (by decide)) (by decide) (by decide)

theorem within_saturation (seed : UInt64) : Within 8 (scene.saturation seed) := by
  have base : Within 6 scene.colorStyle.saturation := by cases scene <;> decide +kernel
  have shift : Within 6 (Keystream.between seed (-0.08) 0.08) :=
    Keystream.within_between seed (by decide +kernel) (by decide +kernel)
  exact Within.clamp (by decide +kernel) (by decide +kernel) (base.add shift (by decide))

end Scene

namespace Hsl

/-- Whether the hue and the saturation of a colour are as small as those of palettes. -/
structure Bounded (c : Hsl) : Prop where
  hue : Within 35 c.hue
  saturation : Within 10 c.saturation

variable {c : Hsl}

theorem Bounded.shift (h : c.Bounded) (amount : Float32) : (c.shift amount).Bounded :=
  ⟨h.hue, h.saturation⟩

theorem Bounded.sextants (h : c.Bounded) : Within 49 c.sextants := by
  have turns := ((h.hue.div (y := 360) (by decide +kernel) (by decide)).floor (by decide)
    (by decide)).mul (y := 360) (l := 9) (by decide +kernel) (by decide)
  have turned := (h.hue.mono (by decide)).sub turns (by decide)
  exact (turned.ite (by decide +kernel)).div (by decide +kernel) (by decide)

theorem within_slope {h : Float32} (hh : Within 49 h) : Within 59 (slope h) := by
  have half := (hh.mul (y := 0.5) (l := 0) (by decide +kernel) (by decide)).floor (by decide)
    (by decide)
  have rest := (hh.mono (by decide)).sub
    (half.mul (y := 2) (l := 2) (by decide +kernel) (by decide)) (by decide)
  have apart := ((rest.sub (y := 1) (by decide +kernel) (by decide)).abs (by decide))
  exact Within.sub (by decide +kernel) apart (by decide)

theorem bounded_ofHue {hue saturation lightness : Float32} (hh : Within 33 hue)
    (hs : Within 10 saturation) : (ofHue hue saturation lightness).Bounded :=
  ⟨within_wrapHue hh (by decide) (by decide), hs⟩

/-- Without chroma all channels are what the lightness makes of nothing. -/
theorem rgb_of_no_chroma {v : UInt8} (h : c.Bounded) (flat : IsZero c.chroma)
    (level : ∀ a b, IsZero a → IsZero b →
      channel (clamp 0 1 (a + (c.lightness - b * 0.5))) = v) : c.rgb = ⟨v, v, v⟩ := by
  have share : IsZero (c.chroma * slope c.sextants) := flat.mul (within_slope h.sextants)
  have none : IsZero 0 := .inl rfl
  rw [rgb]
  dsimp only
  split_ifs <;> simp only [level _ _ flat flat, level _ _ share flat, level _ _ none flat]

theorem isZero_chroma (h : c.Bounded) (extreme : 1 - (2 * c.lightness - 1).abs = 0) :
    IsZero c.chroma := by
  rw [chroma, extreme]
  exact IsZero.mul (.inl rfl) h.saturation

theorem rgb_of_no_lightness (h : c.Bounded) (none : c.lightness = 0) : c.rgb = .black := by
  refine rgb_of_no_chroma h (isZero_chroma h (by rw [none]; decide +kernel)) ?_
  rw [none]
  rintro _ _ (rfl | rfl) (rfl | rfl) <;> decide +kernel

theorem rgb_of_all_lightness (h : c.Bounded) (all : c.lightness = 1) : c.rgb = .white := by
  refine rgb_of_no_chroma h (isZero_chroma h (by rw [all]; decide +kernel)) ?_
  rw [all]
  rintro _ _ (rfl | rfl) (rfl | rfl) <;> decide +kernel

end Hsl

end Wireframe.Design
