import Mathlib
import Wireframe.Design.Palette

/-!
# Magnitudes

How large a number of single precision can get. A number is finite and less than `2 ^ k` where its
first digit lies no further up, and an operation moves the first digit by no more than its operands
let expect and a place or two for the rounding. So what is calculated from bounded numbers in a few
steps is finite, whatever the numbers are, and a bound on it is found by counting.
-/

namespace Wireframe.Design

open Float.Model (Format UnpackedFloat totalExponent)
open Float.Model.UnpackedFloat

namespace Magnitude

theorem log2_le {m j : Nat} (h : m < 2 ^ j) : m.log2 ≤ j := by
  by_cases hm : m = 0
  · simp [hm]
  · exact Nat.le_of_lt ((Nat.log2_lt hm).mpr h)

theorem div_two_pow_lt {m j : Nat} (h : m < 2 ^ j) (s : Nat) : m / 2 ^ s < 2 ^ (j - s) := by
  rw [Nat.div_lt_iff_lt_mul (Nat.two_pow_pos s), ← Nat.pow_add]
  exact Nat.lt_of_lt_of_le h (Nat.pow_le_pow_right (by decide) (by omega))

theorem mantissa_shiftRight (em : ExtendedMantissa) (n : Nat) :
    (em >>> n).mantissa = em.mantissa / 2 ^ n := by
  induction n with
  | zero => exact (Nat.div_one _).symm
  | succ n ih =>
    change (em >>> n).mantissa / 2 = _
    rw [ih, Nat.div_div_eq_div_mul, Nat.pow_succ]

theorem mantissa_ofMantissaAndAccuracy (m : Nat) (a : Accuracy) :
    (ExtendedMantissa.ofMantissaAndAccuracy m a).mantissa = m := by
  unfold ExtendedMantissa.ofMantissaAndAccuracy
  split <;> rfl

theorem roundedMantissa_le (em : ExtendedMantissa) : em.roundedMantissa ≤ em.mantissa + 1 := by
  unfold ExtendedMantissa.roundedMantissa Accuracy.roundToNearestEven
  split <;> omega

/-- Whether a number is finite and, its sign apart, less than `2 ^ k`. -/
def Below (k : Nat) : UnpackedFloat → Prop
  | .zero _ => True
  | .finite _ m e _ => totalExponent m e ≤ k
  | _ => False

instance (k : Nat) : DecidablePred (Below k)
  | .zero _ => .isTrue trivial
  | .finite _ m e _ => inferInstanceAs (Decidable (totalExponent m e ≤ k))
  | .infinity _ => .isFalse id
  | .notANumber => .isFalse id

/-- Whether a number is finite and, its sign apart, at least one. -/
def AtLeastOne : UnpackedFloat → Prop
  | .finite _ m e _ => 1 ≤ totalExponent m e
  | _ => False

instance : DecidablePred AtLeastOne
  | .zero _ => .isFalse id
  | .finite _ m e _ => inferInstanceAs (Decidable (1 ≤ totalExponent m e))
  | .infinity _ => .isFalse id
  | .notANumber => .isFalse id

variable {k l : Nat} {x y : UnpackedFloat} {s : Sign} {m : Nat} {e : Int}

theorem Below.mono (h : Below k x) (hl : k ≤ l) : Below l x := by
  cases x with
  | zero => trivial
  | finite => exact Int.le_trans h (by omega)
  | infinity => exact h
  | notANumber => exact h

theorem below_finite {j : Nat} {hm : 0 < m} (h : m < 2 ^ j) (hj : 0 < j → j + e ≤ k) :
    Below k (.finite s m e hm) := by
  have digits := (Nat.log2_lt (Nat.ne_of_gt hm)).mpr h
  rw [Below, totalExponent]
  omega

/-- Shifting to an exponent divides the mantissa by as much as the exponent is raised by. -/
theorem exists_shift (m : Nat) (e : Int) (a : Accuracy) :
    ∃ n : Nat, (shiftToTargetExponent .binary32 m e a).1.mantissa = m / 2 ^ n ∧
      (shiftToTargetExponent .binary32 m e a).2 = e + n ∧
      n = (Format.binary32.targetExponent (totalExponent m e) - e).toNat :=
  ⟨_, by rw [shiftToTargetExponent, shiftToExponent, mantissa_shiftRight,
    mantissa_ofMantissaAndAccuracy], rfl, rfl⟩

theorem below_roundWithAccuracy {j : Nat} {a : Accuracy} (hm : m < 2 ^ j) (h : j + e ≤ k) :
    Below (k + 1) (roundWithAccuracy .binary32 s m e a) := by
  have log := log2_le hm
  have target : Format.binary32.targetExponent (totalExponent m e) ≤ k := by
    simp only [Format.targetExponent, totalExponent, Format.mantissaBits, Format.minExponent]
    omega
  unfold roundWithAccuracy
  obtain ⟨n, hem, he, hn⟩ := exists_shift m e a
  generalize shiftToTargetExponent .binary32 m e a = shifted at hem he ⊢
  obtain ⟨em, e₁⟩ := shifted
  dsimp only at hem he ⊢
  have rounded : em.roundedMantissa < 2 ^ (j - n + 1) := by
    have := roundedMantissa_le em
    have := div_two_pow_lt hm n
    rw [Nat.pow_succ]
    omega
  obtain ⟨n', hem', he', -⟩ := exists_shift em.roundedMantissa e₁ .exact
  generalize shiftToTargetExponent .binary32 em.roundedMantissa e₁ .exact = result at hem' he' ⊢
  split
  · trivial
  · exact below_finite (hem' ▸ div_two_pow_lt rounded n') (by omega)

theorem mul_two_pow_lt {j n : Nat} (h : m < 2 ^ j) (d : Nat) (hn : j + d ≤ n) :
    m <<< d < 2 ^ n := by
  rw [Nat.shiftLeft_eq]
  calc m * 2 ^ d < 2 ^ j * 2 ^ d := Nat.mul_lt_mul_of_pos_right h (Nat.two_pow_pos d)
    _ = 2 ^ (j + d) := (Nat.pow_add ..).symm
    _ ≤ 2 ^ n := Nat.pow_le_pow_right (by decide) hn

theorem below_round {j : Nat} (hm : m < 2 ^ j) (h : j + e ≤ k) :
    Below (k + 1) (round .binary32 s m e) :=
  below_roundWithAccuracy (mul_two_pow_lt hm _ (Nat.le_refl _)) (by omega)

theorem below_normalize {j : Nat} {z : Int} (hz : z.natAbs < 2 ^ j) (h : j + e ≤ k) :
    Below (k + 1) (UnpackedFloat.normalize .binary32 z e s) := by
  unfold UnpackedFloat.normalize
  split
  · exact below_round (by omega) h
  · trivial
  · exact below_round (by omega) h

theorem natAbs_apply (s : Sign) (z : Int) : (s.apply z).natAbs = z.natAbs := by
  cases s
  · exact Int.natAbs_neg z
  · rfl

theorem below_add (hx : Below k x) (hy : Below k y) : Below (k + 2) (add .binary32 x y) := by
  cases x with
  | infinity => cases hx
  | notANumber => cases hx
  | zero s =>
    cases y with
    | infinity => cases hy
    | notANumber => cases hy
    | zero s' =>
      unfold add
      dsimp only
      split <;> trivial
    | finite => exact hy.mono (by omega)
  | finite s₁ m₁ e₁ _ =>
    cases y with
    | infinity => cases hy
    | notANumber => cases hy
    | zero => exact hx.mono (by omega)
    | finite s₂ m₂ e₂ _ =>
      have hx : m₁.log2 + 1 + e₁ ≤ (k : Int) := hx
      have hy : m₂.log2 + 1 + e₂ ≤ (k : Int) := hy
      have fst := mul_two_pow_lt (n := (k - min e₁ e₂).toNat) m₁.lt_log2_self
        (e₁ - min e₁ e₂).toNat (by omega)
      have snd := mul_two_pow_lt (n := (k - min e₁ e₂).toNat) m₂.lt_log2_self
        (e₂ - min e₁ e₂).toNat (by omega)
      refine below_normalize (j := (k - min e₁ e₂).toNat + 1) ?_ (by omega)
      rw [Nat.pow_succ]
      have sum := Int.natAbs_add_le (s₁.apply (m₁ <<< (e₁ - min e₁ e₂).toNat : Nat))
        (s₂.apply (m₂ <<< (e₂ - min e₁ e₂).toNat : Nat))
      rw [natAbs_apply, natAbs_apply, Int.natAbs_natCast, Int.natAbs_natCast] at sum
      exact Nat.lt_of_le_of_lt sum (by omega)

theorem below_neg (hx : Below k x) : Below k (neg x) := by
  cases x <;> exact hx

theorem below_abs (hx : Below k x) : Below k (abs x) := by
  cases x <;> exact hx

theorem apply_neg (s : Sign) (z : Int) : (-s).apply z = -s.apply z := by
  cases s
  · exact (Int.neg_neg z).symm
  · rfl

theorem sub_eq_add_neg (x y : UnpackedFloat) : sub .binary32 x y = add .binary32 x (neg y) := by
  cases x <;> cases y <;> try rfl
  simp only [sub, add, neg, apply_neg]
  rfl

theorem below_mul (hx : Below k x) (hy : Below l y) : Below (k + l + 1) (mul .binary32 x y) := by
  cases x with
  | infinity => cases hx
  | notANumber => cases hx
  | zero => cases y <;> trivial
  | finite s₁ m₁ e₁ _ =>
    cases y with
    | infinity => cases hy
    | notANumber => cases hy
    | zero => trivial
    | finite s₂ m₂ e₂ _ =>
      have hx : m₁.log2 + 1 + e₁ ≤ (k : Int) := hx
      have hy : m₂.log2 + 1 + e₂ ≤ (l : Int) := hy
      refine below_roundWithAccuracy (j := (m₁.log2 + 1) + (m₂.log2 + 1)) ?_ (by omega)
      rw [Nat.pow_add]
      exact Nat.mul_lt_mul'' m₁.lt_log2_self m₂.lt_log2_self

/-- What is divided by a number of at least one gets no larger. -/
theorem below_div (hx : Below k x) (hy : AtLeastOne y) : Below (k + 1) (div .binary32 x y) := by
  cases x with
  | infinity => cases hx
  | notANumber => cases hx
  | zero => cases y <;> trivial
  | finite s₁ m₁ e₁ _ =>
    cases y with
    | infinity => cases hy
    | notANumber => cases hy
    | zero => cases hy
    | finite s₂ m₂ e₂ hm₂ =>
      have hx : m₁.log2 + 1 + e₁ ≤ (k : Int) := hx
      have hy : 1 ≤ m₂.log2 + 1 + e₂ := hy
      unfold div divCore
      dsimp only
      generalize ht : min (e₁ - e₂) (Format.binary32.targetExponent _) = t
      have target : t ≤ k := by
        rw [← ht]
        simp only [Format.targetExponent, totalExponent, Format.mantissaBits, Format.minExponent]
        omega
      -- The quotient loses the digits of the divisor, or is nothing where it has more of them.
      generalize hj : m₁.log2 + 1 + (e₁ - e₂ - t).toNat - m₂.log2 = j
      refine below_roundWithAccuracy (j := j) ?_ (by omega)
      rw [Nat.div_lt_iff_lt_mul hm₂]
      calc m₁ <<< (e₁ - e₂ - t).toNat
        _ < 2 ^ (j + m₂.log2) := mul_two_pow_lt m₁.lt_log2_self _ (by omega)
        _ = 2 ^ j * 2 ^ m₂.log2 := Nat.pow_add ..
        _ ≤ 2 ^ j * m₂ := Nat.mul_le_mul_left _ (Nat.log2_self_le (Nat.ne_of_gt hm₂))

/-- The bits that write a number give its magnitude in a field of their own. -/
theorem below_unpack {b : BitVec 32} (hk : k ≤ 105)
    (h : (@unpackExponent .binary32 b).toNat ≤ k + 126) :
    Below k (unpack .binary32 b) := by
  unfold unpack
  dsimp only
  split
  · next ones =>
    rw [ones] at h
    exact absurd h (by change ¬255 ≤ _; omega)
  · split
    · next none =>
      split
      · trivial
      · refine below_finite (@unpackMantissa .binary32 b).isLt fun _ => ?_
        rw [none]
        change 23 + (-150 + 1) ≤ (k : Int)
        omega
    · refine below_finite (1#1 ++ @unpackMantissa .binary32 b).isLt fun _ => ?_
      change 24 + (_ - 150) ≤ (k : Int)
      omega

theorem toNat_unpackExponent_pack_le (hk : k ≤ 105) (hx : Below k x) :
    (unpackExponent (pack .binary32 x)).toNat ≤ k + 126 := by
  cases x with
  | infinity => cases hx
  | notANumber => cases hx
  | zero => simp [pack, packedZero]
  | finite s m e hm =>
    have hx : m.log2 + 1 + e ≤ (k : Int) := hx
    unfold pack
    dsimp only
    split
    · next large =>
      change 256 ≤ (e + 127 + 23).toNat + 1 at large
      omega
    · split
      · next normal =>
        rw [unpackExponent_packComponents, BitVec.toNat_ofNat]
        change (e + 127 + 23).toNat % 256 ≤ _
        change m.log2 + 1 = 24 at normal
        omega
      · simp

theorem below_unpack_pack (hk : k ≤ 105) (hx : Below k x) :
    Below k (unpack .binary32 (pack .binary32 x)) :=
  below_unpack hk (toNat_unpackExponent_pack_le hk hx)

end Magnitude

open Magnitude

/-- Whether a number is finite and, its sign apart, less than `2 ^ k`. -/
def Within (k : Nat) (x : Float32) : Prop :=
  Below k x.toModel.unpack

instance (k : Nat) : DecidablePred (Within k) :=
  fun x => inferInstanceAs (Decidable (Below k x.toModel.unpack))

namespace Within

variable {k l : Nat} {x y lo hi : Float32}

theorem mono (h : Within k x) (hl : k ≤ l) : Within l x :=
  Below.mono h hl

theorem ite {p : Prop} [Decidable p] (hx : Within k x) (hy : Within k y) :
    Within k (if p then x else y) := by
  split
  · exact hx
  · exact hy

/-- What a number of single precision is made of, it is made of as long as it is not too large. -/
theorem of_pack {f : UnpackedFloat} (h : Below k f) (hk : k ≤ 105) : Within k ⟨.pack f⟩ :=
  below_unpack_pack hk h

theorem add (hx : Within k x) (hy : Within k y) (hk : k + 2 ≤ 105) : Within (k + 2) (x + y) :=
  of_pack (below_add hx hy) hk

theorem sub (hx : Within k x) (hy : Within k y) (hk : k + 2 ≤ 105) : Within (k + 2) (x - y) :=
  of_pack (sub_eq_add_neg .. ▸ below_add hx (below_neg hy)) hk

theorem mul (hx : Within k x) (hy : Within l y) (hk : k + l + 1 ≤ 105) :
    Within (k + l + 1) (x * y) :=
  of_pack (below_mul hx hy) hk

theorem div (hx : Within k x) (hy : AtLeastOne y.toModel.unpack) (hk : k + 1 ≤ 105) :
    Within (k + 1) (x / y) :=
  of_pack (below_div hx hy) hk

theorem neg (hx : Within k x) (hk : k ≤ 105) : Within k (-x) :=
  of_pack (below_neg hx) hk

theorem abs (hx : Within k x) (hk : k ≤ 105) : Within k x.abs :=
  of_pack (below_abs hx) hk

theorem ofUInt16 (n : UInt16) : Within 17 n.toFloat32 :=
  of_pack (below_normalize (j := 16) n.toNat_lt (by decide)) (by decide)

theorem ofUInt32 (n : UInt32) : Within 33 n.toFloat32 :=
  of_pack (below_normalize (j := 32) n.toNat_lt (by decide)) (by decide)

theorem clamp (hlo : Within k lo) (hhi : Within k hi) (hx : Within k x) :
    Within k (clamp lo hi x) :=
  hlo.ite (hhi.ite hx)

theorem floor (hx : Within k x) (le : 35 ≤ k) (hk : k ≤ 105) : Within k (floor x) := by
  have whole (n : UInt32) : Within k n.toFloat32 := (ofUInt32 n).mono (by omega)
  have next (n : UInt32) : Within k (n.toFloat32 + 1) :=
    ((ofUInt32 n).add (by decide +kernel) (by decide)).mono le
  exact hx.ite (.ite (.ite ((next _).neg hk) ((whole _).neg hk)) (whole _))

end Within

namespace Keystream

/-- The bits of a word are digits only: the field of the magnitude is the same for all words. -/
theorem toNat_unpackExponent_word (w : UInt32) :
    (@unpackExponent .binary32 ((w >>> 9) ||| 0x3f800000).toBitVec).toNat = 127 := by
  have shifted : w.toNat >>> 9 >>> 23 = 0 := by
    rw [← Nat.shiftRight_add]
    exact Nat.shiftRight_eq_zero _ _ w.toNat_lt
  change ((w.toNat >>> 9) ||| 0x3f800000) >>> 23 % 256 = 127
  rw [Nat.shiftRight_or_distrib, shifted]
  decide

theorem within_unit (w : UInt32) : Within 3 (unit w) := by
  have number : Within 1 (Float32.ofBits ((w >>> 9) ||| 0x3f800000)) :=
    .of_pack (below_unpack (by decide) (Nat.le_of_eq (toNat_unpackExponent_word w))) (by decide)
  exact number.sub (by decide +kernel) (by decide)

theorem within_between (seed : UInt64) {lo hi : Float32} (hlo : Within 4 lo)
    (span : Within 0 (hi - lo)) : Within 6 (between seed lo hi) := by
  have draw (w : UInt32) : Within 6 (unit w * (hi - lo) + lo) :=
    ((within_unit w).mul span (by decide)).add hlo (by decide)
  rw [between]
  cases h : ((block seed).map fun w => unit w * (hi - lo) + lo).find? (· < hi) with
  | none => exact hlo.mono (by decide)
  | some x =>
    obtain ⟨w, -, rfl⟩ := List.mem_map.mp (List.mem_of_find?_eq_some h)
    exact draw w

end Keystream

end Wireframe.Design
