import Mathlib
import Wireframe.Decimal.Binary

/-!
# The double closest to a quotient

Only the quotient counts, not the two numbers it is written with (`nearest_congr`). A quotient that
is a double is rounded to that double (`nearest_ratio`), one too small for every double to zero, and
one from halfway beyond the greatest double on to infinity (`isFinite_nearest`).
-/

namespace Wireframe.Decimal

/-! ## The order of a quotient -/

/-- A quotient is divided by a power of two on the side where that is a multiplication. -/
theorem shiftLeft_div_shiftLeft (num den : Nat) (k : Int) :
    (num <<< (-k).toNat : ℕ) / (den <<< k.toNat : ℕ) = (num / den / 2 ^ k : ℚ) := by
  obtain ⟨n, rfl | rfl⟩ := k.eq_nat_or_neg
  · simp only [Int.toNat_neg_natCast, Int.toNat_natCast, Nat.shiftLeft_eq, pow_zero, mul_one,
      zpow_natCast]
    push_cast
    rw [div_div]
  · simp only [neg_neg, Int.toNat_natCast, Int.toNat_neg_natCast, Nat.shiftLeft_eq, pow_zero,
      mul_one, zpow_neg, zpow_natCast]
    push_cast
    rw [div_inv_eq_mul, div_mul_eq_mul_div]

theorem shiftLeft_pos {n : Nat} (hn : 0 < n) (k : Nat) : 0 < n <<< k := by
  rw [Nat.shiftLeft_eq]
  positivity

/-- Multiples of a quotient and of a power of two are compared as natural numbers. -/
theorem mul_shiftLeft_lt_iff (a b num : Nat) {den : Nat} (hd : 0 < den) (k : Int) :
    a * num <<< (-k).toNat < b * den <<< k.toNat ↔ (a * (num / den) : ℚ) < b * 2 ^ k := by
  have positive : (0 : ℚ) < (den <<< k.toNat : ℕ) := by exact_mod_cast shiftLeft_pos hd _
  calc a * num <<< (-k).toNat < b * den <<< k.toNat
      ↔ (a : ℚ) * (num <<< (-k).toNat : ℕ) < b * (den <<< k.toNat : ℕ) := by exact_mod_cast Iff.rfl
    _ ↔ (a * ((num <<< (-k).toNat : ℕ) / (den <<< k.toNat : ℕ)) : ℚ) < b := by
        rw [← mul_div_assoc, div_lt_iff₀ positive]
    _ ↔ (a * (num / den) : ℚ) < b * 2 ^ k := by
        rw [shiftLeft_div_shiftLeft, ← mul_div_assoc, div_lt_iff₀ (by positivity)]

theorem binaryOrder_eq_log {num den : Nat} (hn : 0 < num) (hd : 0 < den) :
    binaryOrder num den = Int.log 2 (num / den : ℚ) := by
  have hdq : (0 : ℚ) < den := by exact_mod_cast hd
  have two : (2 : ℚ) ≠ 0 := two_ne_zero
  -- the orders of the two numbers leave only two orders for their quotient
  have numLower : (2 : ℚ) ^ (num.log2 : Int) ≤ num := by
    exact_mod_cast Nat.log2_self_le hn.ne'
  have numUpper : (num : ℚ) < 2 ^ (num.log2 + 1 : Int) := by
    exact_mod_cast Nat.lt_log2_self (n := num)
  have denLower : (2 : ℚ) ^ (den.log2 : Int) ≤ den := by
    exact_mod_cast Nat.log2_self_le hd.ne'
  have denUpper : (den : ℚ) < 2 ^ (den.log2 + 1 : Int) := by
    exact_mod_cast Nat.lt_log2_self (n := den)
  have lower : (2 : ℚ) ^ ((num.log2 : Int) - den.log2 - 1) ≤ num / den := by
    rw [le_div_iff₀ hdq]
    calc (2 : ℚ) ^ ((num.log2 : Int) - den.log2 - 1) * den
        ≤ 2 ^ ((num.log2 : Int) - den.log2 - 1) * 2 ^ (den.log2 + 1 : Int) := by gcongr
      _ = 2 ^ (num.log2 : Int) := by rw [← zpow_add₀ two]; congr 1; ring
      _ ≤ num := numLower
  have upper : (num / den : ℚ) < 2 ^ ((num.log2 : Int) - den.log2 + 1) := by
    rw [div_lt_iff₀ hdq]
    calc (num : ℚ) < 2 ^ (num.log2 + 1 : Int) := numUpper
      _ = 2 ^ ((num.log2 : Int) - den.log2 + 1) * 2 ^ (den.log2 : Int) := by
          rw [← zpow_add₀ two]; congr 1; ring
      _ ≤ 2 ^ ((num.log2 : Int) - den.log2 + 1) * den := by gcongr
  have positive : (0 : ℚ) < num / den := div_pos (by exact_mod_cast hn) hdq
  have below (k : Int) : (num / den : ℚ) < 2 ^ k ↔ Int.log 2 (num / den : ℚ) < k := by
    exact_mod_cast Int.lt_zpow_iff_log_lt one_lt_two positive
  have above (k : Int) : (2 : ℚ) ^ k ≤ num / den ↔ k ≤ Int.log 2 (num / den : ℚ) := by
    exact_mod_cast Int.zpow_le_iff_le_log one_lt_two positive
  have test (k : Int) : num <<< (-k).toNat < den <<< k.toNat ↔
      Int.log 2 (num / den : ℚ) < k := by
    have compare := mul_shiftLeft_lt_iff 1 1 num hd k
    rwa [one_mul, one_mul, Nat.cast_one, one_mul, one_mul, below] at compare
  rw [above] at lower
  rw [below] at upper
  unfold binaryOrder
  simp only [test]
  split <;> omega

theorem binaryOrder_lt_iff {num den : Nat} (hn : 0 < num) (hd : 0 < den) (k : Int) :
    binaryOrder num den < k ↔ (num / den : ℚ) < 2 ^ k := by
  have positive : (0 : ℚ) < num / den :=
    div_pos (by exact_mod_cast hn) (by exact_mod_cast hd)
  rw [binaryOrder_eq_log hn hd]
  exact_mod_cast (Int.lt_zpow_iff_log_lt one_lt_two positive).symm

/-! ## Rounding depends on the quotient alone -/

theorem roundDiv_mul_left {s : Nat} (hs : 0 < s) (num den : Nat) :
    roundDiv (s * num) (s * den) = roundDiv num den := by
  have half : 2 * (s * (num % den)) = s * (2 * (num % den)) := Nat.mul_left_comm 2 s _
  simp only [roundDiv, Nat.mul_div_mul_left _ _ hs, Nat.mul_mod_mul_left, half,
    Nat.mul_lt_mul_left hs, Nat.mul_right_inj hs.ne']

theorem roundDiv_mul_self (n : Nat) {den : Nat} (hd : 0 < den) : roundDiv (n * den) den = n := by
  simp [roundDiv, Nat.mul_div_cancel _ hd, hd.ne]

theorem roundDiv_eq_zero {num den : Nat} (h : 2 * num < den) : roundDiv num den = 0 := by
  have under : num < den := by omega
  simp only [roundDiv, Nat.div_eq_of_lt under, Nat.mod_eq_of_lt under]
  rw [if_neg (by omega)]

theorem le_roundDiv {n num den : Nat} (hd : 0 < den) (h : n * den ≤ num) :
    n ≤ roundDiv num den := by
  have floor : n ≤ num / den := (Nat.le_div_iff_mul_le hd).mpr h
  simp only [roundDiv]
  split <;> omega

/-- What is halfway between an odd number and the next one is rounded up. -/
theorem roundDiv_le_iff {n num den : Nat} (hn : n % 2 = 1) (hd : 0 < den) :
    roundDiv num den ≤ n ↔ 2 * num < (2 * n + 1) * den := by
  have whole : den * (num / den) + num % den = num := Nat.div_add_mod num den
  have less : num % den < den := Nat.mod_lt _ hd
  have twice : (2 * n + 1) * den = 2 * (den * n) + den := by ring
  simp only [roundDiv]
  rcases lt_trichotomy (num / den) n with below | same | above
  · have bound : den * (num / den + 1) ≤ den * n := Nat.mul_le_mul_left den below
    rw [Nat.mul_succ] at bound
    constructor
    · omega
    · split <;> omega
  · rw [same] at whole
    simp only [same, hn, and_true]
    split <;> omega
  · have bound : den * (n + 1) ≤ den * (num / den) := Nat.mul_le_mul_left den above
    rw [Nat.mul_succ] at bound
    constructor
    · split <;> omega
    · omega

@[simp] theorem nearestBits_zero (den : Nat) : nearestBits 0 den = 0 :=
  if_pos rfl

theorem nearestBits_of_pos {num den : Nat} (hn : 0 < num) {e : Int}
    (he : max (binaryOrder num den - 52) (-1074) = e) :
    nearestBits num den =
      min ((e + 1074).toNat * hiddenBit + roundDiv (num <<< (-e).toNat) (den <<< e.toNat))
        (2047 * hiddenBit) := by
  subst he
  rw [nearestBits, if_neg hn.ne']

theorem nearestBits_mul_left {s : Nat} (hs : 0 < s) (num : Nat) {den : Nat} (hd : 0 < den) :
    nearestBits (s * num) (s * den) = nearestBits num den := by
  rcases Nat.eq_zero_or_pos num with rfl | hn
  · rw [Nat.mul_zero, nearestBits_zero, nearestBits_zero]
  have order : binaryOrder (s * num) (s * den) = binaryOrder num den := by
    rw [binaryOrder_eq_log (Nat.mul_pos hs hn) (Nat.mul_pos hs hd), binaryOrder_eq_log hn hd]
    push_cast
    rw [mul_div_mul_left _ _ (by exact_mod_cast hs.ne')]
  have shift (a k : Nat) : (s * a) <<< k = s * a <<< k := by
    simp only [Nat.shiftLeft_eq, Nat.mul_assoc]
  obtain ⟨e, he⟩ : ∃ e, max (binaryOrder num den - 52) (-1074) = e := ⟨_, rfl⟩
  rw [nearestBits_of_pos hn he, nearestBits_of_pos (Nat.mul_pos hs hn) (by rw [order, he]), shift,
    shift, roundDiv_mul_left hs]

theorem nearestBits_congr {a b c d : Nat} (hb : 0 < b) (hd : 0 < d)
    (h : (a / b : ℚ) = c / d) : nearestBits a b = nearestBits c d := by
  have cross : d * a = b * c := by
    rw [div_eq_div_iff (by exact_mod_cast hb.ne') (by exact_mod_cast hd.ne')] at h
    rw [Nat.mul_comm d, Nat.mul_comm b]
    exact_mod_cast h
  calc nearestBits a b = nearestBits (d * a) (d * b) := (nearestBits_mul_left hd a hb).symm
    _ = nearestBits (b * c) (b * d) := by rw [cross, Nat.mul_comm d b]
    _ = nearestBits c d := nearestBits_mul_left hb c hd

theorem nearest_congr (negative : Bool) {a b c d : Nat} (hb : 0 < b) (hd : 0 < d)
    (h : (a / b : ℚ) = c / d) : nearest negative a b = nearest negative c d := by
  simp only [nearest, nearestBits_congr hb hd h]

/-! ## Beyond the doubles -/

theorem nearestBits_le (num den : Nat) : nearestBits num den ≤ 2047 * hiddenBit := by
  rcases Nat.eq_zero_or_pos num with rfl | hn
  · rw [nearestBits_zero]
    exact Nat.zero_le _
  · rw [nearestBits_of_pos hn rfl]
    exact Nat.min_le_right _ _

/-- Less than half of the least double is rounded to zero. -/
theorem nearestBits_eq_zero {num den : Nat} (hd : 0 < den)
    (h : (num / den : ℚ) < 2 ^ (-1075 : Int)) : nearestBits num den = 0 := by
  rcases Nat.eq_zero_or_pos num with rfl | hn
  · exact nearestBits_zero den
  have order := (binaryOrder_lt_iff hn hd _).mpr h
  obtain ⟨e, he⟩ : ∃ e : Int, e = -1074 := ⟨_, rfl⟩
  have least : max (binaryOrder num den - 52) (-1074) = e := by omega
  have half : 2 * num <<< (-e).toNat < den <<< e.toNat := by
    have compare := mul_shiftLeft_lt_iff 2 1 num hd e
    have next : e = 1 + -1075 := by omega
    rw [one_mul, Nat.cast_one, one_mul, next, zpow_one_add₀ two_ne_zero, Nat.cast_ofNat] at compare
    rw [next]
    exact compare.mpr (by linarith)
  rw [nearestBits_of_pos hn least, roundDiv_eq_zero half, show (e + 1074).toNat = 0 by omega]
  omega

/-- Halfway between the greatest double and the one that would follow it. -/
def overflowThreshold : ℚ := 2 ^ (1024 : Int) - 2 ^ (970 : Int)

theorem overflowThreshold_eq : overflowThreshold = (2 ^ 54 - 1) * 2 ^ (970 : Int) := by
  have order : (1024 : Int) = 54 + 970 := by norm_num
  rw [overflowThreshold, order, zpow_add₀ two_ne_zero, sub_mul, one_mul]
  rfl

/-- From halfway beyond the greatest double on, quotients are rounded to infinity. -/
theorem nearestBits_lt_iff {num den : Nat} (hd : 0 < den) :
    nearestBits num den < 2047 * hiddenBit ↔ (num / den : ℚ) < overflowThreshold := by
  rcases Nat.eq_zero_or_pos num with rfl | hn
  · refine iff_of_true (by rw [nearestBits_zero]; decide) ?_
    rw [Nat.cast_zero, zero_div, overflowThreshold, sub_pos]
    exact zpow_lt_zpow_right₀ one_lt_two (by norm_num)
  obtain ⟨k, hk⟩ : ∃ k, binaryOrder num den = k := ⟨_, rfl⟩
  obtain ⟨e, he⟩ : ∃ e, max (k - 52) (-1074) = e := ⟨_, rfl⟩
  have order (j : Int) : k < j ↔ (num / den : ℚ) < 2 ^ j := hk ▸ binaryOrder_lt_iff hn hd j
  have significand (n : Nat) (hn : n % 2 = 1) :
      roundDiv (num <<< (-e).toNat) (den <<< e.toNat) ≤ n ↔
        2 * (num / den : ℚ) < (2 * n + 1) * 2 ^ e := by
    rw [roundDiv_le_iff hn (shiftLeft_pos hd _), mul_shiftLeft_lt_iff 2 (2 * n + 1) num hd e]
    push_cast
    rfl
  rw [nearestBits_of_pos hn (hk ▸ he), min_lt_iff, or_iff_left (lt_irrefl _)]
  rcases lt_trichotomy k 1023 with below | top | above
  · have rounded : roundDiv (num <<< (-e).toNat) (den <<< e.toNat) ≤ 2 * hiddenBit + 1 := by
      refine (significand _ (by decide)).mpr ?_
      have upper : (num / den : ℚ) < 2 ^ (53 + e) := (order _).mp (by omega)
      rw [zpow_add₀ two_ne_zero] at upper
      have positive : (0 : ℚ) < 2 ^ e := by positivity
      norm_num [hiddenBit] at upper ⊢
      linarith
    have small : (num / den : ℚ) < overflowThreshold := by
      have upper : (num / den : ℚ) < 2 ^ (53 + 970 : Int) := (order _).mp (by omega)
      rw [zpow_add₀ two_ne_zero] at upper
      rw [overflowThreshold_eq]
      exact upper.trans (mul_lt_mul_of_pos_right (by norm_num) (by positivity))
    refine iff_of_true ?_ small
    unfold hiddenBit at rounded ⊢
    omega
  · obtain rfl : e = 971 := by omega
    have half : 2 * (num / den : ℚ) < (2 * (2 * hiddenBit - 1 : ℕ) + 1) * 2 ^ (971 : Int) ↔
        (num / den : ℚ) < overflowThreshold := by
      have next : (971 : Int) = 1 + 970 := by norm_num
      rw [overflowThreshold_eq, next, zpow_one_add₀ two_ne_zero, ← mul_assoc, mul_comm _ (2 : ℚ), mul_assoc,
        mul_lt_mul_iff_right₀ two_pos]
      norm_num [hiddenBit]
    rw [← half, ← significand _ (by decide)]
    unfold hiddenBit
    omega
  · have large : (2 : ℚ) ^ (1024 : Int) ≤ num / den := not_lt.mp (mt (order 1024).mpr (by omega))
    have full : hiddenBit ≤ roundDiv (num <<< (-e).toNat) (den <<< e.toNat) := by
      refine le_roundDiv (shiftLeft_pos hd _) (not_lt.mp ?_)
      have compare := mul_shiftLeft_lt_iff 1 hiddenBit num hd e
      rw [one_mul, Nat.cast_one, one_mul] at compare
      rw [compare, not_lt]
      have hidden : (hiddenBit : ℚ) = 2 ^ (52 : Int) := by norm_num [hiddenBit]
      rw [hidden, ← zpow_add₀ two_ne_zero]
      exact not_lt.mp (mt (order _).mpr (by omega))
    refine iff_of_false ?_ (not_lt.mpr (le_trans (sub_le_self _ (by positivity)) large))
    unfold hiddenBit at full ⊢
    omega

/-- What is beyond every double is rounded to infinity. -/
theorem nearestBits_eq_infinite {num den : Nat} (hd : 0 < den)
    (h : (2 : ℚ) ^ (1024 : Int) ≤ num / den) : nearestBits num den = 2047 * hiddenBit := by
  have large : overflowThreshold ≤ num / den :=
    le_trans (sub_le_self _ (by positivity)) h
  exact Nat.le_antisymm (nearestBits_le num den)
    (not_lt.mp (mt (nearestBits_lt_iff hd).mp (not_lt.mpr large)))

/-! ## Doubles are rounded to themselves -/

/-- What the parts of a double are like: the significand has its hidden bit unless the exponent is
the least one. -/
structure Binary.Normal (b : Binary) : Prop where
  lt_hiddenBit : b.significand < 2 * hiddenBit
  least_le : -1074 ≤ b.exponent
  le_greatest : b.exponent ≤ 971
  hidden : hiddenBit ≤ b.significand ∨ b.exponent = -1074

namespace Binary

/-- The bits that stand for a magnitude. -/
def magnitudeBits (b : Binary) : Nat :=
  (b.exponent + 1074).toNat * hiddenBit + b.significand

/-- The magnitude as a number. -/
def value (b : Binary) : ℚ :=
  b.significand * 2 ^ b.exponent

theorem ratio_pos (b : Binary) : 0 < b.ratio.2 :=
  shiftLeft_pos Nat.one_pos _

theorem ratio_value (b : Binary) : (b.ratio.1 / b.ratio.2 : ℚ) = b.value := by
  have shifted := shiftLeft_div_shiftLeft b.significand 1 (-b.exponent)
  rw [neg_neg, Nat.cast_one, div_one, zpow_neg, div_inv_eq_mul] at shifted
  exact shifted

variable {b : Binary} {x : Float}

theorem Normal.magnitudeBits_lt (hb : b.Normal) : b.magnitudeBits < 2047 * hiddenBit := by
  obtain ⟨upper, least, greatest, -⟩ := hb
  have biased : (b.exponent + 1074).toNat ≤ 2045 := by omega
  calc b.magnitudeBits < (b.exponent + 1074).toNat * hiddenBit + 2 * hiddenBit :=
        Nat.add_lt_add_left upper _
    _ ≤ 2045 * hiddenBit + 2 * hiddenBit :=
        Nat.add_le_add_right (Nat.mul_le_mul_right hiddenBit biased) _
    _ = 2047 * hiddenBit := (Nat.add_mul 2045 2 hiddenBit).symm

theorem Normal.nearestBits_ratio (hb : b.Normal) :
    nearestBits b.ratio.1 b.ratio.2 = b.magnitudeBits := by
  rcases Nat.eq_zero_or_pos b.significand with zero | positive
  · have least : b.exponent = -1074 := hb.hidden.resolve_left (by rw [zero]; decide)
    simp [ratio, magnitudeBits, zero, least]
  have hn : 0 < b.ratio.1 := shiftLeft_pos positive _
  have upper : binaryOrder b.ratio.1 b.ratio.2 < b.exponent + 53 := by
    rw [binaryOrder_lt_iff hn b.ratio_pos, ratio_value, value, zpow_add₀ two_ne_zero, mul_comm]
    have bound : (b.significand : ℚ) < 2 ^ (53 : Int) := by
      have := hb.lt_hiddenBit
      norm_num [hiddenBit] at this ⊢
      exact_mod_cast this
    gcongr
  have lower (h : hiddenBit ≤ b.significand) :
      b.exponent + 52 ≤ binaryOrder b.ratio.1 b.ratio.2 := by
    rw [← not_lt, binaryOrder_lt_iff hn b.ratio_pos, not_lt, ratio_value, value,
      zpow_add₀ two_ne_zero, mul_comm]
    have bound : (2 : ℚ) ^ (52 : Int) ≤ b.significand := by
      norm_num [hiddenBit] at h ⊢
      exact_mod_cast h
    gcongr
  have least : max (binaryOrder b.ratio.1 b.ratio.2 - 52) (-1074) = b.exponent := by
    have := hb.least_le
    rcases hb.hidden with h | h
    · have := lower h
      omega
    · omega
  have whole : b.ratio.1 <<< (-b.exponent).toNat =
      b.significand * b.ratio.2 <<< b.exponent.toNat := by
    simp only [ratio, Nat.shiftLeft_eq]
    ring
  rw [nearestBits_of_pos hn least, whole, roundDiv_mul_self _ (shiftLeft_pos b.ratio_pos _)]
  exact Nat.min_eq_left hb.magnitudeBits_lt.le

theorem normal_of_ofFloat? (h : ofFloat? x = some b) : b.Normal := by
  simp only [ofFloat?] at h
  have biased : x.toBits.toNat >>> 52 % 2048 < 2048 := Nat.mod_lt _ (by decide)
  have fraction : x.toBits.toNat % hiddenBit < hiddenBit := Nat.mod_lt _ (by decide)
  split at h
  · cases h
  · split at h <;> obtain rfl := Option.some.inj h
    · exact ⟨by dsimp only; omega, le_rfl, by dsimp only; omega, .inr rfl⟩
    · exact ⟨by dsimp only; omega, by dsimp only; omega, by dsimp only; omega,
        .inl (Nat.le_add_left _ _)⟩

theorem isSome_ofFloat? (x : Float) :
    (ofFloat? x).isSome = true ↔ x.toBits.toNat >>> 52 % 2048 ≠ 2047 := by
  simp only [ofFloat?]
  split
  next special => simp [special]
  next finite => split <;> simp [finite]

/-- The parts of a double tell all of its bits. -/
theorem toBits_of_ofFloat? (h : ofFloat? x = some b) :
    x.toBits.toNat = b.magnitudeBits + if b.negative then 1 <<< 63 else 0 := by
  have size := x.toBits.toNat_lt
  simp only [ofFloat?, Nat.shiftRight_eq_div_pow, hiddenBit] at h
  simp only [magnitudeBits, hiddenBit]
  split at h
  · cases h
  · split at h <;> obtain rfl := Option.some.inj h <;> simp only [beq_iff_eq] <;> split <;> omega

end Binary

/-- A finite double is the closest one to its own magnitude. -/
theorem nearest_ratio {x : Float} {b : Binary} (h : Binary.ofFloat? x = some b) :
    nearest b.negative b.ratio.1 b.ratio.2 = x := by
  rw [nearest, (Binary.normal_of_ofFloat? h).nearestBits_ratio, ← Binary.toBits_of_ofFloat? h,
    UInt64.ofNat_toNat, Float.ofBits_toBits]

/-! ## The bits of a double -/

section Bits

open Float.Model (Format)
open Float.Model.UnpackedFloat

theorem unpackExponent_eq_iff (u : UInt64) :
    @unpackExponent Format.binary64 u.toBitVec = -1#11 ↔
      u.toNat >>> 52 % 2048 = 2047 := by
  rw [← BitVec.toNat_inj, unpackExponent_def, BitVec.extractLsb'_toNat]
  rfl

theorem unpackMantissa_eq_iff (u : UInt64) :
    @unpackMantissa Format.binary64 u.toBitVec = 0#52 ↔ u.toNat % hiddenBit = 0 := by
  rw [← BitVec.toNat_inj, unpackMantissa_def, BitVec.extractLsb'_toNat]
  rfl

/-- A double is finite when it has parts. -/
theorem isFinite_eq (x : Float) : x.isFinite = (Binary.ofFloat? x).isSome := by
  have exponent := unpackExponent_eq_iff x.toBits
  change (unpack Format.binary64 x.toBits.toBitVec).isFinite = _
  unfold unpack Binary.ofFloat?
  by_cases h : x.toBits.toNat >>> 52 % 2048 = 2047
  · simp only [exponent.mpr h, h, ↓reduceIte, Option.isSome_none]
    split <;> rfl
  · simp only [mt exponent.mp h, h, ↓reduceIte]
    split
    · split <;> split <;> rfl
    · split <;> rfl

/-- Up to those of infinity, with any sign, all bits are those of a double. -/
theorem toBits_ofBits {n : Nat} (size : n < 2 ^ 64) (h : n % 2 ^ 63 ≤ 2047 * hiddenBit) :
    (Float.ofBits (UInt64.ofNat n)).toBits.toNat = n := by
  have number : (UInt64.ofNat n).toNat = n := UInt64.toNat_ofNat_of_lt' size
  have some : @isNaNBits Format.binary64 (UInt64.ofNat n).toBitVec = false := by
    refine decide_eq_false fun ⟨he, hm⟩ => ?_
    have exponent := (unpackExponent_eq_iff _).mp he
    have mantissa := mt (unpackMantissa_eq_iff _).mpr hm
    rw [number, Nat.shiftRight_eq_div_pow] at exponent
    rw [number] at mantissa
    unfold hiddenBit at h mantissa
    omega
  have packed : (Float.ofBits (UInt64.ofNat n)).toBits.toBitVec = (UInt64.ofNat n).toBitVec := by
    change (unpack Format.binary64 (UInt64.ofNat n).toBitVec).pack Format.binary64 = _
    rw [pack_unpack, some]
    rfl
  rw [UInt64.toBitVec_inj.mp packed, number]

end Bits

theorem toBits_nearest (negative : Bool) (num den : Nat) :
    (nearest negative num den).toBits.toNat =
      nearestBits num den + if negative then 1 <<< 63 else 0 := by
  have bound := nearestBits_le num den
  unfold hiddenBit at bound
  refine toBits_ofBits ?_ ?_
  · split <;> omega
  · unfold hiddenBit
    split <;> omega

/-- Two magnitudes with one closest double have it with any sign. -/
theorem nearestBits_inj {a b c d : Nat} (h : nearest false a b = nearest false c d) :
    nearestBits a b = nearestBits c d := by
  have bits := congrArg (fun x => x.toBits.toNat) h
  simpa only [toBits_nearest, Bool.false_eq_true, ↓reduceIte, Nat.add_zero] using bits

/-- The double closest to a quotient is finite unless the quotient is beyond every double. -/
theorem isFinite_nearest (negative : Bool) (num : Nat) {den : Nat} (hd : 0 < den) :
    (nearest negative num den).isFinite = true ↔ (num / den : ℚ) < overflowThreshold := by
  have bound := nearestBits_le num den
  rw [isFinite_eq, Binary.isSome_ofFloat?, ← nearestBits_lt_iff hd, toBits_nearest,
    Nat.shiftRight_eq_div_pow]
  unfold hiddenBit at bound ⊢
  split <;> omega

end Wireframe.Decimal
