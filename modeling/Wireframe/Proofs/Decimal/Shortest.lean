import Wireframe.Decimal.Shortest
import Wireframe.Proofs.Decimal.Rounding

/-!
# Shortest decimals are read back

The double closest to a decimal depends on its value alone (`toFloat_congr`), and the two answers
that are given without a power of ten are what the power would give (`toFloat_eq`). So zeros at the
end may be dropped and the exact expansion is as good as the double, and the shortest decimal of a
double is read as that double, whichever candidate was taken.
-/

namespace Wireframe.Decimal

/-- The magnitude as a number. -/
def value (d : Decimal) : ℚ :=
  d.digits * 10 ^ d.exponent

theorem scaled_eq (n zeros : Nat) : scaled n zeros = n * 10 ^ zeros := rfl

theorem ratio_pos (d : Decimal) : 0 < d.ratio.2 := by
  simp only [ratio, scaled_eq]
  positivity

theorem ratio_value (d : Decimal) : (d.ratio.1 / d.ratio.2 : ℚ) = d.value := by
  obtain ⟨digits, exponent⟩ := d
  obtain ⟨n, rfl | rfl⟩ := exponent.eq_nat_or_neg
  · simp [ratio, scaled_eq, value]
  · simp [ratio, scaled_eq, value, div_eq_mul_inv]

/-! ## Far outside the range of the doubles -/

theorem width_pos (n : Nat) : 0 < width n :=
  List.length_pos_of_ne_nil Nat.toDigits_ne_nil

theorem lt_ten_pow_width (n : Nat) : n < 10 ^ width n :=
  (Nat.length_toDigits_le_iff (by decide) (width_pos n)).mp le_rfl

theorem ten_pow_width_le {n : Nat} (hn : 0 < n) : 10 ^ (width n - 1) ≤ n := by
  rcases Nat.eq_zero_or_pos (width n - 1) with h | h
  · rwa [h]
  · by_contra less
    have short := (Nat.length_toDigits_le_iff (by decide) h).mpr (not_le.mp less)
    change width n ≤ width n - 1 at short
    omega

theorem value_lt (d : Decimal) : d.value < 10 ^ (d.exponent + width d.digits) := by
  rw [value, add_comm, zpow_add₀ (by norm_num), zpow_natCast]
  gcongr
  exact_mod_cast lt_ten_pow_width d.digits

theorem le_value {d : Decimal} (hd : d.digits ≠ 0) :
    10 ^ (d.exponent + width d.digits - 1) ≤ d.value := by
  have positive := width_pos d.digits
  have order : d.exponent + width d.digits - 1 = (width d.digits - 1 : ℕ) + d.exponent := by omega
  rw [value, order, zpow_add₀ (by norm_num), zpow_natCast]
  gcongr
  exact_mod_cast ten_pow_width_le (Nat.pos_of_ne_zero hd)

theorem two_zpow_le_ten_zpow (n : Nat) : (2 : ℚ) ^ (3 * n : Int) ≤ 10 ^ (n : Int) := by
  rw [zpow_mul, zpow_natCast, zpow_natCast]
  exact pow_le_pow_left₀ (by norm_num) (by norm_num) n

/-- The orders at which no power of ten is made are beyond every double. -/
theorem nearestBits_ratio_of_small {d : Decimal}
    (h : d.digits = 0 ∨ d.exponent + width d.digits < -400) :
    nearestBits d.ratio.1 d.ratio.2 = 0 := by
  refine nearestBits_eq_zero d.ratio_pos ?_
  rw [ratio_value]
  rcases h with h | h
  · rw [value, h, Nat.cast_zero, zero_mul]
    positivity
  · calc d.value < 10 ^ (d.exponent + width d.digits) := d.value_lt
      _ ≤ 10 ^ (-(400 : ℕ) : Int) := zpow_le_zpow_right₀ (by norm_num) (by omega)
      _ ≤ 2 ^ (-(3 * (400 : ℕ)) : Int) := by
          rw [zpow_neg, zpow_neg]
          exact inv_anti₀ (by positivity) (two_zpow_le_ten_zpow 400)
      _ ≤ 2 ^ (-1075 : Int) := zpow_le_zpow_right₀ (by norm_num) (by omega)

theorem nearestBits_ratio_of_large {d : Decimal} (hd : d.digits ≠ 0)
    (h : 400 < d.exponent + width d.digits) :
    nearestBits d.ratio.1 d.ratio.2 = 2047 * hiddenBit := by
  refine nearestBits_eq_infinite d.ratio_pos ?_
  rw [ratio_value]
  calc (2 : ℚ) ^ (1024 : Int) ≤ 2 ^ (3 * (400 : ℕ) : Int) :=
        zpow_le_zpow_right₀ (by norm_num) (by omega)
    _ ≤ 10 ^ ((400 : ℕ) : Int) := two_zpow_le_ten_zpow 400
    _ ≤ 10 ^ (d.exponent + width d.digits - 1) := zpow_le_zpow_right₀ (by norm_num) (by omega)
    _ ≤ d.value := le_value hd

theorem nearestBits_one_shiftLeft {n : Nat} (h : 1024 ≤ n) :
    nearestBits (1 <<< n) 1 = 2047 * hiddenBit := by
  refine nearestBits_eq_infinite Nat.one_pos ?_
  rw [Nat.one_shiftLeft, Nat.cast_one, div_one, Nat.cast_pow, ← zpow_natCast, Nat.cast_ofNat]
  exact zpow_le_zpow_right₀ (by norm_num) (by exact_mod_cast h)

theorem toFloat_eq (negative : Bool) (d : Decimal) :
    d.toFloat negative = nearest negative d.ratio.1 d.ratio.2 := by
  simp only [toFloat, nearest]
  split
  · rename_i small
    rw [nearestBits_ratio_of_small small, nearestBits_zero]
  · rename_i small
    split
    · rename_i large
      rw [nearestBits_ratio_of_large (fun h => small (.inl h)) large,
        nearestBits_one_shiftLeft (by omega)]
    · rfl

theorem toFloat_congr (negative : Bool) {d d' : Decimal} (h : d.value = d'.value) :
    d.toFloat negative = d'.toFloat negative := by
  rw [toFloat_eq, toFloat_eq]
  exact nearest_congr negative d.ratio_pos d'.ratio_pos (by rw [ratio_value, ratio_value, h])

/-- The double closest to a decimal is finite unless the decimal is beyond every double. -/
theorem isFinite_toFloat (negative : Bool) (d : Decimal) :
    (d.toFloat negative).isFinite = true ↔ d.value < overflowThreshold := by
  rw [toFloat_eq, isFinite_nearest negative _ d.ratio_pos, ratio_value]

/-! ## The same magnitude in other digits -/

theorem trimmed_value (d : Decimal) : d.trimmed.value = d.value := by
  fun_induction trimmed d with
  | case1 d h ih =>
    have split : (d.digits : ℚ) = (d.digits / 10 : ℕ) * 10 := by
      exact_mod_cast (Nat.div_mul_cancel (Nat.dvd_of_mod_eq_zero h.2)).symm
    rw [ih, value, value, split, add_comm, zpow_one_add₀ (by norm_num), mul_assoc]
  | case2 d => rfl

theorem exact_value (b : Binary) : (exact b).value = b.value := by
  simp only [exact]
  split
  · rename_i whole
    obtain ⟨n, hn⟩ := Int.eq_ofNat_of_zero_le whole
    simp only [value, Binary.value, hn, Int.toNat_natCast, Nat.shiftLeft_eq, zpow_natCast,
      zpow_zero, mul_one]
    push_cast
    rfl
  · obtain ⟨n, hn⟩ : ∃ n : Nat, b.exponent = -n := ⟨(-b.exponent).toNat, by omega⟩
    have ten : (10 : ℚ) ^ n = 5 ^ n * 2 ^ n := by
      rw [← mul_pow]
      norm_num
    simp only [value, Binary.value, hn, neg_neg, Int.toNat_natCast, Nat.pow_eq, zpow_neg,
      zpow_natCast, ten]
    push_cast
    field_simp

/-! ## The shortest decimal -/

theorem nearestBits_congr_value {d : Decimal} {b : Binary} (hb : b.Normal)
    (h : d.value = b.value) : nearestBits d.ratio.1 d.ratio.2 = b.magnitudeBits := by
  rw [← hb.nearestBits_ratio]
  exact nearestBits_congr d.ratio_pos b.ratio_pos (by rw [ratio_value, h, b.ratio_value])

theorem nearestBits_trimmed (d : Decimal) :
    nearestBits d.trimmed.ratio.1 d.trimmed.ratio.2 = nearestBits d.ratio.1 d.ratio.2 :=
  nearestBits_congr d.trimmed.ratio_pos d.ratio_pos
    (by rw [ratio_value, ratio_value, trimmed_value])

/-- Both a candidate that was found and the exact expansion are rounded to the double. -/
theorem nearestBits_shortest {b : Binary} (hb : b.Normal) :
    nearestBits (shortest b).ratio.1 (shortest b).ratio.2 = b.magnitudeBits := by
  unfold shortest
  split
  · rename_i zero
    exact nearestBits_congr_value hb (by simp [value, Binary.value, zero])
  · rw [nearestBits_trimmed]
    generalize hc : List.find? _ _ = candidate
    cases candidate with
    | none => exact nearestBits_congr_value hb (exact_value b)
    | some d =>
      have found := List.find?_some hc
      rw [decide_eq_true_eq, toFloat_eq] at found
      exact (nearestBits_inj found).trans hb.nearestBits_ratio

/-- Whichever candidate is taken, it is read as the double. -/
theorem toFloat_shortest {x : Float} {b : Binary} (h : Binary.ofFloat? x = some b) :
    (shortest b).toFloat b.negative = x := by
  have normal := Binary.normal_of_ofFloat? h
  calc (shortest b).toFloat b.negative
      = nearest b.negative b.ratio.1 b.ratio.2 := by
        rw [toFloat_eq, nearest, nearest, nearestBits_shortest normal, normal.nearestBits_ratio]
    _ = x := nearest_ratio h

/-- Zero has one shortest decimal. -/
theorem exponent_shortest {b : Binary} (hb : b.Normal) (zero : (shortest b).digits = 0) :
    (shortest b).exponent = 0 := by
  have bits := nearestBits_shortest hb
  have none : (shortest b).ratio.1 = 0 := by simp [ratio, scaled_eq, zero]
  rw [none, nearestBits_zero, Binary.magnitudeBits] at bits
  have significand : b.significand = 0 := by omega
  rw [shortest, if_pos significand]

end Wireframe.Decimal
