import Quotation.Number.Shortest
import Quotation.Proofs.Number.Closest

/-!
# Decimals are read as the closest double

What a decimal is read as depends on its value alone, however many zeros it is written with. The
decimal that a double is written with is read back as that double.
-/

namespace Quotation.Number

/-! ## Values -/

def Decimal.value (d : Decimal) : ℚ := d.digits * 10 ^ d.exponent

theorem Decimal.value_nonneg (d : Decimal) : 0 ≤ d.value :=
  mul_nonneg (Nat.cast_nonneg _) (zpow_pos (by norm_num) _).le

theorem digitCount_bounds {n : ℕ} (h : 0 < n) :
    (10 : ℚ) ^ (digitCount n - 1 : Int) ≤ n ∧ (n : ℚ) < 10 ^ (digitCount n : Int) := by
  have hpositive : 0 < digitCount n := Nat.length_toDigits_pos
  obtain ⟨count, hcount⟩ : ∃ count, digitCount n = count + 1 := ⟨digitCount n - 1, by omega⟩
  have hhigh : n < 10 ^ digitCount n :=
    (Nat.length_toDigits_le_iff (by decide) hpositive).mp le_rfl
  have hlow : 10 ^ count ≤ n := by
    rcases Nat.eq_zero_or_pos count with rfl | hcount_pos
    · exact h
    · refine not_lt.mp (mt (Nat.length_toDigits_le_iff (by decide) hcount_pos).mpr ?_)
      have hmore : count < digitCount n := by omega
      exact not_le.mpr hmore
  constructor
  · rw [hcount, Nat.cast_succ, add_sub_cancel_right, zpow_natCast]
    exact_mod_cast hlow
  · rw [zpow_natCast]
    exact_mod_cast hhigh

theorem Decimal.value_bounds {d : Decimal} (h : d.digits ≠ 0) :
    (10 : ℚ) ^ (digitCount d.digits + d.exponent - 1) ≤ d.value ∧
      d.value < 10 ^ (digitCount d.digits + d.exponent) := by
  have hdigits := digitCount_bounds (Nat.pos_of_ne_zero h)
  have hten : (10 : ℚ) ≠ 0 := by norm_num
  unfold Decimal.value
  constructor
  · rw [add_sub_right_comm, zpow_add₀ hten]
    have := hdigits.1
    gcongr
  · rw [zpow_add₀ hten]
    have := hdigits.2
    gcongr

theorem ten_zpow_toNat (e : Int) : (10 : ℚ) ^ e.toNat = 10 ^ e * 10 ^ (-e).toNat := by
  rcases le_total 0 e with h | h
  · obtain ⟨n, rfl⟩ := Int.eq_ofNat_of_zero_le h
    simp
  · obtain ⟨n, hn⟩ := Int.eq_ofNat_of_zero_le (Int.neg_nonneg_of_nonpos h)
    obtain rfl : e = -n := by omega
    simp

/-- The bounds leave out no finite double, with much to spare. -/
theorem two_pow_lt_ten_pow : (2 : ℚ) ^ 1200 < 10 ^ 400 := by
  have hpower : (2 : ℚ) ^ 1200 = (2 ^ 3) ^ 400 := pow_mul 2 3 400
  rw [hpower]
  exact pow_lt_pow_left₀ (by norm_num) (by norm_num) (by decide)

theorem overflow_le_ten_pow : overflow ≤ 10 ^ (400 : Int) := by
  calc overflow ≤ 2 ^ 54 * 2 ^ 970 := by
        unfold overflow
        gcongr
        norm_num
    _ = 2 ^ 1024 := (pow_add ..).symm
    _ ≤ 2 ^ 1200 := pow_le_pow_right₀ one_le_two (by decide)
    _ ≤ 10 ^ (400 : Int) := two_pow_lt_ten_pow.le

theorem ten_zpow_lt_two_zpow : (10 : ℚ) ^ (-400 : Int) < 2 ^ (-1075 : Int) := by
  rw [zpow_neg, zpow_neg, inv_lt_inv₀ (zpow_pos (by norm_num) _) (zpow_pos two_pos _)]
  calc (2 : ℚ) ^ (1075 : Int) ≤ 2 ^ (1200 : Int) := zpow_le_zpow_right₀ one_le_two (by decide)
    _ < 10 ^ (400 : Int) := two_pow_lt_ten_pow

theorem Decimal.toFloat_rounds (negative : Bool) (d : Decimal) :
    Rounds negative d.value (d.toFloat negative) := by
  unfold Decimal.toFloat
  dsimp only
  split_ifs with hzero hlarge
  · refine rounds_zero negative d.value_nonneg ?_
    rcases hzero with hdigits | hsmall
    · rw [Decimal.value, hdigits, Nat.cast_zero, zero_mul]
      exact zpow_pos two_pos _
    · by_cases hdigits : d.digits = 0
      · rw [Decimal.value, hdigits, Nat.cast_zero, zero_mul]
        exact zpow_pos two_pos _
      calc d.value < 10 ^ (digitCount d.digits + d.exponent) := (Decimal.value_bounds hdigits).2
        _ ≤ 10 ^ (-400 : Int) := by
            refine zpow_le_zpow_right₀ (by norm_num) ?_
            omega
        _ < 2 ^ (-1075 : Int) := ten_zpow_lt_two_zpow
  · refine .infinite ?_
    have hdigits : d.digits ≠ 0 := fun h => hzero (.inl h)
    calc overflow ≤ 10 ^ (400 : Int) := overflow_le_ten_pow
      _ ≤ 10 ^ (digitCount d.digits + d.exponent - 1) := by
          refine zpow_le_zpow_right₀ (by norm_num) ?_
          omega
      _ ≤ d.value := (Decimal.value_bounds hdigits).1
  · have hdigits : 0 < d.digits := Nat.pos_of_ne_zero fun h => hzero (.inl h)
    have hten (count : ℕ) : 0 < Nat.pow 10 count := Nat.pow_pos (by decide)
    have hfraction : d.value = ((d.digits * Nat.pow 10 d.exponent.toNat : ℕ) : ℚ) /
        ((Nat.pow 10 (-d.exponent).toNat : ℕ) : ℚ) := by
      push_cast [Nat.pow_eq]
      rw [ten_zpow_toNat, Decimal.value, ← mul_assoc, mul_div_cancel_right₀ _ (by positivity)]
    rw [hfraction]
    exact nearest_rounds negative (Nat.mul_pos hdigits (hten _)) (hten _)

theorem Decimal.toFloat_eq_of_value_eq {d e : Decimal} (h : d.value = e.value) (negative : Bool) :
    d.toFloat negative = e.toFloat negative :=
  Rounds.unique d.value_nonneg (d.toFloat_rounds negative) (h ▸ e.toFloat_rounds negative)

/-! ## The decimal of a double -/

theorem Dyadic.value_toDecimal (d : Dyadic) : d.toDecimal.value = d.size := by
  unfold Dyadic.toDecimal Decimal.value Dyadic.size
  split_ifs with h
  · obtain ⟨n, hn⟩ := Int.eq_ofNat_of_zero_le h
    rw [hn]
    push_cast [Nat.pow_eq]
    simp
  · obtain ⟨n, hn⟩ := Int.eq_ofNat_of_zero_le (show 0 ≤ -d.exponent by omega)
    obtain ⟨hexponent⟩ : Nonempty (d.exponent = -n) := ⟨by omega⟩
    have hten : (10 : ℚ) = 5 * 2 := by norm_num
    rw [hexponent, neg_neg, Int.toNat_natCast]
    push_cast [Nat.pow_eq]
    rw [zpow_neg, zpow_neg, zpow_natCast, zpow_natCast, hten, mul_pow]
    field_simp

theorem toFloat_of_value_eq_size {x : Float} {d : Dyadic} (h : dyadic? x = some d) {e : Decimal}
    (hvalue : e.value = d.size) : e.toFloat d.negative = x := by
  have hrounds := e.toFloat_rounds d.negative
  rw [hvalue] at hrounds
  exact hrounds.unique d.size_nonneg (rounds_self h)

/-- The decimal with the fewest digits is read back: either it was tried, or it is exact. -/
theorem toFloat_shortest {x : Float} {d : Dyadic} (h : dyadic? x = some d) :
    (shortest x d).toFloat d.negative = x := by
  unfold shortest
  dsimp only
  cases hfound : (List.range' 1 17).findSome? fun count =>
      (neighbours d.toDecimal count).find? fun e => decide (e.toFloat d.negative = x) with
  | some e =>
    obtain ⟨count, -, hcount⟩ := List.exists_of_findSome?_eq_some hfound
    have hreads := List.find?_some hcount
    exact of_decide_eq_true hreads
  | none => exact toFloat_of_value_eq_size h d.value_toDecimal

end Quotation.Number
