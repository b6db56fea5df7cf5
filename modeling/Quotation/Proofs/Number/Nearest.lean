import Quotation.Proofs.Number.Rounding

/-!
# The double nearest to a whole number

A whole number other than zero is rounded to a mantissa of 53 bits, so the double nearest to it is
not zero.
-/

namespace Quotation.Number

open Float.Model Float.Model.UnpackedFloat

variable {n : Nat}

theorem unitExponent_one (h : 0 < n) : unitExponent n 1 = n.log2 - 52 := by
  have hself : 2 ^ n.log2 ≤ n := Nat.log2_self_le (Nat.ne_of_gt h)
  have hone : Nat.log2 1 = 0 := by decide
  unfold unitExponent
  simp [hone, hself]
  omega

theorem quotient_full (h : 0 < n) {exponent : Int} (hexponent : exponent = n.log2 - 52) :
    2 ^ 52 ≤ n * 2 ^ (-exponent).toNat / 2 ^ exponent.toNat ∧
      n * 2 ^ (-exponent).toNat / 2 ^ exponent.toNat < 2 ^ 53 := by
  have hlow : 2 ^ n.log2 ≤ n := Nat.log2_self_le (Nat.ne_of_gt h)
  have hhigh : n < 2 ^ (n.log2 + 1) := Nat.lt_log2_self
  constructor
  · rw [Nat.le_div_iff_mul_le (Nat.two_pow_pos _)]
    calc 2 ^ 52 * 2 ^ exponent.toNat = 2 ^ n.log2 * 2 ^ (-exponent).toNat := by
          rw [← Nat.pow_add, ← Nat.pow_add]
          congr 1
          omega
      _ ≤ n * 2 ^ (-exponent).toNat := Nat.mul_le_mul_right _ hlow
  · rw [Nat.div_lt_iff_lt_mul (Nat.two_pow_pos _)]
    calc n * 2 ^ (-exponent).toNat < 2 ^ (n.log2 + 1) * 2 ^ (-exponent).toNat :=
          Nat.mul_lt_mul_of_pos_right hhigh (Nat.two_pow_pos _)
      _ = 2 ^ 53 * 2 ^ exponent.toNat := by
          rw [← Nat.pow_add, ← Nat.pow_add]
          congr 1
          omega

theorem nearest_one (negative : Bool) (h : 0 < n) :
    ∃ mantissa exponent, 0 < mantissa ∧ Canonical mantissa exponent ∧
      nearest negative n 1 = Dyadic.toFloat ⟨negative, mantissa, exponent⟩ := by
  have hexponent := unitExponent_one h
  unfold nearest
  generalize unitExponent n 1 = exponent at *
  obtain ⟨hlow, hhigh⟩ := quotient_full h hexponent
  have hround := halfEven_cases (n * 2 ^ (-exponent).toNat) (2 ^ exponent.toNat)
  simp only [Nat.pow_eq, Nat.one_mul]
  generalize halfEven (n * 2 ^ (-exponent).toNat) (2 ^ exponent.toNat) = mantissa at *
  split
  · exact ⟨2 ^ 52, exponent + 1, by decide, ⟨by decide, by omega, .inl (by decide)⟩, rfl⟩
  · exact ⟨mantissa, exponent, by omega, ⟨by omega, by omega, .inl (by omega)⟩, rfl⟩

theorem toFloat_beq_zero {d : Dyadic} (hpositive : 0 < d.mantissa)
    (hcanonical : Canonical d.mantissa d.exponent) : (d.toFloat == 0) = false := by
  have hzero : (0 : Float).toModel.unpack = .zero .positive := rfl
  have hparts : d.toFloat.toModel.unpack =
      (Float.Model.pack (.finite (signOf d.negative) d.mantissa d.exponent hpositive)).unpack := by
    rw [Dyadic.toFloat, dif_pos hpositive]
  show d.toFloat.toModel.unpack.beq (0 : Float).toModel.unpack = false
  rw [hparts, hzero]
  by_cases hlarge : 971 < d.exponent
  · rw [unpack_pack_large hpositive hcanonical hlarge]
    cases signOf d.negative <;> rfl
  · rw [unpack_pack_finite hpositive hcanonical (by omega)]
    cases signOf d.negative <;> rfl

theorem ofInt_beq_zero {n : Int} {x : Float} (h : ofInt n = some x) :
    (x == 0) = decide (n = 0) := by
  by_cases hzero : n = 0
  · subst hzero
    have hplain : ofInt 0 = some 0 := by decide
    rw [hplain] at h
    cases h
    decide
  · obtain ⟨mantissa, exponent, hpositive, hcanonical, hnearest⟩ :=
      nearest_one (decide (n < 0)) (Int.natAbs_pos.mpr hzero)
    have hx : nearest (decide (n < 0)) n.natAbs 1 = x := by
      unfold ofInt finite? at h
      split at h
      · exact Option.some.inj h
      · cases h
    rw [← hx, hnearest, toFloat_beq_zero hpositive hcanonical]
    simp [hzero]

end Quotation.Number
