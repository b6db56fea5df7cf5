import Quotation.Number.Nearest
import Quotation.Proofs.Number.Packing

/-!
# Rounding to a double

A number that is written with too many bits is shifted to the exponent it is rounded at, and the bits
that are shifted out decide how. The result is the nearest mantissa, a half to the even neighbour. It
is finite if the number lies below the middle between the largest double and the next power of two.
-/

namespace Quotation.Number

open Float.Model Float.Model.UnpackedFloat

variable {sign : Sign} {mantissa : Nat} {exponent : Int}

/-! ## Halves -/

theorem halfEven_cases (numerator denominator : Nat) :
    halfEven numerator denominator = numerator / denominator ∨
      halfEven numerator denominator = numerator / denominator + 1 := by
  unfold halfEven
  dsimp only
  split
  · exact .inl rfl
  · exact .inr rfl

theorem halfEven_lt_iff {numerator denominator : Nat} (h : 0 < denominator) (bound : Nat) :
    halfEven numerator denominator < 2 * bound + 2 ↔
      2 * numerator < (4 * bound + 3) * denominator := by
  have hdivision := Nat.div_add_mod numerator denominator
  have hrest := Nat.mod_lt numerator h
  unfold halfEven
  dsimp only
  generalize numerator / denominator = quotient at *
  generalize numerator % denominator = rest at *
  rcases Nat.lt_trichotomy quotient (2 * bound + 1) with hbelow | rfl | habove
  · have hsmall : denominator * (quotient + 1) ≤ denominator * (2 * bound + 1) :=
      Nat.mul_le_mul_left _ hbelow
    constructor
    · intro _
      linarith
    · intro _
      split <;> omega
  · -- The last number below the bound is odd, so that a half goes up.
    have hodd : (2 * bound + 1) % 2 ≠ 0 := by omega
    simp only [hodd, and_false, or_false]
    constructor
    · intro hlow
      split at hlow
      · linarith
      · omega
    · intro hlow
      rw [if_pos (by linarith)]
      omega
  · have hlarge : denominator * (2 * bound + 2) ≤ denominator * quotient :=
      Nat.mul_le_mul_left _ habove
    constructor
    · intro hlow
      split at hlow <;> omega
    · intro hlow
      linarith

/-! ## Bits that are shifted out -/

/-- The two residual bits after a shift: whether half of the last bit or more is gone, and whether
anything else is gone than just the half. -/
structure Shifted (em : ExtendedMantissa) (mantissa count : Nat) : Prop where
  quotient : em.mantissa = mantissa / 2 ^ count
  round : em.roundBit = true ↔ 2 ^ count ≤ 2 * (mantissa % 2 ^ count)
  sticky : em.stickyBit = true ↔
    2 * (mantissa % 2 ^ count) ≠ 0 ∧ 2 * (mantissa % 2 ^ count) ≠ 2 ^ count

theorem shifted_zero (mantissa : Nat) :
    Shifted (.ofMantissaAndAccuracy mantissa .exact) mantissa 0 := by
  constructor <;> simp [ExtendedMantissa.ofMantissaAndAccuracy, Nat.mod_one]

theorem Shifted.succ {em : ExtendedMantissa} {count : Nat} (h : Shifted em mantissa count) :
    Shifted em.shiftRightOne mantissa (count + 1) := by
  have hrest : mantissa % 2 ^ count < 2 ^ count := Nat.mod_lt _ (Nat.two_pow_pos count)
  have hnext := Nat.mod_pow_succ (x := mantissa) (b := 2) (k := count)
  have hpower : 2 ^ (count + 1) = 2 * 2 ^ count := Nat.pow_succ'
  have hbit := Nat.mod_two_eq_zero_or_one (mantissa / 2 ^ count)
  refine ⟨?_, ?_, ?_⟩
  · rw [ExtendedMantissa.shiftRightOne, h.quotient, Nat.div_div_eq_div_mul, Nat.pow_succ]
  · rw [ExtendedMantissa.shiftRightOne, h.quotient, hnext, hpower]
    rcases hbit with hbit | hbit <;> simp [hbit]
    omega
  · rw [ExtendedMantissa.shiftRightOne, Bool.or_eq_true, h.round, h.sticky, hnext, hpower]
    rcases hbit with hbit | hbit <;> rw [hbit] <;> omega

theorem shifted (mantissa count : Nat) :
    Shifted (ExtendedMantissa.ofMantissaAndAccuracy mantissa .exact >>> count) mantissa count := by
  induction count with
  | zero => exact shifted_zero mantissa
  | succ count ih => exact ih.succ

theorem Shifted.rounded {em : ExtendedMantissa} {count : Nat} (h : Shifted em mantissa count) :
    em.roundedMantissa = halfEven mantissa (2 ^ count) := by
  obtain ⟨m, round, sticky⟩ := em
  obtain ⟨hquotient, hround, hsticky⟩ := h
  dsimp only at hquotient hround hsticky
  have hpower := Nat.two_pow_pos count
  unfold halfEven
  rw [← hquotient]
  dsimp only
  generalize 2 * (mantissa % 2 ^ count) = twice at *
  cases round with
  | false =>
    have hbelow : ¬ 2 ^ count ≤ twice := by simpa using hround
    rw [if_pos (by omega)]
    cases sticky <;> rfl
  | true =>
    have habove : 2 ^ count ≤ twice := by simpa using hround
    cases sticky with
    | false =>
      have hhalf : twice = 2 ^ count := by
        have hnothing : ¬ (twice ≠ 0 ∧ twice ≠ 2 ^ count) := by simpa using hsticky
        omega
      show m + m % 2 = _
      split <;> omega
    | true =>
      have hmore : twice ≠ 0 ∧ twice ≠ 2 ^ count := by simpa using hsticky
      rw [if_neg (by omega)]
      rfl

/-! ## Rounding -/

def roundingExponent (mantissa : Nat) (exponent : Int) : Int :=
  max (mantissa.log2 + exponent - 52) (-1074)

theorem targetExponent_eq (mantissa : Nat) (exponent : Int) :
    Format.binary64.targetExponent (totalExponent mantissa exponent) =
      roundingExponent mantissa exponent := by
  unfold Format.targetExponent totalExponent roundingExponent
  have hbits : (Format.binary64.mantissaBits : Int) = 53 := rfl
  have hlowest : Format.binary64.minExponent = -1074 := rfl
  rw [hbits, hlowest]
  omega

theorem shiftToTarget_eq (mantissa : Nat) (exponent : Int) :
    shiftToTargetExponent Format.binary64 mantissa exponent .exact =
      let count := (roundingExponent mantissa exponent - exponent).toNat
      (ExtendedMantissa.ofMantissaAndAccuracy mantissa .exact >>> count, exponent + count) := by
  unfold shiftToTargetExponent shiftToExponent
  rw [targetExponent_eq]

def carried (sign : Sign) (mantissa : Nat) (exponent : Int) : UnpackedFloat :=
  if h : mantissa = 0 then .zero sign
  else if mantissa = 2 ^ 53 then .finite sign (2 ^ 52) (exponent + 1) (by decide)
  else .finite sign mantissa exponent (Nat.pos_of_ne_zero h)

theorem shift_keeps (hwidth : mantissa < 2 ^ 53) (hexponent : -1074 ≤ exponent) :
    roundingExponent mantissa exponent ≤ exponent := by
  have hlog : mantissa.log2 ≤ 52 := by
    by_cases hzero : mantissa = 0
    · simp [hzero]
    · have := (Nat.log2_lt hzero).mpr hwidth
      omega
  unfold roundingExponent
  omega

/-- The second shift after a rounding only takes back a carry. -/
theorem shiftToTarget_carried (hwidth : mantissa ≤ 2 ^ 53) (hexponent : -1074 ≤ exponent) :
    (let (em, e) := shiftToTargetExponent Format.binary64 mantissa exponent .exact
     if h : em.mantissa = 0 then .zero sign
     else .finite sign em.mantissa e (Nat.pos_of_ne_zero h)) = carried sign mantissa exponent := by
  rw [shiftToTarget_eq]
  unfold carried
  rcases Nat.lt_or_eq_of_le hwidth with hshort | rfl
  · have hkeeps := shift_keeps hshort hexponent
    have hcount : (roundingExponent mantissa exponent - exponent).toNat = 0 := by omega
    have hsame : (ExtendedMantissa.ofMantissaAndAccuracy mantissa .exact >>> 0).mantissa =
        mantissa := rfl
    simp only [hcount, hsame, Int.natCast_zero, Int.add_zero, if_neg (Nat.ne_of_lt hshort)]
  · have hnext : roundingExponent (2 ^ 53) exponent = exponent + 1 := by
      unfold roundingExponent
      rw [Nat.log2_two_pow]
      omega
    have hcount : (roundingExponent (2 ^ 53) exponent - exponent).toNat = 1 := by omega
    simp only [hcount]
    rfl

theorem quotient_width (h : exponent ≤ roundingExponent mantissa exponent) :
    mantissa / 2 ^ (roundingExponent mantissa exponent - exponent).toNat < 2 ^ 53 := by
  have hcount : mantissa.log2 + 1 ≤
      53 + (roundingExponent mantissa exponent - exponent).toNat := by
    unfold roundingExponent at *
    omega
  rw [Nat.div_lt_iff_lt_mul (Nat.two_pow_pos _), ← Nat.pow_add]
  exact Nat.lt_of_lt_of_le Nat.lt_log2_self (Nat.pow_le_pow_right (by decide) hcount)

theorem roundWithAccuracy_eq (h : exponent ≤ roundingExponent mantissa exponent) :
    roundWithAccuracy Format.binary64 sign mantissa exponent .exact =
      carried sign
        (halfEven mantissa (2 ^ (roundingExponent mantissa exponent - exponent).toNat))
        (roundingExponent mantissa exponent) := by
  have hwidth := quotient_width h
  have hlowest : -1074 ≤ roundingExponent mantissa exponent := Int.le_max_right ..
  have hexponent : exponent + ((roundingExponent mantissa exponent - exponent).toNat : Int) =
      roundingExponent mantissa exponent := by omega
  unfold roundWithAccuracy
  rw [shiftToTarget_eq]
  simp only [(shifted _ _).rounded, hexponent]
  refine shiftToTarget_carried ?_ hlowest
  rcases halfEven_cases mantissa (2 ^ (roundingExponent mantissa exponent - exponent).toNat)
    with hdown | hup <;> omega

/-! ## Rounding to a finite double -/

/-- The middle between the largest double and `2 ^ 1024`. What is no smaller is rounded to an
infinity. -/
def overflow : ℚ := (2 ^ 54 - 1) * 2 ^ 970

section

variable {rounding : Int} {count : Nat}

theorem scale_eq (h : rounding = exponent + count) :
    (2 : ℚ) ^ rounding = 2 ^ exponent * 2 ^ count := by
  rw [h, zpow_add₀ two_ne_zero, zpow_natCast]

theorem below_overflow_of_lt (h : rounding = exponent + count)
    (hwidth : mantissa.log2 ≤ 52 + count) (hlow : rounding < 971) :
    (mantissa : ℚ) * 2 ^ exponent < overflow := by
  have hmantissa : (mantissa : ℚ) < 2 ^ (53 + count) := by
    have hbits : mantissa < 2 ^ (mantissa.log2 + 1) := Nat.lt_log2_self
    have hlength : 2 ^ (mantissa.log2 + 1) ≤ 2 ^ (53 + count) :=
      Nat.pow_le_pow_right (by decide) (by omega)
    exact_mod_cast Nat.lt_of_lt_of_le hbits hlength
  have hunit : (0 : ℚ) < 2 ^ exponent := zpow_pos two_pos exponent
  calc (mantissa : ℚ) * 2 ^ exponent
      < 2 ^ (53 + count) * 2 ^ exponent := by gcongr
    _ = 2 ^ 53 * 2 ^ rounding := by rw [scale_eq h]; ring
    _ ≤ 2 ^ 53 * 2 ^ (970 : Int) := by gcongr <;> [norm_num; omega]
    _ ≤ overflow := by norm_num [overflow]

theorem overflow_le_of_gt (h : rounding = exponent + count) (hpositive : 0 < mantissa)
    (hwidth : mantissa.log2 = 52 + count) (hhigh : 971 < rounding) :
    overflow ≤ (mantissa : ℚ) * 2 ^ exponent := by
  have hmantissa : (2 : ℚ) ^ (52 + count) ≤ mantissa := by
    have hbits : 2 ^ mantissa.log2 ≤ mantissa := Nat.log2_self_le (Nat.ne_of_gt hpositive)
    rw [hwidth] at hbits
    exact_mod_cast hbits
  calc overflow ≤ 2 ^ 54 * 2 ^ 970 := by unfold overflow; gcongr; norm_num
    _ = 2 ^ 52 * 2 ^ (972 : Int) := by rw [zpow_ofNat, ← pow_add, ← pow_add]
    _ ≤ 2 ^ 52 * 2 ^ rounding := by gcongr <;> [norm_num; omega]
    _ = 2 ^ (52 + count) * 2 ^ exponent := by rw [scale_eq h]; ring
    _ ≤ mantissa * 2 ^ exponent := by gcongr

theorem below_overflow_iff_halfEven (h : 971 = exponent + count) :
    (mantissa : ℚ) * 2 ^ exponent < overflow ↔ halfEven mantissa (2 ^ count) < 2 ^ 53 := by
  have hround : halfEven mantissa (2 ^ count) < 2 * (2 ^ 52 - 1) + 2 ↔
      2 * mantissa < (4 * (2 ^ 52 - 1) + 3) * 2 ^ count :=
    halfEven_lt_iff (Nat.two_pow_pos count) (2 ^ 52 - 1)
  have hodd : 2 * (2 ^ 52 - 1) + 2 = 2 ^ 53 := by decide
  have hleft : (mantissa : ℚ) * 2 ^ exponent * 2 ^ count = 2 * mantissa * 2 ^ 970 := by
    rw [mul_assoc, ← scale_eq h, zpow_ofNat, pow_succ', ← mul_assoc, mul_comm _ (2 : ℚ)]
  have hright : overflow * 2 ^ count = (4 * ((2 ^ 52 - 1 : ℕ) : ℚ) + 3) * 2 ^ count * 2 ^ 970 := by
    rw [overflow, mul_right_comm]
    congr 2
    norm_num
  rw [← hodd, hround, ← mul_lt_mul_iff_of_pos_right (show (0 : ℚ) < 2 ^ count by positivity),
    hleft, hright, mul_lt_mul_iff_of_pos_right (by positivity)]
  exact_mod_cast Iff.rfl

end

theorem below_overflow_iff (hpositive : 0 < mantissa)
    (h : exponent ≤ roundingExponent mantissa exponent) :
    (mantissa : ℚ) * 2 ^ exponent < overflow ↔
      roundingExponent mantissa exponent < 971 ∨ roundingExponent mantissa exponent = 971 ∧
        halfEven mantissa (2 ^ (roundingExponent mantissa exponent - exponent).toNat) <
          2 ^ 53 := by
  have hlog : max ((mantissa.log2 : Int) + exponent - 52) (-1074) =
      roundingExponent mantissa exponent := rfl
  generalize roundingExponent mantissa exponent = rounding at *
  generalize hcount : (rounding - exponent).toNat = count
  have hrounding : rounding = exponent + count := by omega
  rcases Int.lt_trichotomy rounding 971 with hlow | rfl | hhigh
  · have hbelow : (mantissa : ℚ) * 2 ^ exponent < overflow :=
      below_overflow_of_lt hrounding (by omega) hlow
    simp [hbelow, hlow]
  · rw [below_overflow_iff_halfEven hrounding]
    simp
  · have habove : overflow ≤ (mantissa : ℚ) * 2 ^ exponent :=
      overflow_le_of_gt hrounding hpositive (by omega) hhigh
    simp [not_lt.mpr habove]
    omega

theorem isFinite_pack (h : 0 < mantissa) (hcanonical : Canonical mantissa exponent) :
    (Float.Model.pack (.finite sign mantissa exponent h)).unpack.isFinite = true ↔
      exponent ≤ 971 := by
  by_cases hlarge : 971 < exponent
  · rw [unpack_pack_large h hcanonical hlarge]
    simpa [UnpackedFloat.isFinite] using hlarge
  · rw [unpack_pack_finite h hcanonical (Int.not_lt.mp hlarge)]
    simpa [UnpackedFloat.isFinite] using hlarge

theorem isFinite_carried (hwidth : mantissa ≤ 2 ^ 53) (hexponent : -1074 ≤ exponent)
    (hfull : 2 ^ 52 ≤ mantissa ∨ exponent = -1074) :
    (Float.Model.pack (carried sign mantissa exponent)).unpack.isFinite = true ↔
      exponent < 971 ∨ exponent = 971 ∧ mantissa < 2 ^ 53 := by
  unfold carried
  split
  · rename_i hzero
    rw [unpack_pack_zero]
    simp only [UnpackedFloat.isFinite, true_iff]
    omega
  · split
    · have hcanonical : Canonical (2 ^ 52) (exponent + 1) := ⟨by decide, by omega, .inl (by decide)⟩
      rw [isFinite_pack _ hcanonical]
      omega
    · have hcanonical : Canonical mantissa exponent := ⟨by omega, hexponent, hfull⟩
      rw [isFinite_pack _ hcanonical]
      omega

theorem isFinite_roundWithAccuracy (hpositive : 0 < mantissa)
    (h : exponent ≤ roundingExponent mantissa exponent) :
    (Float.Model.pack
        (roundWithAccuracy Format.binary64 sign mantissa exponent .exact)).unpack.isFinite = true ↔
      (mantissa : ℚ) * 2 ^ exponent < overflow := by
  have hwidth := quotient_width h
  have hround := halfEven_cases mantissa (2 ^ (roundingExponent mantissa exponent - exponent).toNat)
  rw [below_overflow_iff hpositive h, roundWithAccuracy_eq h]
  refine isFinite_carried (by omega) (Int.le_max_right ..) ?_
  by_cases hlowest : roundingExponent mantissa exponent = -1074
  · exact .inr hlowest
  · have hfull : 2 ^ 52 ≤
        mantissa / 2 ^ (roundingExponent mantissa exponent - exponent).toNat := by
      have hlog : mantissa.log2 =
          52 + (roundingExponent mantissa exponent - exponent).toNat := by
        unfold roundingExponent at *
        omega
      rw [Nat.le_div_iff_mul_le (Nat.two_pow_pos _), ← Nat.pow_add, ← hlog]
      exact Nat.log2_self_le (Nat.ne_of_gt hpositive)
    left
    omega

theorem log2_mul_two_pow (hpositive : 0 < mantissa) (count : Nat) :
    (mantissa * 2 ^ count).log2 = mantissa.log2 + count := by
  induction count with
  | zero => simp
  | succ count ih =>
    have hdouble : mantissa * 2 ^ (count + 1) = 2 * (mantissa * 2 ^ count) := by
      rw [Nat.pow_succ]
      ring
    have hpower : mantissa * 2 ^ count ≠ 0 := by positivity
    rw [hdouble, Nat.log2_two_mul hpower, ih, Nat.add_assoc]

/-- Zeros are put behind a number with too few bits before it is rounded. -/
theorem isFinite_round (hpositive : 0 < mantissa) :
    (Float.Model.pack
        (UnpackedFloat.round Format.binary64 sign mantissa exponent)).unpack.isFinite = true ↔
      (mantissa : ℚ) * 2 ^ exponent < overflow := by
  unfold UnpackedFloat.round decreaseExponent
  simp only [targetExponent_eq, Nat.shiftLeft_eq]
  generalize hcount : (exponent - roundingExponent mantissa exponent).toNat = count
  have hsame : roundingExponent (mantissa * 2 ^ count) (exponent - count) =
      roundingExponent mantissa exponent := by
    unfold roundingExponent
    rw [log2_mul_two_pow hpositive]
    omega
  have hvalue : ((mantissa * 2 ^ count : ℕ) : ℚ) * 2 ^ (exponent - count) =
      mantissa * 2 ^ exponent := by
    rw [zpow_sub₀ two_ne_zero, zpow_natCast]
    push_cast
    field_simp
  rw [← hvalue]
  refine isFinite_roundWithAccuracy (by positivity) ?_
  rw [hsame]
  omega

end Quotation.Number
