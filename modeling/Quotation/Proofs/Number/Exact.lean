import Quotation.Proofs.Number.Rounding

/-!
# Sums and products of doubles

What a double is exactly, as a rational number. A sum or a product of two finite doubles is finite
if it is below the overflow bound exactly, and nothing finite comes of a double that is not finite.
-/

namespace Quotation.Number

open Float.Model Float.Model.UnpackedFloat

/-! ## Exact values -/

def Dyadic.value (d : Dyadic) : ℚ :=
  (if d.negative then -(d.mantissa : ℚ) else d.mantissa) * 2 ^ d.exponent

def exact (x : Float) : ℚ := ((dyadic? x).map Dyadic.value).getD 0

def unpackedValue : UnpackedFloat → ℚ
  | .finite sign mantissa exponent _ => sign.apply mantissa * 2 ^ exponent
  | _ => 0

theorem exact_eq (x : Float) : exact x = unpackedValue x.toModel.unpack := by
  unfold exact dyadic?
  cases x.toModel.unpack with
  | finite sign mantissa exponent h =>
    cases sign <;> simp [unpackedValue, Dyadic.value, isNegative, Sign.apply]
  | zero sign => cases sign <;> simp [unpackedValue, Dyadic.value, isNegative]
  | _ => rfl

variable {sign : Sign} {mantissa : Nat} {exponent : Int}

theorem abs_apply (sign : Sign) (mantissa : Nat) : |((sign.apply mantissa : Int) : ℚ)| = mantissa := by
  cases sign <;> simp [Sign.apply]

theorem abs_unpackedValue (h : 0 < mantissa) :
    |unpackedValue (.finite sign mantissa exponent h)| = mantissa * 2 ^ exponent := by
  rw [unpackedValue, abs_mul, abs_apply, abs_of_pos (zpow_pos two_pos exponent)]

theorem Canonical.below_overflow (h : Canonical mantissa exponent) (hexponent : exponent ≤ 971) :
    (mantissa : ℚ) * 2 ^ exponent < overflow := by
  have hwidth : (mantissa : ℚ) ≤ 2 ^ 53 - 1 := by
    have hle := Nat.le_pred_of_lt h.width
    have hcast : ((2 ^ 53 - 1 : ℕ) : ℚ) = 2 ^ 53 - 1 := by norm_num
    rw [← hcast]
    exact_mod_cast hle
  have hfactor : (0 : ℚ) ≤ 2 ^ 53 - 1 := by norm_num
  calc (mantissa : ℚ) * 2 ^ exponent
      ≤ (2 ^ 53 - 1) * 2 ^ (971 : Int) := by
        gcongr
        norm_num
    _ = (2 ^ 54 - 2) * 2 ^ 970 := by
        rw [zpow_ofNat, pow_succ' _ 970, ← mul_assoc]
        norm_num
    _ < overflow := by
        unfold overflow
        gcongr
        norm_num

theorem overflow_pos : 0 < overflow := by
  unfold overflow
  norm_num

theorem unpackedValue_below {x : Float.Model} : |unpackedValue x.unpack| < overflow := by
  cases hparts : x.unpack with
  | finite sign mantissa exponent h =>
    obtain ⟨hcanonical, hexponent⟩ := canonical_of_unpack hparts
    rw [abs_unpackedValue]
    exact hcanonical.below_overflow hexponent
  | _ => simpa [unpackedValue] using overflow_pos

theorem pack_not_finite {f : UnpackedFloat} (h : f.isFinite = false) :
    (Float.Model.pack f).unpack.isFinite = false := by
  cases f with
  | notANumber => rfl
  | infinity sign => rw [unpack_pack_infinity]; rfl
  | zero sign => cases h
  | finite sign mantissa exponent h' => cases h

theorem finite_cases {f : UnpackedFloat} (h : f.isFinite = true) :
    (∃ sign, f = .zero sign) ∨
      ∃ sign mantissa exponent hpositive, f = .finite sign mantissa exponent hpositive := by
  cases f with
  | notANumber => cases h
  | infinity sign => cases h
  | zero sign => exact .inl ⟨sign, rfl⟩
  | finite sign mantissa exponent hpositive =>
    exact .inr ⟨sign, mantissa, exponent, hpositive, rfl⟩

theorem isFinite_iff_of_parts {f g result : UnpackedFloat} {P : Prop}
    (hnot : f.isFinite = false ∨ g.isFinite = false → result.isFinite = false)
    (hfinite : f.isFinite = true → g.isFinite = true →
      ((Float.Model.pack result).unpack.isFinite = true ↔ P)) :
    (Float.Model.pack result).unpack.isFinite = true ↔
      f.isFinite = true ∧ g.isFinite = true ∧ P := by
  cases hf : f.isFinite with
  | false => simp [pack_not_finite (hnot (.inl hf))]
  | true =>
    cases hg : g.isFinite with
    | false => simp [pack_not_finite (hnot (.inr hg))]
    | true => simp [hfinite hf hg]

/-! ## Sums -/

theorem isFinite_normalize (mantissa exponent : Int) :
    (Float.Model.pack (UnpackedFloat.normalize Format.binary64 mantissa exponent
        .positive)).unpack.isFinite = true ↔
      |(mantissa : ℚ) * 2 ^ exponent| < overflow := by
  have hunit : (0 : ℚ) < 2 ^ exponent := zpow_pos two_pos exponent
  have hsize : |(mantissa : ℚ)| = mantissa.natAbs := by rw [Nat.cast_natAbs, Int.cast_abs]
  rw [abs_mul, abs_of_pos hunit, hsize]
  unfold UnpackedFloat.normalize
  cases hsign : compare mantissa 0 with
  | lt =>
    have hnegative : mantissa < 0 := compare_lt_iff_lt.mp hsign
    have habs : (-mantissa).toNat = mantissa.natAbs := by omega
    simp only [habs]
    exact isFinite_round (by omega)
  | eq =>
    have hzero : mantissa = 0 := compare_eq_iff_eq.mp hsign
    simp [hzero, unpack_pack_zero, UnpackedFloat.isFinite, overflow_pos]
  | gt =>
    have hpositive : 0 < mantissa := compare_gt_iff_gt.mp hsign
    have habs : mantissa.toNat = mantissa.natAbs := by omega
    simp only [habs]
    exact isFinite_round (by omega)

theorem add_not_finite {f g : UnpackedFloat} (h : f.isFinite = false ∨ g.isFinite = false) :
    (UnpackedFloat.add Format.binary64 f g).isFinite = false := by
  fun_cases UnpackedFloat.add <;> simp_all [UnpackedFloat.isFinite]

theorem decreased_value (sign : Sign) (mantissa : Nat) {exponent target : Int}
    (h : target ≤ exponent) :
    ((sign.apply (decreaseExponent mantissa exponent target).1 : Int) : ℚ) * 2 ^ target =
      ((sign.apply mantissa : Int) : ℚ) * 2 ^ exponent := by
  obtain ⟨count, hcount⟩ := Int.eq_ofNat_of_zero_le (Int.sub_nonneg_of_le h)
  have hexponent : exponent = target + count := by omega
  have hcount' : (exponent - target).toNat = count := by omega
  have hmantissa : (decreaseExponent mantissa exponent target).1 = mantissa * 2 ^ count := by
    rw [← Nat.shiftLeft_eq, ← hcount']
    rfl
  rw [hmantissa, hexponent, zpow_add₀ two_ne_zero, zpow_natCast]
  cases sign <;>
  · simp only [Sign.apply]
    push_cast
    ring

/-- Two finite numbers are added at the smaller of their exponents. -/
theorem isFinite_add_finite {x y : Float.Model} (hx : x.unpack.isFinite = true)
    (hy : y.unpack.isFinite = true) :
    (Float.Model.pack
        (UnpackedFloat.add Format.binary64 x.unpack y.unpack)).unpack.isFinite = true ↔
      |unpackedValue x.unpack + unpackedValue y.unpack| < overflow := by
  have hzero (sign : Sign) : unpackedValue (.zero sign) = 0 := rfl
  rcases finite_cases hx with ⟨sign, hsign⟩ | ⟨sign, mantissa, exponent, h, hparts⟩
  · rw [hsign, hzero, zero_add]
    refine iff_of_true ?_ unpackedValue_below
    rcases finite_cases hy with ⟨sign', hsign'⟩ | ⟨sign', mantissa', exponent', h', hparts'⟩
    · rw [hsign', UnpackedFloat.add]
      split <;> (rw [unpack_pack_zero]; rfl)
    · have hkeep : UnpackedFloat.add Format.binary64 (.zero sign) y.unpack = y.unpack := by
        rw [hparts']
        rfl
      rw [hkeep, pack_unpacked]
      exact hy
  · rcases finite_cases hy with ⟨sign', hsign'⟩ | ⟨sign', mantissa', exponent', h', hparts'⟩
    · have hkeep : UnpackedFloat.add Format.binary64 x.unpack (.zero sign') = x.unpack := by
        rw [hparts]
        rfl
      rw [hsign', hzero, add_zero, hkeep, pack_unpacked]
      exact iff_of_true hx unpackedValue_below
    · have hsum := isFinite_normalize
        (sign.apply (decreaseExponent mantissa exponent (min exponent exponent')).1 +
          sign'.apply (decreaseExponent mantissa' exponent' (min exponent exponent')).1)
        (min exponent exponent')
      push_cast at hsum
      rw [add_mul, decreased_value sign mantissa (Int.min_le_left ..),
        decreased_value sign' mantissa' (Int.min_le_right ..)] at hsum
      rw [hparts, hparts']
      exact hsum

/-- A sum is finite if its parts are and it is below the overflow bound exactly. -/
theorem isFinite_add {x y : Float} :
    (x + y).isFinite = true ↔
      x.isFinite = true ∧ y.isFinite = true ∧ |exact x + exact y| < overflow := by
  rw [exact_eq, exact_eq]
  exact isFinite_iff_of_parts add_not_finite isFinite_add_finite

/-! ## Products -/

theorem mul_not_finite {f g : UnpackedFloat} (h : f.isFinite = false ∨ g.isFinite = false) :
    (UnpackedFloat.mul Format.binary64 f g).isFinite = false := by
  fun_cases UnpackedFloat.mul <;> simp_all [UnpackedFloat.isFinite]

theorem Canonical.mul {mantissa' : Nat} {exponent' : Int} (h : Canonical mantissa exponent)
    (h' : Canonical mantissa' exponent') (hpositive : 0 < mantissa) (hpositive' : 0 < mantissa') :
    exponent + exponent' ≤ roundingExponent (mantissa * mantissa') (exponent + exponent') := by
  have hlowest := h.lowest
  have hlowest' := h'.lowest
  unfold roundingExponent
  by_cases hfull : 2 ^ 52 ≤ mantissa * mantissa'
  · have hlog : 52 ≤ (mantissa * mantissa').log2 :=
      (Nat.le_log2 (Nat.ne_of_gt (Nat.mul_pos hpositive hpositive'))).mpr hfull
    omega
  · have hsmall : exponent = -1074 := by
      refine h.full.resolve_left fun hlarge => hfull ?_
      exact Nat.le_trans hlarge (Nat.le_mul_of_pos_right _ hpositive')
    have hsmall' : exponent' = -1074 := by
      refine h'.full.resolve_left fun hlarge => hfull ?_
      exact Nat.le_trans hlarge (Nat.le_mul_of_pos_left _ hpositive)
    omega

theorem isFinite_mul_finite {x y : Float.Model} (hx : x.unpack.isFinite = true)
    (hy : y.unpack.isFinite = true) :
    (Float.Model.pack
        (UnpackedFloat.mul Format.binary64 x.unpack y.unpack)).unpack.isFinite = true ↔
      |unpackedValue x.unpack * unpackedValue y.unpack| < overflow := by
  have hzero (sign : Sign) : unpackedValue (.zero sign) = 0 := rfl
  have hnone (sign : Sign) : (Float.Model.pack (.zero sign)).unpack.isFinite = true :=
    congrArg UnpackedFloat.isFinite (unpack_pack_zero sign)
  rcases finite_cases hx with ⟨sign, hsign⟩ | ⟨sign, mantissa, exponent, h, hparts⟩
  · rw [hsign, hzero, zero_mul, abs_zero]
    refine iff_of_true ?_ overflow_pos
    rcases finite_cases hy with ⟨sign', hsign'⟩ | ⟨sign', mantissa', exponent', h', hparts'⟩
    · rw [hsign']
      exact hnone (sign * sign')
    · rw [hparts']
      exact hnone (sign * sign')
  · rcases finite_cases hy with ⟨sign', hsign'⟩ | ⟨sign', mantissa', exponent', h', hparts'⟩
    · rw [hsign', hzero, mul_zero, abs_zero, hparts]
      exact iff_of_true (hnone (sign * sign')) overflow_pos
    · have hwide := (canonical_of_unpack hparts).1.mul (canonical_of_unpack hparts').1 h h'
      have hvalue : |unpackedValue (.finite sign mantissa exponent h) *
          unpackedValue (.finite sign' mantissa' exponent' h')| =
            ((mantissa * mantissa' : ℕ) : ℚ) * 2 ^ (exponent + exponent') := by
        rw [abs_mul, abs_unpackedValue, abs_unpackedValue, zpow_add₀ two_ne_zero]
        push_cast
        ring
      rw [hparts, hparts', hvalue]
      exact isFinite_roundWithAccuracy (Nat.mul_pos h h') hwide

theorem isFinite_mul {x y : Float} :
    (x * y).isFinite = true ↔
      x.isFinite = true ∧ y.isFinite = true ∧ |exact x * exact y| < overflow := by
  rw [exact_eq, exact_eq]
  exact isFinite_iff_of_parts mul_not_finite isFinite_mul_finite

end Quotation.Number
