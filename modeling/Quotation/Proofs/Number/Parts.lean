import Quotation.Proofs.Number.Exact

/-!
# The parts of a finite double

A finite double is its sign and its size, a mantissa in its range times a power of two. Different
parts are different doubles, but for the exponent of a zero, and beside a unit a double is a whole
number of units or a small number.
-/

namespace Quotation.Number

open Float.Model Float.Model.UnpackedFloat

def signedBy (negative : Bool) (size : ℚ) : ℚ := if negative then -size else size

def Dyadic.size (d : Dyadic) : ℚ := d.mantissa * 2 ^ d.exponent

theorem Dyadic.size_nonneg (d : Dyadic) : 0 ≤ d.size :=
  mul_nonneg (Nat.cast_nonneg _) (zpow_pos two_pos _).le

theorem Dyadic.value_eq (d : Dyadic) : d.value = signedBy d.negative d.size := by
  unfold Dyadic.value signedBy Dyadic.size
  cases d.negative with
  | false => rfl
  | true => exact neg_mul ..

theorem exact_of_parts {x : Float} {d : Dyadic} (h : dyadic? x = some d) :
    exact x = signedBy d.negative d.size := by
  rw [← d.value_eq, exact, h]
  rfl

/-- The parts that a double can have: those of a zero, or a mantissa in its range. -/
inductive Dyadic.Fits (d : Dyadic) : Prop where
  | zero (mantissa : d.mantissa = 0) (exponent : d.exponent = 0)
  | finite (positive : 0 < d.mantissa) (canonical : Canonical d.mantissa d.exponent)
      (exponent : d.exponent ≤ 971)

theorem signOf_isNegative (sign : Sign) : signOf (isNegative sign) = sign := by
  cases sign <;> rfl

theorem isNegative_signOf (negative : Bool) : isNegative (signOf negative) = negative := by
  cases negative <;> rfl

theorem isFinite_iff_parts {x : Float} : x.isFinite = true ↔ ∃ d, dyadic? x = some d := by
  show x.toModel.unpack.isFinite = true ↔ _
  unfold dyadic?
  cases x.toModel.unpack <;> simp [UnpackedFloat.isFinite]

theorem finite?_eq_some {x y : Float} : finite? x = some y ↔ x.isFinite = true ∧ x = y := by
  simp [finite?]

theorem finite?_eq_none {x : Float} : finite? x = none ↔ x.isFinite = false := by
  simp [finite?]

theorem fits_of_parts {x : Float} {d : Dyadic} (h : dyadic? x = some d) : d.Fits := by
  unfold dyadic? at h
  split at h
  · rename_i sign mantissa exponent hpositive hparts
    cases h
    obtain ⟨hcanonical, hexponent⟩ := canonical_of_unpack hparts
    exact .finite hpositive hcanonical hexponent
  · cases h
    exact .zero rfl rfl
  · cases h
  · cases h

theorem eq_toFloat_of_parts {x : Float} {d : Dyadic} (h : dyadic? x = some d) : x = d.toFloat := by
  have hpacked := congrArg Float.ofModel (pack_unpacked x.toModel)
  unfold dyadic? at h
  split at h
  · rename_i sign mantissa exponent hpositive hparts
    cases h
    rw [hparts] at hpacked
    rw [Dyadic.toFloat, dif_pos hpositive, signOf_isNegative]
    exact hpacked.symm
  · rename_i sign hparts
    cases h
    rw [hparts] at hpacked
    rw [Dyadic.toFloat, dif_neg (Nat.lt_irrefl 0), signOf_isNegative]
    exact hpacked.symm
  · cases h
  · cases h

/-! ## Equality -/

theorem eq_of_unpack_eq {x y : Float} (h : x.toModel.unpack = y.toModel.unpack) : x = y := by
  have hx := pack_unpacked x.toModel
  rw [h, pack_unpacked y.toModel] at hx
  exact congrArg Float.ofModel hx.symm

theorem beq_finite_iff {sign sign' : Sign} {m m' : Nat} {e e' : Int} {h : 0 < m} {h' : 0 < m'} :
    (UnpackedFloat.finite sign m e h).beq (.finite sign' m' e' h') = true ↔
      UnpackedFloat.finite sign m e h = .finite sign' m' e' h' := by
  cases sign <;> cases sign' <;>
    simp [UnpackedFloat.beq, UnpackedFloat.compare, Ordering.then_eq_eq, and_comm]

theorem beq_iff {x y : Float} (hx : x.isFinite = true) (hy : y.isFinite = true) :
    (x == y) = true ↔ x = y ∨ (x == 0) = true ∧ (y == 0) = true := by
  have hzero : (0 : Float).toModel.unpack = .zero .positive := rfl
  have hbeq (z w : Float) : (z == w) = z.toModel.unpack.beq w.toModel.unpack := rfl
  have hsame : x = y ↔ x.toModel.unpack = y.toModel.unpack :=
    ⟨fun h => h ▸ rfl, eq_of_unpack_eq⟩
  rw [hbeq, hbeq x, hbeq y, hzero, hsame]
  rcases finite_cases hx with ⟨s, hs⟩ | ⟨s, m, e, h, hs⟩ <;>
    rcases finite_cases hy with ⟨t, ht⟩ | ⟨t, n, f, h', ht⟩
  · rw [hs, ht]
    exact iff_of_true rfl (.inr ⟨rfl, rfl⟩)
  · rw [hs, ht]
    cases t <;> simp [UnpackedFloat.beq, UnpackedFloat.compare]
  · rw [hs, ht]
    cases s <;> simp [UnpackedFloat.beq, UnpackedFloat.compare]
  · rw [hs, ht, beq_finite_iff, or_iff_left]
    rintro ⟨hxzero, -⟩
    cases s <;> cases hxzero
/-! ## Making a double of parts -/

/-- The parts of a double that was made of some. A zero has the exponent zero. -/
theorem parts_toFloat {d : Dyadic} (hcanonical : Canonical d.mantissa d.exponent)
    (hexponent : d.exponent ≤ 971) :
    ∃ e, dyadic? d.toFloat = some ⟨d.negative, d.mantissa, e⟩ ∧
      Dyadic.size ⟨d.negative, d.mantissa, e⟩ = d.size := by
  unfold dyadic? Dyadic.toFloat
  split_ifs with hpositive
  · refine ⟨d.exponent, ?_, rfl⟩
    rw [unpack_pack_finite hpositive hcanonical hexponent]
    simp only [isNegative_signOf]
  · have hzero : d.mantissa = 0 := Nat.eq_zero_of_not_pos hpositive
    refine ⟨0, ?_, by simp [Dyadic.size, hzero]⟩
    rw [unpack_pack_zero]
    simp only [isNegative_signOf, hzero]

theorem toFloat_eq_infinity {d : Dyadic} (hpositive : 0 < d.mantissa)
    (hcanonical : Canonical d.mantissa d.exponent) (hexponent : 971 < d.exponent) :
    d.toFloat = infinity d.negative := by
  rw [Dyadic.toFloat, dif_pos hpositive]
  refine congrArg Float.ofModel ?_
  rw [← pack_unpacked (Float.Model.pack _), unpack_pack_large hpositive hcanonical hexponent]

theorem Canonical.unique {m n : Nat} {e f : Int} (hm : Canonical m e) (hn : Canonical n f)
    (hsize : (m : ℚ) * 2 ^ e = n * 2 ^ f) (hpositive : 0 < m) : m = n ∧ e = f := by
  have hle {m n : Nat} {e f : Int} (hm : Canonical m e) (hn : Canonical n f)
      (hsize : (m : ℚ) * 2 ^ e = n * 2 ^ f) (hpositive : 0 < m) : f ≤ e := by
    by_contra hlt
    obtain ⟨count, hcount⟩ := Int.eq_ofNat_of_zero_le (show 0 ≤ f - e - 1 by omega)
    have hexponent : f = e + (count + 1 : Nat) := by omega
    have hmantissa : m = n * 2 ^ (count + 1) := by
      rw [hexponent, zpow_add₀ two_ne_zero, zpow_natCast] at hsize
      have hcancel := mul_right_cancel₀ (zpow_pos (two_pos (α := ℚ)) e).ne'
        (hsize.trans (show _ = (n * 2 ^ (count + 1) : ℚ) * 2 ^ e by ring))
      exact_mod_cast hcancel
    have hfull : 2 ^ 52 ≤ n := hn.full.resolve_right (by have := hm.lowest; omega)
    have hdouble : n * 2 ≤ m := by
      rw [hmantissa, Nat.pow_succ]
      have := Nat.one_le_two_pow (n := count)
      nlinarith
    have := hm.width
    omega
  have hn_positive : 0 < n := by
    rcases Nat.eq_zero_or_pos n with rfl | h
    · have : (0 : ℚ) < m * 2 ^ e := by positivity
      simp [hsize] at this
    · exact h
  have hexponent : e = f :=
    le_antisymm (hle hn hm hsize.symm hn_positive) (hle hm hn hsize hpositive)
  subst hexponent
  refine ⟨?_, rfl⟩
  exact_mod_cast mul_right_cancel₀ (zpow_pos (two_pos (α := ℚ)) e).ne' hsize

theorem eq_of_size_eq {x y : Float} {d e : Dyadic} (hx : dyadic? x = some d)
    (hy : dyadic? y = some e) (hsign : d.negative = e.negative) (hsize : d.size = e.size) :
    x = y := by
  obtain ⟨negative, m, k⟩ := d
  obtain ⟨negative', n, l⟩ := e
  cases hsign
  have hpositive {m n : Nat} {k l : Int} (h : (m : ℚ) * 2 ^ k = n * 2 ^ l) (hm : 0 < m) :
      n ≠ 0 := by
    rintro rfl
    have : (0 : ℚ) < m * 2 ^ k := by positivity
    simp [h] at this
  have hsame : m = n ∧ k = l := by
    cases fits_of_parts hx with
    | zero hm hk =>
      cases fits_of_parts hy with
      | zero hn hl => exact ⟨hm.trans hn.symm, hk.trans hl.symm⟩
      | finite hn => exact absurd hm (hpositive hsize.symm hn)
    | finite hm hcanonical =>
      cases fits_of_parts hy with
      | zero hn => exact absurd hn (hpositive hsize hm)
      | finite hn hcanonical' => exact hcanonical.unique hcanonical' hsize hm
  obtain ⟨rfl, rfl⟩ := hsame
  rw [eq_toFloat_of_parts hx, eq_toFloat_of_parts hy]

/-- Beside a unit, the size of a double is a whole number of units, or it is less than the units that
a full mantissa counts. -/
theorem Dyadic.Fits.onGrid {d : Dyadic} (h : d.Fits) (e : Int) :
    (∃ k : ℕ, d.size = k * 2 ^ e ∧ (d.mantissa % 2 = 0 → k % 2 = 0)) ∨
      d.size < 2 ^ 52 * 2 ^ e ∧ -1074 < e := by
  cases h with
  | zero mantissa => exact .inl ⟨0, by simp [Dyadic.size, mantissa], fun _ => rfl⟩
  | finite positive canonical =>
    rcases le_or_gt e d.exponent with hle | hlt
    · left
      obtain ⟨count, hcount⟩ := Int.eq_ofNat_of_zero_le (Int.sub_nonneg_of_le hle)
      have hexponent : d.exponent = e + count := by omega
      refine ⟨d.mantissa * 2 ^ count, ?_, fun heven => by rw [Nat.mul_mod, heven]; simp⟩
      rw [Dyadic.size, hexponent, zpow_add₀ two_ne_zero, zpow_natCast]
      push_cast
      ring
    · right
      have hwidth : (d.mantissa : ℚ) < 2 ^ 53 := by exact_mod_cast canonical.width
      have hunit : (0 : ℚ) < 2 ^ d.exponent := zpow_pos two_pos _
      refine ⟨?_, lt_of_le_of_lt canonical.lowest hlt⟩
      calc d.size < 2 ^ 53 * 2 ^ d.exponent := by unfold Dyadic.size; gcongr
        _ = 2 ^ 52 * 2 ^ (d.exponent + 1) := by rw [zpow_add_one₀ two_ne_zero]; ring
        _ ≤ 2 ^ 52 * 2 ^ e := by gcongr <;> [norm_num; omega]

end Quotation.Number
