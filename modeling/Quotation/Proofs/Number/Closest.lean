import Quotation.Proofs.Number.Parts

/-!
# The closest double

What it means to round a number: of all finite doubles the closest one is taken, of two equally close
ones the one with an even mantissa, and from the overflow bound on an infinity. For a number with a
sign there is one such double, and rounding a fraction finds it.
-/

namespace Quotation.Number

/-! ## What rounding means -/

/-- A double that a number is rounded to. The number is given by its sign and size, for a zero has a
sign as well. -/
inductive Rounds (negative : Bool) (size : ℚ) : Float → Prop where
  | finite {x : Float} {d : Dyadic} (below : size < overflow) (parts : dyadic? x = some d)
      (sign : d.negative = negative)
      (closest : ∀ y : Float, y.isFinite = true →
        |exact x - signedBy negative size| ≤ |exact y - signedBy negative size|)
      (even : ∀ y : Float, y.isFinite = true →
        |exact y - signedBy negative size| = |exact x - signedBy negative size| →
          exact y = exact x ∨ d.mantissa % 2 = 0) : Rounds negative size x
  | infinite (beyond : overflow ≤ size) : Rounds negative size (infinity negative)

theorem abs_signedBy_sub (negative : Bool) (a b : ℚ) :
    |signedBy negative a - signedBy negative b| = |a - b| := by
  cases negative with
  | false => rfl
  | true =>
    show |-a - -b| = |a - b|
    rw [neg_sub_neg, abs_sub_comm]

theorem signedBy_injective (negative : Bool) : Function.Injective (signedBy negative) := by
  intro a b h
  have hdistance := abs_signedBy_sub negative a b
  rw [h, sub_self, abs_zero] at hdistance
  exact sub_eq_zero.mp (abs_eq_zero.mp hdistance.symm)

theorem abs_sub_le_signedBy {a b : ℚ} (ha : 0 ≤ a) (hb : 0 ≤ b) (m n : Bool) :
    |a - b| ≤ |signedBy m a - signedBy n b| := by
  have hsum : |a - b| ≤ a + b := abs_le.mpr ⟨by linarith, by linarith⟩
  cases m with
  | false =>
    cases n with
    | false => exact le_rfl
    | true =>
      show |a - b| ≤ |a - -b|
      rwa [sub_neg_eq_add, abs_of_nonneg (add_nonneg ha hb)]
  | true =>
    cases n with
    | false =>
      show |a - b| ≤ |-a - b|
      rwa [← neg_add', abs_neg, abs_of_nonneg (add_nonneg ha hb)]
    | true => exact (abs_signedBy_sub true a b).ge

theorem sign_eq_of_close {a b : ℚ} (ha : 0 < a) (hb : 0 < b) {m n : Bool}
    (h : |signedBy m a - signedBy n b| ≤ |a - b|) : m = n := by
  have hless : |a - b| < a + b := abs_lt.mpr ⟨by linarith, by linarith⟩
  cases m with
  | false =>
    cases n with
    | false => rfl
    | true =>
      have hsum : |a - b| < |a - -b| := by rwa [sub_neg_eq_add, abs_of_pos (add_pos ha hb)]
      exact absurd h (not_le.mpr hsum)
  | true =>
    cases n with
    | false =>
      have hsum : |a - b| < |-a - b| := by rwa [← neg_add', abs_neg, abs_of_pos (add_pos ha hb)]
      exact absurd h (not_le.mpr hsum)
    | true => rfl

/-! ## The closest whole number -/

/-- The whole number that a number is rounded to, a half to the even one. -/
structure IsClosest (r : ℚ) (m : ℕ) : Prop where
  closest : ∀ k : ℕ, |(m : ℚ) - r| ≤ |(k : ℚ) - r|
  even : ∀ k : ℕ, |(k : ℚ) - r| = |(m : ℚ) - r| → k = m ∨ m % 2 = 0 ∧ k % 2 = 1

theorem isClosest_of_half {r : ℚ} {m : ℕ} (hhalf : |(m : ℚ) - r| ≤ 1 / 2)
    (heven : |(m : ℚ) - r| = 1 / 2 → m % 2 = 0) : IsClosest r m := by
  have happart {k : ℕ} (hne : k ≠ m) : 1 ≤ |(k : ℚ) - m| := by
    have hint : (1 : ℤ) ≤ |(k : ℤ) - m| := Int.one_le_abs (by omega)
    exact_mod_cast hint
  have hsum (k : ℕ) : |(k : ℚ) - m| ≤ |(k : ℚ) - r| + |(m : ℚ) - r| := by
    rw [abs_sub_comm (m : ℚ) r]
    exact abs_sub_le ..
  constructor
  · intro k
    by_cases hne : k = m
    · rw [hne]
    · linarith [happart hne, hsum k]
  · intro k htie
    by_cases hne : k = m
    · exact .inl hne
    right
    have hm := heven (by linarith [happart hne, hsum k])
    -- A rival is a half away on the other side, so it is the next number.
    have hnext : |(k : ℤ) - m| ≤ 1 := by
      have hle : |(k : ℚ) - m| ≤ 1 := by linarith [hsum k]
      exact_mod_cast hle
    rw [abs_le] at hnext
    omega

theorem isClosest_halfEven {n d : ℕ} (h : 0 < d) : IsClosest (n / d) (halfEven n d) := by
  have hd : (0 : ℚ) < d := by exact_mod_cast h
  have hquotient : (n : ℚ) / d = (n / d : ℕ) + ((n % d : ℕ) : ℚ) / d := by
    rw [div_eq_iff hd.ne', add_mul, div_mul_cancel₀ _ hd.ne']
    exact_mod_cast (Nat.div_add_mod' n d).symm
  have hrest : (0 : ℚ) ≤ ((n % d : ℕ) : ℚ) / d ∧ ((n % d : ℕ) : ℚ) / d < 1 := by
    refine ⟨by positivity, ?_⟩
    rw [div_lt_one hd]
    exact_mod_cast Nat.mod_lt n h
  have hlt : 2 * (n % d) < d ↔ ((n % d : ℕ) : ℚ) / d < 1 / 2 := by
    rw [div_lt_div_iff₀ hd two_pos, mul_comm, one_mul]
    exact_mod_cast Iff.rfl
  have heq : 2 * (n % d) = d ↔ ((n % d : ℕ) : ℚ) / d = 1 / 2 := by
    rw [div_eq_div_iff hd.ne' two_ne_zero, mul_comm, one_mul]
    exact_mod_cast Iff.rfl
  unfold halfEven
  simp only [hquotient, hlt, heq]
  generalize n / d = quotient
  generalize ((n % d : ℕ) : ℚ) / d = rest at hrest
  split_ifs with hhalf
  · have hdown : |(quotient : ℚ) - (quotient + rest)| = rest := by
      rw [sub_add_cancel_left, abs_neg, abs_of_nonneg hrest.1]
    refine isClosest_of_half ?_ ?_
    · rw [hdown]
      exact hhalf.elim le_of_lt fun h => h.1.le
    · rw [hdown]
      exact fun h => (hhalf.resolve_left h.not_lt).2
  · have hup : |((quotient + 1 : ℕ) : ℚ) - (quotient + rest)| = 1 - rest := by
      rw [Nat.cast_succ, add_sub_add_left_eq_sub, abs_of_pos (sub_pos.mpr hrest.2)]
    have hlarge : 1 / 2 ≤ rest := not_lt.mp fun h => hhalf (.inl h)
    refine isClosest_of_half ?_ ?_
    · rw [hup]
      linarith
    · rw [hup]
      intro h
      have hodd : ¬ quotient % 2 = 0 := fun heven => hhalf (.inr ⟨by linarith, heven⟩)
      omega

/-! ## The unit that a number is rounded to -/

/-- The exponent of the last bit of a double as large as a number. -/
structure IsUnitOf (q : ℚ) (e : Int) : Prop where
  lowest : -1074 ≤ e
  below : q < 2 ^ 53 * 2 ^ e
  full : e = -1074 ∨ 2 ^ 52 * 2 ^ e ≤ q

theorem two_zpow_toNat (e : Int) : (2 : ℚ) ^ e.toNat = 2 ^ e * 2 ^ (-e).toNat := by
  rcases le_total 0 e with h | h
  · obtain ⟨n, rfl⟩ := Int.eq_ofNat_of_zero_le h
    simp
  · obtain ⟨n, hn⟩ := Int.eq_ofNat_of_zero_le (Int.neg_nonneg_of_nonpos h)
    obtain rfl : e = -n := by omega
    simp

theorem log2_bounds {n : ℕ} (h : 0 < n) :
    (2 : ℚ) ^ (n.log2 : Int) ≤ n ∧ (n : ℚ) < 2 ^ (n.log2 + 1 : Int) := by
  have hlow : 2 ^ n.log2 ≤ n := Nat.log2_self_le (Nat.ne_of_gt h)
  have hhigh : n < 2 ^ (n.log2 + 1) := Nat.lt_log2_self
  exact ⟨by exact_mod_cast hlow, by exact_mod_cast hhigh⟩

theorem isUnitOf_unitExponent {n d : ℕ} (hn : 0 < n) (hd : 0 < d) :
    IsUnitOf (n / d) (unitExponent n d) := by
  have hnumerator := log2_bounds hn
  have hdenominator := log2_bounds hd
  have hd' : (0 : ℚ) < d := by exact_mod_cast hd
  unfold unitExponent
  generalize hguess : (n.log2 : Int) - (d.log2 : Int) = guess
  have hleast : d * Nat.pow 2 guess.toNat ≤ n * Nat.pow 2 (-guess).toNat ↔
      (2 : ℚ) ^ guess ≤ n / d := by
    have hcast : d * Nat.pow 2 guess.toNat ≤ n * Nat.pow 2 (-guess).toNat ↔
        (d : ℚ) * 2 ^ guess.toNat ≤ n * 2 ^ (-guess).toNat := by exact_mod_cast Iff.rfl
    rw [hcast, two_zpow_toNat, ← mul_assoc, mul_le_mul_iff_of_pos_right (by positivity),
      le_div_iff₀ hd', mul_comm]
  have hlow : (2 : ℚ) ^ (guess - 1) < n / d := by
    rw [lt_div_iff₀ hd']
    calc (2 : ℚ) ^ (guess - 1) * d < 2 ^ (guess - 1) * 2 ^ (d.log2 + 1 : Int) := by
          have := hdenominator.2
          gcongr
      _ = 2 ^ (n.log2 : Int) := by
          rw [← zpow_add₀ two_ne_zero]
          congr 1
          omega
      _ ≤ n := hnumerator.1
  have hhigh : (n : ℚ) / d < 2 ^ (guess + 1) := by
    rw [div_lt_iff₀ hd']
    calc (n : ℚ) < 2 ^ (n.log2 + 1 : Int) := hnumerator.2
      _ = 2 ^ (guess + 1) * 2 ^ (d.log2 : Int) := by
          rw [← zpow_add₀ two_ne_zero]
          congr 1
          omega
      _ ≤ 2 ^ (guess + 1) * d := by
          have := hdenominator.1
          gcongr
  -- The exponent of the first bit is the guess or one less.
  obtain ⟨first, hfirst, hfrom, hto⟩ : ∃ first : Int,
      first = (if d * Nat.pow 2 guess.toNat ≤ n * Nat.pow 2 (-guess).toNat then guess
        else guess - 1) ∧ (2 : ℚ) ^ first ≤ n / d ∧ (n : ℚ) / d < 2 ^ (first + 1) := by
    refine ⟨_, rfl, ?_⟩
    split_ifs with h
    · exact ⟨hleast.mp h, hhigh⟩
    · rw [sub_add_cancel]
      exact ⟨hlow.le, not_le.mp (mt hleast.mpr h)⟩
  dsimp only
  rw [← hfirst]
  refine ⟨le_max_right .., ?_, ?_⟩
  · calc (n : ℚ) / d < 2 ^ (first + 1) := hto
      _ ≤ 2 ^ (53 + max (first - 52) (-1074)) := by
          refine zpow_le_zpow_right₀ one_le_two ?_
          omega
      _ = 2 ^ 53 * 2 ^ max (first - 52) (-1074) := by
          rw [zpow_add₀ two_ne_zero, zpow_ofNat]
  · rcases le_or_gt (first - 52) (-1074) with h | h
    · exact .inl (max_eq_right h)
    · right
      rw [max_eq_left h.le, zpow_sub₀ two_ne_zero, zpow_ofNat, mul_div_cancel₀ _ (by norm_num)]
      exact hfrom

section

variable {q : ℚ} {e : Int} {m : ℕ}

theorem abs_units_sub (k : ℕ) : |(k : ℚ) * 2 ^ e - q| = |(k : ℚ) - q / 2 ^ e| * 2 ^ e := by
  have hunit : (0 : ℚ) < 2 ^ e := zpow_pos two_pos e
  conv_rhs => rw [← abs_of_pos hunit, ← abs_mul, sub_mul, abs_of_pos hunit,
    div_mul_cancel₀ _ hunit.ne']

theorem IsClosest.units (h : IsClosest (q / 2 ^ e) m) (k : ℕ) :
    |(m : ℚ) * 2 ^ e - q| ≤ |(k : ℚ) * 2 ^ e - q| := by
  have hunit : (0 : ℚ) < 2 ^ e := zpow_pos two_pos e
  rw [abs_units_sub, abs_units_sub]
  exact mul_le_mul_of_nonneg_right (h.closest k) hunit.le

theorem IsClosest.units_even (h : IsClosest (q / 2 ^ e) m) {k : ℕ}
    (htie : |(k : ℚ) * 2 ^ e - q| = |(m : ℚ) * 2 ^ e - q|) : k = m ∨ m % 2 = 0 ∧ k % 2 = 1 := by
  have hunit : (2 : ℚ) ^ e ≠ 0 := (zpow_pos two_pos e).ne'
  rw [abs_units_sub, abs_units_sub] at htie
  exact h.even k (mul_right_cancel₀ hunit htie)

/-- No double is closer than the whole number of units, and an equally close one has an odd
mantissa, then. -/
theorem IsUnitOf.closest (hunit : IsUnitOf q e) (hm : IsClosest (q / 2 ^ e) m) {d : Dyadic}
    (hd : d.Fits) : |(m : ℚ) * 2 ^ e - q| ≤ |d.size - q| ∧
      (|d.size - q| = |(m : ℚ) * 2 ^ e - q| →
        d.size = m * 2 ^ e ∨ m % 2 = 0 ∧ d.mantissa % 2 = 1) := by
  rcases hd.onGrid e with ⟨k, hsize, hparity⟩ | ⟨hsmall, hlarge⟩
  · rw [hsize]
    refine ⟨hm.units k, fun htie => ?_⟩
    rcases hm.units_even htie with rfl | ⟨heven, hodd⟩
    · exact .inl rfl
    · exact .inr ⟨heven, by omega⟩
  · -- The number is at least a full mantissa, so a smaller double is further away than that.
    have hfull : 2 ^ 52 * 2 ^ e ≤ q := hunit.full.resolve_left hlarge.ne'
    have hnear : |(m : ℚ) * 2 ^ e - q| ≤ q - 2 ^ 52 * 2 ^ e := by
      rw [← abs_of_nonneg (sub_nonneg.mpr hfull), abs_sub_comm q]
      exact_mod_cast hm.units (2 ^ 52)
    have hfar : |d.size - q| = q - d.size := by
      rw [abs_sub_comm, abs_of_pos (by linarith)]
    rw [hfar]
    exact ⟨by linarith, fun htie => by linarith⟩

theorem IsUnitOf.mantissa_full (hunit : IsUnitOf q e) (hm : IsClosest (q / 2 ^ e) m) :
    2 ^ 52 ≤ m ∨ e = -1074 := by
  by_contra hboth
  obtain ⟨hsmall, hlarge⟩ := not_or.mp hboth
  have hfull : 2 ^ 52 * 2 ^ e ≤ q := hunit.full.resolve_left hlarge
  have hless : (m : ℚ) * 2 ^ e < 2 ^ 52 * 2 ^ e := by
    have : (m : ℚ) < 2 ^ 52 := by exact_mod_cast not_le.mp hsmall
    gcongr
  have hnear : |(m : ℚ) * 2 ^ e - q| ≤ |2 ^ 52 * 2 ^ e - q| := by exact_mod_cast hm.units (2 ^ 52)
  rw [abs_sub_comm, abs_of_pos (by linarith), abs_sub_comm, abs_of_nonneg (by linarith)] at hnear
  linarith

theorem IsUnitOf.mantissa_width (hunit : IsUnitOf q e) (hm : IsClosest (q / 2 ^ e) m) :
    m ≤ 2 ^ 53 := by
  by_contra hlarge
  have hbelow := hunit.below
  have hmore : (2 : ℚ) ^ 53 * 2 ^ e < m * 2 ^ e := by
    have : (2 : ℚ) ^ 53 < m := by exact_mod_cast not_le.mp hlarge
    gcongr
  have hnear : |(m : ℚ) * 2 ^ e - q| ≤ |2 ^ 53 * 2 ^ e - q| := by exact_mod_cast hm.units (2 ^ 53)
  rw [abs_of_pos (by linarith), abs_of_pos (by linarith)] at hnear
  linarith

/-- At the highest exponent a mantissa that carries over is too large. -/
theorem below_overflow_iff_mantissa (hunit : IsUnitOf q 971)
    (hm : IsClosest (q / 2 ^ (971 : Int)) m) : q < overflow ↔ m < 2 ^ 53 := by
  have hwidth := hunit.mantissa_width hm
  have hbelow := hunit.below
  have hbound : 2 * overflow = (2 ^ 54 - 1) * 2 ^ (971 : Int) := by
    rw [overflow, zpow_ofNat, pow_succ' (2 : ℚ) 970]
    exact mul_left_comm ..
  have hunit_pos : (0 : ℚ) < 2 ^ (971 : Int) := zpow_pos two_pos _
  constructor
  · intro hlow
    refine lt_of_le_of_ne hwidth ?_
    rintro rfl
    have hcast : ((2 ^ 53 - 1 : ℕ) : ℚ) = 2 ^ 53 - 1 := by norm_num
    have hcast' : ((2 ^ 53 : ℕ) : ℚ) = 2 ^ 53 := Nat.cast_pow 2 53
    have hnear := hm.units (2 ^ 53 - 1)
    rw [hcast, hcast'] at hnear
    generalize (2 : ℚ) ^ (971 : Int) = unit at *
    rw [abs_of_pos (by linarith)] at hnear
    rcases le_abs.mp hnear with h | h <;> linarith
  · intro hless
    by_contra hhigh
    have hm_le : (m : ℚ) ≤ 2 ^ 53 - 1 := by
      have := Nat.le_pred_of_lt hless
      have hcast : ((2 ^ 53 - 1 : ℕ) : ℚ) = 2 ^ 53 - 1 := by norm_num
      rw [← hcast]
      exact_mod_cast this
    have hm_units : (m : ℚ) * 2 ^ (971 : Int) ≤ (2 ^ 53 - 1) * 2 ^ (971 : Int) := by gcongr
    have hcast : ((2 ^ 53 : ℕ) : ℚ) = 2 ^ 53 := Nat.cast_pow 2 53
    have hnear := hm.units (2 ^ 53)
    have htie := hm.units_even (k := 2 ^ 53)
    rw [hcast] at hnear htie
    generalize (2 : ℚ) ^ (971 : Int) = unit at *
    have hleft : |(m : ℚ) * unit - q| = q - m * unit := by
      rw [abs_sub_comm, abs_of_pos (by linarith)]
    have hright : |2 ^ 53 * unit - q| = 2 ^ 53 * unit - q := abs_of_pos (by linarith)
    rw [hleft, hright] at hnear htie
    -- Only the middle is left, and there the even neighbour is the one that carries over.
    rcases htie (by linarith) with rfl | ⟨-, hodd⟩
    · exact lt_irrefl _ hless
    · cases hodd

theorem IsUnitOf.below_overflow_iff (hunit : IsUnitOf q e) (hm : IsClosest (q / 2 ^ e) m) :
    q < overflow ↔ e < 971 ∨ e = 971 ∧ m < 2 ^ 53 := by
  rcases Int.lt_trichotomy e 971 with hlow | rfl | hhigh
  · refine iff_of_true ?_ (.inl hlow)
    calc q < 2 ^ 53 * 2 ^ e := hunit.below
      _ ≤ 2 ^ 53 * 2 ^ (970 : Int) := by gcongr <;> [norm_num; omega]
      _ ≤ overflow := by norm_num [overflow]
  · simpa using below_overflow_iff_mantissa hunit hm
  · refine iff_of_false (not_lt.mpr ?_) (by omega)
    calc overflow ≤ 2 ^ 54 * 2 ^ 970 := by
          unfold overflow
          gcongr
          norm_num
      _ = 2 ^ 52 * 2 ^ (972 : Int) := by rw [zpow_ofNat, ← pow_add, ← pow_add]
      _ ≤ 2 ^ 52 * 2 ^ e := by gcongr <;> [norm_num; omega]
      _ ≤ q := hunit.full.resolve_left (by omega)

/-! ## Rounding to a double -/

/-- The double of a number of units. A mantissa that is one bit too long is carried over. -/
def ofUnits (negative : Bool) (m : ℕ) (e : Int) : Float :=
  if m = 2 ^ 53 then Dyadic.toFloat ⟨negative, 2 ^ 52, e + 1⟩ else Dyadic.toFloat ⟨negative, m, e⟩

theorem parts_ofUnits (negative : Bool) (hwidth : m ≤ 2 ^ 53) (hlowest : -1074 ≤ e)
    (hfull : 2 ^ 52 ≤ m ∨ e = -1074) (hfinite : e < 971 ∨ e = 971 ∧ m < 2 ^ 53) :
    ∃ d, dyadic? (ofUnits negative m e) = some d ∧ d.negative = negative ∧
      d.size = m * 2 ^ e ∧ (m % 2 = 0 → d.mantissa % 2 = 0) := by
  unfold ofUnits
  split_ifs with hcarry
  · have hcanonical : Canonical (2 ^ 52) (e + 1) := ⟨by decide, by omega, .inl le_rfl⟩
    obtain ⟨f, hparts, hsize⟩ :=
      parts_toFloat (d := ⟨negative, 2 ^ 52, e + 1⟩) hcanonical (by dsimp only; omega)
    refine ⟨_, hparts, rfl, ?_, fun _ => show 2 ^ 52 % 2 = 0 by decide⟩
    rw [hsize, Dyadic.size, hcarry, zpow_add_one₀ two_ne_zero]
    push_cast
    ring
  · have hcanonical : Canonical m e := ⟨by omega, hlowest, hfull⟩
    obtain ⟨f, hparts, hsize⟩ :=
      parts_toFloat (d := ⟨negative, m, e⟩) hcanonical (by dsimp only; omega)
    exact ⟨_, hparts, rfl, hsize, id⟩

theorem ofUnits_eq_infinity (negative : Bool) (hwidth : m ≤ 2 ^ 53) (hfull : 2 ^ 52 ≤ m)
    (hlarge : ¬ (e < 971 ∨ e = 971 ∧ m < 2 ^ 53)) : ofUnits negative m e = infinity negative := by
  unfold ofUnits
  split_ifs with hcarry
  · have hcanonical : Canonical (2 ^ 52) (e + 1) := ⟨by decide, by omega, .inl le_rfl⟩
    exact toFloat_eq_infinity (d := ⟨negative, 2 ^ 52, e + 1⟩) (Nat.two_pow_pos 52) hcanonical
      (by dsimp only; omega)
  · have hcanonical : Canonical m e := ⟨by omega, by omega, .inl hfull⟩
    exact toFloat_eq_infinity (d := ⟨negative, m, e⟩) (by dsimp only; omega) hcanonical
      (by dsimp only; omega)

theorem IsClosest.pos (h : IsClosest (q / 2 ^ e) m) (hq : 0 ≤ q) (hm : 0 < m) : 0 < q := by
  refine lt_of_le_of_ne hq ?_
  rintro rfl
  have hnear := h.units 0
  have hmore : (0 : ℚ) < m * 2 ^ e := by positivity
  rw [Nat.cast_zero, zero_mul, sub_zero, sub_zero, abs_of_pos hmore, abs_zero] at hnear
  exact absurd hmore (not_lt.mpr hnear)

theorem rounds_ofUnits (negative : Bool) (hq : 0 ≤ q) (hunit : IsUnitOf q e)
    (hm : IsClosest (q / 2 ^ e) m) : Rounds negative q (ofUnits negative m e) := by
  have hwidth := hunit.mantissa_width hm
  have hfull := hunit.mantissa_full hm
  have hbound := hunit.below_overflow_iff hm
  by_cases hfinite : e < 971 ∨ e = 971 ∧ m < 2 ^ 53
  · obtain ⟨d, hparts, hsign, hsize, heven⟩ :=
      parts_ofUnits negative hwidth hunit.lowest hfull hfinite
    have hdistance : |exact (ofUnits negative m e) - signedBy negative q| = |m * 2 ^ e - q| := by
      rw [exact_of_parts hparts, hsign, abs_signedBy_sub, hsize]
    refine .finite (hbound.mpr hfinite) hparts hsign ?_ ?_
    · intro y hy
      obtain ⟨f, hparts'⟩ := isFinite_iff_parts.mp hy
      rw [hdistance, exact_of_parts hparts']
      exact (hunit.closest hm (fits_of_parts hparts')).1.trans
        (abs_sub_le_signedBy f.size_nonneg hq ..)
    · intro y hy htie
      obtain ⟨f, hparts'⟩ := isFinite_iff_parts.mp hy
      obtain ⟨hclosest, hrival⟩ := hunit.closest hm (fits_of_parts hparts')
      rw [hdistance, exact_of_parts hparts'] at htie
      have hle := (abs_sub_le_signedBy f.size_nonneg hq f.negative negative).trans htie.le
      rcases hrival (le_antisymm hle hclosest) with hsame | ⟨hm_even, -⟩
      · rcases Nat.eq_zero_or_pos m with rfl | hpositive
        · exact .inr (heven rfl)
        left
        have hsize_pos : 0 < f.size := by rw [hsame]; positivity
        have hsign' : f.negative = negative :=
          sign_eq_of_close hsize_pos (hm.pos hq hpositive) (by rw [htie, hsame])
        rw [exact_of_parts hparts, exact_of_parts hparts', hsize, hsign, hsame, hsign']
      · exact .inr (heven hm_even)
  · have hlarge : 2 ^ 52 ≤ m := hfull.resolve_right (by omega)
    rw [ofUnits_eq_infinity negative hwidth hlarge hfinite]
    exact .infinite (not_lt.mp (mt hbound.mp hfinite))

theorem Rounds.eq_ofUnits {negative : Bool} {x : Float} (h : Rounds negative q x)
    (hunit : IsUnitOf q e) (hm : IsClosest (q / 2 ^ e) m) : x = ofUnits negative m e := by
  have hwidth := hunit.mantissa_width hm
  have hfull := hunit.mantissa_full hm
  have hbound := hunit.below_overflow_iff hm
  cases h with
  | @finite _ d below parts sign closest even =>
    obtain ⟨f, hparts, hsign, hsize, -⟩ :=
      parts_ofUnits negative hwidth hunit.lowest hfull (hbound.mp below)
    have hnear := closest _ (isFinite_iff_parts.mpr ⟨f, hparts⟩)
    have htie := even _ (isFinite_iff_parts.mpr ⟨f, hparts⟩)
    rw [exact_of_parts parts, exact_of_parts hparts, sign, hsign, abs_signedBy_sub,
      abs_signedBy_sub, hsize] at hnear htie
    obtain ⟨hclosest, hrival⟩ := hunit.closest hm (fits_of_parts parts)
    have hequal := le_antisymm hnear hclosest
    refine eq_of_size_eq parts hparts (sign.trans hsign.symm) ?_
    rcases hrival hequal with hsame | ⟨-, hodd⟩
    · rw [hsame, hsize]
    · have hsame := (htie hequal.symm).resolve_right (by omega)
      rw [hsize]
      exact (signedBy_injective negative hsame).symm
  | infinite beyond =>
    have hlarge := mt hbound.mpr (not_lt.mpr beyond)
    exact (ofUnits_eq_infinity negative hwidth (hfull.resolve_right (by omega)) hlarge).symm

end

/-! ## Rounding a fraction -/

theorem rounds_zero (negative : Bool) {q : ℚ} (hq : 0 ≤ q) (hsmall : q < 2 ^ (-1075 : Int)) :
    Rounds negative q (Dyadic.toFloat ⟨negative, 0, 0⟩) := by
  have hhalf : (2 : ℚ) ^ (-1074 : Int) = 2 ^ (-1075 : Int) * 2 := by
    rw [← zpow_add_one₀ two_ne_zero]
    norm_num
  have hunit_pos : (0 : ℚ) < 2 ^ (-1074 : Int) := zpow_pos two_pos _
  have hunit : IsUnitOf q (-1074) := ⟨le_rfl, by linarith, .inl rfl⟩
  have hzero : ofUnits negative 0 (-1074) = Dyadic.toFloat ⟨negative, 0, 0⟩ := rfl
  rw [← hzero]
  refine rounds_ofUnits negative hq hunit (isClosest_of_half ?_ ?_)
  · rw [Nat.cast_zero, zero_sub, abs_neg, abs_of_nonneg (by positivity), div_le_iff₀ hunit_pos]
    linarith
  · exact fun _ => rfl

theorem nearest_units {n d : ℕ} (hd : 0 < d) : IsClosest ((n / d : ℚ) / 2 ^ unitExponent n d)
    (halfEven (n * Nat.pow 2 (-unitExponent n d).toNat)
      (d * Nat.pow 2 (unitExponent n d).toNat)) := by
  generalize unitExponent n d = e
  have hscale : (n / d : ℚ) / 2 ^ e =
      ((n * Nat.pow 2 (-e).toNat : ℕ) : ℚ) / ((d * Nat.pow 2 e.toNat : ℕ) : ℚ) := by
    have hd' : (d : ℚ) ≠ 0 := by positivity
    push_cast [Nat.pow_eq]
    rw [two_zpow_toNat e]
    field_simp
  rw [hscale]
  exact isClosest_halfEven (Nat.mul_pos hd (Nat.two_pow_pos _))

theorem nearest_rounds (negative : Bool) {n d : ℕ} (hn : 0 < n) (hd : 0 < d) :
    Rounds negative (n / d) (nearest negative n d) :=
  rounds_ofUnits negative (by positivity) (isUnitOf_unitExponent hn hd) (nearest_units hd)

theorem Rounds.unique {negative : Bool} {q : ℚ} {x y : Float} (hq : 0 ≤ q)
    (hx : Rounds negative q x) (hy : Rounds negative q y) : x = y := by
  obtain ⟨e, m, hunit, hm⟩ : ∃ e m, IsUnitOf q e ∧ IsClosest (q / 2 ^ e) m := by
    rcases hq.eq_or_lt with rfl | hpositive
    · exact ⟨-1074, 0, ⟨le_rfl, by positivity, .inl rfl⟩, by simp, by simp⟩
    · have hn : 0 < q.num.toNat := by have := Rat.num_pos.mpr hpositive; omega
      have hfraction : q = q.num.toNat / q.den := by
        have hnum : ((q.num.toNat : ℕ) : ℚ) = q.num := by
          exact_mod_cast congrArg (Int.cast (R := ℚ)) (Int.toNat_of_nonneg (Rat.num_nonneg.mpr hq))
        rw [hnum, Rat.num_div_den]
      have hunit := isUnitOf_unitExponent hn q.den_pos
      have hm := nearest_units (n := q.num.toNat) q.den_pos
      rw [← hfraction] at hunit hm
      exact ⟨_, _, hunit, hm⟩
  rw [hx.eq_ofUnits hunit hm, hy.eq_ofUnits hunit hm]

theorem rounds_self {x : Float} {d : Dyadic} (h : dyadic? x = some d) :
    Rounds d.negative d.size x := by
  have hzero : |exact x - signedBy d.negative d.size| = 0 := by
    rw [exact_of_parts h, sub_self, abs_zero]
  have hbelow : d.size < overflow := by
    cases fits_of_parts h with
    | zero mantissa =>
      rw [Dyadic.size, mantissa, Nat.cast_zero, zero_mul]
      exact overflow_pos
    | finite _ canonical exponent => exact canonical.below_overflow exponent
  refine .finite hbelow h rfl ?_ ?_
  · intro y _
    rw [hzero]
    exact abs_nonneg _
  · intro y _ htie
    rw [hzero, abs_eq_zero, sub_eq_zero] at htie
    exact .inl (htie.trans (exact_of_parts h).symm)

end Quotation.Number
