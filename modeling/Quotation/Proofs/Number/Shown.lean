import Quotation.Number.Display
import Quotation.Proofs.Number.Numeral
import Quotation.Proofs.Text.Characters

/-!
# Shown numbers are numerals

The full form and the plain form of a finite double are numerals, and they are read as the double
they were made from. Only the sign of a zero is lost in the plain form.
-/

namespace Quotation.Number

open Text

/-! ## The digits of a whole number -/

theorem asciiDigit_toDigits (n : ℕ) : ∀ c ∈ Nat.toDigits 10 n, c.isDigit = true := fun _ hc =>
  Nat.isDigit_of_mem_toDigits (by decide) (by decide) hc

theorem areDigits_of_ascii {cs : List Char} (h : ∀ c ∈ cs, c.isDigit = true) : AreDigits cs := by
  intro c hc
  rw [isDigit, digitValue?_asciiDigit (h c hc)]
  rfl

theorem areDigits_toDigits (n : ℕ) : AreDigits (Nat.toDigits 10 n) :=
  areDigits_of_ascii (asciiDigit_toDigits n)

theorem digitsValue_ascii {cs : List Char} (h : ∀ c ∈ cs, c.isDigit = true) :
    digitsValue cs = Nat.ofDigitChars 10 cs 0 := by
  rw [digitsValue, Nat.ofDigitChars_eq_foldl]
  refine List.foldl_ext _ _ _ fun n c hc => ?_
  rw [digitValue?_asciiDigit (h c hc)]
  rfl

@[simp]
theorem digitsValue_toDigits (n : ℕ) : digitsValue (Nat.toDigits 10 n) = n := by
  rw [digitsValue_ascii (asciiDigit_toDigits n), Nat.ofDigitChars_ten_toDigits]

theorem asciiDigit_zeros (k : ℕ) : ∀ c ∈ List.replicate k '0', c.isDigit = true := by
  intro c hc
  rw [List.eq_of_mem_replicate hc]
  decide

theorem areDigits_zeros (k : ℕ) : AreDigits (List.replicate k '0') :=
  areDigits_of_ascii (asciiDigit_zeros k)

@[simp]
theorem digitsValue_zeros (k : ℕ) : digitsValue (List.replicate k '0') = 0 := by
  rw [digitsValue_ascii (asciiDigit_zeros k), Nat.ofDigitChars_replicate_zero, Nat.mul_zero]

theorem AreDigits.append {front back : List Char} (h : AreDigits front) (hback : AreDigits back) :
    AreDigits (front ++ back) := by
  intro c hc
  exact (List.mem_append.mp hc).elim (h c) (hback c)

/-! ## Digits without zeros at the end -/

def Significand.value (s : Significand) : ℚ :=
  digitsValue s.digits * 10 ^ (s.point - s.digits.length)

theorem exists_trimmed (cs : List Char) :
    ∃ k, cs = trimEnd (· == '0') cs ++ List.replicate k '0' := by
  refine ⟨(cs.reverse.takeWhile (· == '0')).length, ?_⟩
  have hzeros : cs.reverse.takeWhile (· == '0') =
      List.replicate (cs.reverse.takeWhile (· == '0')).length '0' :=
    List.eq_replicate_of_mem fun c hc => by simpa using List.mem_takeWhile_imp hc
  have hsplit := List.takeWhile_append_dropWhile (p := (· == '0')) (l := cs.reverse)
  have hreverse := congrArg List.reverse hsplit
  rw [List.reverse_append, List.reverse_reverse, hzeros, List.reverse_replicate] at hreverse
  exact hreverse.symm

variable {d : Decimal}

theorem Decimal.value_significand (d : Decimal) : d.significand.value = d.value := by
  obtain ⟨k, hk⟩ := exists_trimmed (Nat.toDigits 10 d.digits)
  have hdigits := congrArg digitsValue hk
  have hlength := congrArg List.length hk
  rw [digitsValue_toDigits, digitsValue_append, digitsValue_zeros] at hdigits
  rw [List.length_append] at hlength
  simp only [List.length_replicate, Nat.add_zero] at hdigits hlength
  unfold Decimal.significand Significand.value Decimal.value
  dsimp only
  generalize trimEnd (· == '0') (Nat.toDigits 10 d.digits) = trimmed at *
  have hpoint : ((Nat.toDigits 10 d.digits).length : ℤ) + d.exponent - trimmed.length =
      k + d.exponent := by omega
  rw [hpoint, hdigits, zpow_add₀ (by norm_num), zpow_natCast]
  push_cast
  ring

theorem significand_filled (h : d.digits ≠ 0) : d.significand.digits ≠ [] := by
  intro hnil
  have hvalue := d.value_significand
  rw [Significand.value, hnil, Decimal.value] at hvalue
  have hpower : (10 : ℚ) ^ d.exponent ≠ 0 := zpow_ne_zero _ (by norm_num)
  simp [digitsValue, h, hpower] at hvalue

theorem areDigits_significand (d : Decimal) : AreDigits d.significand.digits := by
  obtain ⟨k, hk⟩ := exists_trimmed (Nat.toDigits 10 d.digits)
  intro c hc
  refine areDigits_toDigits d.digits c ?_
  rw [hk]
  exact List.mem_append_left _ hc

/-! ## Layout -/

theorem Mantissa.value_pointed (whole fraction : List Char) :
    Mantissa.value ⟨whole, some fraction⟩ =
      digitsValue (whole ++ fraction) * 10 ^ (-fraction.length : ℤ) := by
  rw [← Mantissa.value_toDecimal]
  rfl

theorem Mantissa.value_whole (whole : List Char) :
    Mantissa.value ⟨whole, none⟩ = digitsValue whole := by
  simp [Mantissa.value, digitsValue]

namespace Significand

variable {s : Significand}

theorem positional_value (s : Significand) :
    Mantissa.value ⟨s.positional.1, some s.positional.2⟩ = s.value := by
  rw [Mantissa.value_pointed, Significand.value]
  unfold positional
  split_ifs with hpoint
  · -- The zeros before the digits count for nothing.
    rw [digitsValue_append ['0'], digitsValue_append, digitsValue_zeros]
    have hzero : digitsValue ['0'] = 0 := by decide
    rw [hzero, zero_mul, zero_mul, zero_add, zero_add, List.length_append, List.length_replicate]
    congr 2
    omega
  · dsimp only
    rcases Nat.le_total s.digits.length s.point.toNat with hshort | hlong
    · -- The point stands behind the last digit.
      rw [List.take_of_length_le hshort, List.drop_of_length_le hshort, List.append_nil,
        digitsValue_append, digitsValue_zeros, List.length_replicate, List.length_nil]
      have hexponent : s.point - s.digits.length = (s.point.toNat - s.digits.length : ℕ) := by omega
      rw [hexponent, zpow_natCast]
      simp
    · -- The point stands among the digits.
      rw [Nat.sub_eq_zero_of_le hlong, List.replicate_zero, List.append_nil,
        List.take_append_drop, List.length_drop]
      congr 2
      omega

def leading (s : Significand) : Mantissa :=
  ⟨s.digits.take 1, if s.digits.length ≤ 1 then none else some (s.digits.drop 1)⟩

theorem leading_value (hfilled : s.digits ≠ []) :
    s.leading.value * 10 ^ (s.point - 1) = s.value := by
  have hten : (10 : ℚ) ≠ 0 := by norm_num
  have hlength := List.length_pos_of_ne_nil hfilled
  unfold leading Significand.value
  split_ifs with hone
  · rw [Mantissa.value_whole, List.take_of_length_le hone]
    congr 2
    omega
  · rw [Mantissa.value_pointed, List.take_append_drop, mul_assoc, ← zpow_add₀ hten,
      List.length_drop]
    congr 2
    omega

theorem leading_text (hfilled : s.digits ≠ []) (hall : AreDigits s.digits) :
    MantissaText s.leading.chars s.leading := by
  have hfirst : s.digits.take 1 ≠ [] := by simpa using hfilled
  have hall_first : AreDigits (s.digits.take 1) := fun c hc => hall c (List.mem_of_mem_take hc)
  unfold leading
  split_ifs
  · rw [Mantissa.chars]
    simpa using MantissaText.whole hfirst hall_first
  · exact .pointed hfirst hall_first fun c hc => hall c (List.mem_of_mem_drop hc)

def powerChars (power : ℤ) : List Char :=
  'e' :: ([if power < 0 then '-' else '+'] ++
    (List.replicate (2 - (Nat.toDigits 10 power.natAbs).length) '0' ++
      Nat.toDigits 10 power.natAbs))

theorem powerChars_text (power : ℤ) : ExponentText (powerChars power) power := by
  have hsign : SignText [if power < 0 then '-' else '+'] (decide (power < 0)) := by
    by_cases hnegative : power < 0 <;> simp only [hnegative, if_true, if_false]
    · exact .minus
    · exact .plus
  generalize hzeros : List.replicate (2 - (Nat.toDigits 10 power.natAbs).length) '0' = zeros
  have hdigits : digitsValue (zeros ++ Nat.toDigits 10 power.natAbs) = power.natAbs := by
    rw [digitsValue_append, ← hzeros, digitsValue_zeros, digitsValue_toDigits]
    omega
  have hall : AreDigits (zeros ++ Nat.toDigits 10 power.natAbs) :=
    hzeros ▸ (areDigits_zeros _).append (areDigits_toDigits _)
  have hfilled : zeros ++ Nat.toDigits 10 power.natAbs ≠ [] :=
    List.append_ne_nil_of_right_ne_nil _ Nat.toDigits_ne_nil
  have htext := ExponentText.power (.inl rfl) hsign hfilled hall
  rw [hdigits] at htext
  have hpower : (if decide (power < 0) = true then -(power.natAbs : ℤ) else power.natAbs) =
      power := by
    split_ifs with hnegative <;> simp only [decide_eq_true_eq] at hnegative <;> omega
  rw [hpower] at htext
  rw [powerChars, hzeros]
  exact htext

theorem scientific_eq (s : Significand) :
    s.scientific = s.leading.chars ++ powerChars (s.point - 1) := by
  unfold scientific leading powerChars Mantissa.chars
  dsimp only
  split_ifs <;> simp

theorem positional_text (hfilled : s.digits ≠ []) (hall : AreDigits s.digits) :
    AreDigits s.positional.1 ∧ s.positional.1 ≠ [] ∧ AreDigits s.positional.2 := by
  have hzero : AreDigits ['0'] := areDigits_zeros 1
  unfold positional
  split_ifs with hpoint
  · exact ⟨hzero, List.cons_ne_nil _ _, (areDigits_zeros _).append hall⟩
  · refine ⟨.append (fun c hc => hall c (List.mem_of_mem_take hc)) (areDigits_zeros _), ?_,
      fun c hc => hall c (List.mem_of_mem_drop hc)⟩
    refine List.append_ne_nil_of_left_ne_nil (fun hnil => ?_) _
    rcases List.take_eq_nil_iff.mp hnil with hpoint' | hnil
    · omega
    · exact hfilled hnil

def pointed (s : Significand) : Mantissa :=
  ⟨s.positional.1, some (if s.positional.2.isEmpty then ['0'] else s.positional.2)⟩

theorem pointed_text (hfilled : s.digits ≠ []) (hall : AreDigits s.digits) :
    MantissaText s.pointed.chars s.pointed := by
  obtain ⟨hwhole, hwhole_filled, hfraction⟩ := positional_text hfilled hall
  refine .pointed hwhole_filled hwhole ?_
  split_ifs
  · exact areDigits_zeros 1
  · exact hfraction

theorem pointed_value (s : Significand) : s.pointed.value = s.value := by
  rw [← s.positional_value]
  unfold pointed Mantissa.value
  split_ifs with hempty
  · have hzero : digitsValue ['0'] = 0 := by decide
    have hnone : digitsValue [] = 0 := rfl
    simp [List.isEmpty_iff.mp hempty, hzero, hnone]
  · rfl

theorem fullText_numeral (hfilled : s.digits ≠ []) (hall : AreDigits s.digits) :
    ∃ m power exponent, s.fullText = m.chars ++ power ∧ MantissaText m.chars m ∧
      ExponentText power exponent ∧ m.value * 10 ^ exponent = s.value := by
  unfold fullText
  split_ifs
  · refine ⟨s.pointed, [], 0, (List.append_nil _).symm, pointed_text hfilled hall, .none, ?_⟩
    rw [zpow_zero, mul_one, pointed_value]
  · exact ⟨s.leading, powerChars (s.point - 1), s.point - 1, s.scientific_eq,
      leading_text hfilled hall, powerChars_text _, leading_value hfilled⟩

end Significand

/-! ## The full form -/

section

variable {x : Float} {d : Dyadic}

theorem shortest_digits (h : dyadic? x = some d) (hmantissa : d.mantissa ≠ 0) :
    (shortest x d).digits ≠ 0 := by
  intro hzero
  have hread := toFloat_shortest h
  rw [Decimal.toFloat, if_pos (.inl hzero)] at hread
  have hparts : dyadic? (Dyadic.toFloat ⟨d.negative, 0, 0⟩) = some ⟨d.negative, 0, 0⟩ := by
    cases d.negative <;> rfl
  rw [hread, h] at hparts
  exact hmantissa (congrArg Dyadic.mantissa (Option.some.inj hparts))

theorem signText (negative : Bool) : SignText (if negative then ['-'] else []) negative := by
  cases negative with
  | false => exact .none
  | true => exact .minus

theorem toList_signed (negative : Bool) (cs : List Char) :
    (signed negative cs).toList = (if negative then ['-'] else []) ++ cs := by
  cases negative <;> simp [signed]

theorem fullText_numeral (h : dyadic? x = some d) (hmantissa : d.mantissa ≠ 0) :
    ∃ n, NumeralText (fullText x).toList n ∧ n.toFloat = x := by
  have hfilled := significand_filled (shortest_digits h hmantissa)
  have hall := areDigits_significand (shortest x d)
  obtain ⟨m, power, exponent, htext, hm, hpower, hvalue⟩ :=
    Significand.fullText_numeral hfilled hall
  refine ⟨⟨d.negative, m, exponent⟩, ?_, ?_⟩
  · have hfull : fullText x = signed d.negative (shortest x d).significand.fullText := by
      unfold fullText
      rw [h]
      dsimp only
      rw [if_neg hmantissa]
    rw [hfull, toList_signed, htext]
    exact .intro (signText d.negative) hm hpower
  · have hsame : (Numeral.toDecimal ⟨d.negative, m, exponent⟩).value = (shortest x d).value := by
      rw [Numeral.value_toDecimal, Numeral.size, hvalue, Decimal.value_significand]
    exact (Decimal.toFloat_eq_of_value_eq hsame d.negative).trans (toFloat_shortest h)

/-! ## The plain form -/

theorem toList_toString (k : ℤ) :
    (toString k).toList = (if k < 0 then ['-'] else []) ++ Nat.toDigits 10 k.natAbs := by
  cases k with
  | ofNat k =>
    show (Nat.repr k).toList = _
    rw [Nat.repr_eq_ofList_toDigits, String.toList_ofList, if_neg (by simp)]
    rfl
  | negSucc k =>
    show ("-" ++ Nat.repr (k + 1)).toList = _
    rw [String.toList_append, Nat.repr_eq_ofList_toDigits, String.toList_ofList,
      String.toList_ofList, if_pos (Int.negSucc_lt_zero k)]
    rfl

def Numeral.ofInt (k : ℤ) : Numeral := ⟨decide (k < 0), ⟨Nat.toDigits 10 k.natAbs, none⟩, 0⟩

theorem toString_numeral (k : ℤ) : NumeralText (toString k).toList (Numeral.ofInt k) := by
  have hmantissa : MantissaText (Nat.toDigits 10 k.natAbs) ⟨Nat.toDigits 10 k.natAbs, none⟩ :=
    .whole Nat.toDigits_ne_nil (areDigits_toDigits _)
  have htext := NumeralText.intro (signText (decide (k < 0))) hmantissa .none
  simp only [decide_eq_true_eq, List.append_nil] at htext
  rw [toList_toString]
  exact htext

theorem Numeral.size_ofInt (k : ℤ) : (Numeral.ofInt k).size = k.natAbs := by
  rw [Numeral.size, Numeral.ofInt, Mantissa.value_whole, digitsValue_toDigits, zpow_zero, mul_one]

theorem size_of_wholeNumber? {k : ℤ} (h : dyadic? x = some d) (hk : wholeNumber? x = some k) :
    d.size = k.natAbs ∧ (k ≠ 0 → d.negative = decide (k < 0)) := by
  unfold wholeNumber? at hk
  rw [h] at hk
  dsimp only at hk
  have hwhole : d.mantissa % Nat.pow 2 (-d.exponent).toNat = 0 := by
    by_contra hne
    rw [if_neg hne] at hk
    cases hk
  have hsize : d.size =
      (d.mantissa / Nat.pow 2 (-d.exponent).toNat * Nat.pow 2 d.exponent.toNat : ℕ) := by
    have hpower : ((Nat.pow 2 (-d.exponent).toNat : ℕ) : ℚ) ≠ 0 := by
      rw [Nat.pow_eq]
      positivity
    rw [Nat.cast_mul, Nat.cast_div (Nat.dvd_of_mod_eq_zero hwhole) hpower, Dyadic.size]
    push_cast [Nat.pow_eq]
    rw [two_zpow_toNat d.exponent]
    field_simp
  rw [if_pos hwhole] at hk
  -- A zero is a whole number without its sign.
  generalize d.mantissa / Nat.pow 2 (-d.exponent).toNat * Nat.pow 2 d.exponent.toNat = size at *
  cases hk
  rw [hsize]
  cases d.negative with
  | false => simp
  | true =>
    refine ⟨by simp, fun hne => ?_⟩
    rw [if_pos rfl] at hne ⊢
    exact (decide_eq_true (by omega)).symm

theorem mantissa_ne_zero (h : dyadic? x = some d) (hx : (x == 0) = false) : d.mantissa ≠ 0 := by
  intro hzero
  have hmade := eq_toFloat_of_parts h
  rw [Dyadic.toFloat, dif_neg (by omega)] at hmade
  rw [hmade] at hx
  cases hsign : d.negative <;> rw [hsign] at hx <;> cases hx

theorem plainText_zero (hx : (x == 0) = true) : plainText x = "0" := by
  rcases eq_zero_of_beq hx with rfl | rfl <;> decide

theorem plainText_numeral (hfinite : x.isFinite = true) (hx : (x == 0) = false) :
    ∃ n, NumeralText (plainText x).toList n ∧ n.toFloat = x := by
  obtain ⟨d, h⟩ := isFinite_iff_parts.mp hfinite
  have hmantissa := mantissa_ne_zero h hx
  have hfull := fullText_numeral h hmantissa
  unfold plainText
  rw [if_pos hfinite]
  cases hwhole : wholeNumber? x with
  | none => exact hfull
  | some k =>
    dsimp only
    split
    · -- The text of the whole number has the size and the sign of the double.
      obtain ⟨hsize, hsign⟩ := size_of_wholeNumber? h hwhole
      have hk : k ≠ 0 := by
        rintro rfl
        have hpower : (2 : ℚ) ^ d.exponent ≠ 0 := zpow_ne_zero _ two_ne_zero
        simp [Dyadic.size, hmantissa, hpower] at hsize
      refine ⟨_, toString_numeral k, (Numeral.rounds_iff _).mp ?_⟩
      have hrounds := rounds_self h
      rw [hsign hk, hsize] at hrounds
      rw [Numeral.size_ofInt]
      exact hrounds
    · exact hfull

/-! ## Telling the forms apart -/

theorem toString_chars (k : ℤ) {c : Char} (hc : c ∈ (toString k).toList) :
    c = '-' ∨ c.isDigit = true := by
  rw [toList_toString] at hc
  rcases List.mem_append.mp hc with hc | hc
  · split_ifs at hc
    · exact .inl (List.mem_singleton.mp hc)
    · cases hc
  · exact .inr (asciiDigit_toDigits _ c hc)

theorem Significand.exists_mark (s : Significand) : ∃ c ∈ s.fullText, c = '.' ∨ c = 'e' := by
  unfold fullText
  split_ifs
  · exact ⟨'.', by simp, .inl rfl⟩
  · exact ⟨'e', by simp [scientific_eq, powerChars], .inr rfl⟩

/-- The full form has a point or a power of ten, which the text of a whole number has not. -/
theorem fullText_ne_toString (hfinite : x.isFinite = true) (k : ℤ) : fullText x ≠ toString k := by
  obtain ⟨d, h⟩ := isFinite_iff_parts.mp hfinite
  obtain ⟨c, hc, hmark⟩ : ∃ c ∈ (if d.mantissa = 0 then ['0', '.', '0']
      else (shortest x d).significand.fullText), c = '.' ∨ c = 'e' := by
    split_ifs
    · exact ⟨'.', by simp, .inl rfl⟩
    · exact Significand.exists_mark _
  have hc : c ∈ (fullText x).toList := by
    unfold fullText
    rw [h]
    dsimp only
    rw [toList_signed]
    exact List.mem_append_right _ hc
  intro hsame
  rw [hsame] at hc
  rcases toString_chars k hc with rfl | hdigit
  · revert hmark
    decide
  · rcases hmark with rfl | rfl <;> cases hdigit

theorem toString_injective {k l : ℤ} (h : toString k = toString l) : k = l := by
  have hk := toString_numeral k
  rw [h] at hk
  have hsame := readsLongest_numeral.unique hk (toString_numeral l)
  have hsize := congrArg Numeral.size hsame
  have hsign := congrArg Numeral.negative hsame
  rw [Numeral.size_ofInt, Numeral.size_ofInt, Nat.cast_inj] at hsize
  simp only [Numeral.ofInt, decide_eq_decide] at hsign
  omega

end

end Quotation.Number
