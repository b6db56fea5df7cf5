import Quotation.Number.Numeral
import Quotation.Proofs.Number.Decimal
import Quotation.Proofs.Text.Longest

/-!
# The grammar of numerals

How a numeral is written, what it is worth, and that a numeral is read from the front of a text as
the longest one there is. A sign without digits, a point without digits on either side and a letter
without digits after it belong to no numeral.
-/

namespace Quotation.Number

open Text

/-! ## Grammar -/

def AreDigits (cs : List Char) : Prop := ∀ c ∈ cs, isDigit c = true

inductive SignText : List Char → Bool → Prop where
  | none : SignText [] false
  | plus : SignText ['+'] false
  | minus : SignText ['-'] true

inductive MantissaText : List Char → Mantissa → Prop where
  | whole {digits} (filled : digits ≠ []) (all : AreDigits digits) :
    MantissaText digits ⟨digits, none⟩
  | pointed {digits fraction} (filled : digits ≠ []) (all : AreDigits digits)
      (after : AreDigits fraction) :
    MantissaText (digits ++ '.' :: fraction) ⟨digits, some fraction⟩
  | fraction {fraction} (filled : fraction ≠ []) (all : AreDigits fraction) :
    MantissaText ('.' :: fraction) ⟨[], some fraction⟩

inductive ExponentText : List Char → Int → Prop where
  | none : ExponentText [] 0
  | power {letter sign digits negative} (letter_e : letter = 'e' ∨ letter = 'E')
      (signed : SignText sign negative) (filled : digits ≠ []) (all : AreDigits digits) :
    ExponentText (letter :: (sign ++ digits))
      (if negative then -(digitsValue digits : Int) else digitsValue digits)

inductive NumeralText : List Char → Numeral → Prop where
  | intro {sign digits power negative mantissa exponent} (signed : SignText sign negative)
      (number : MantissaText digits mantissa) (scaled : ExponentText power exponent) :
    NumeralText (sign ++ (digits ++ power)) ⟨negative, mantissa, exponent⟩

/-! ## Values -/

/-- The digits after the point count as a fraction of a power of ten. -/
def Mantissa.value (m : Mantissa) : ℚ :=
  digitsValue m.whole + digitsValue (m.fraction.getD []) / 10 ^ (m.fraction.getD []).length

def Numeral.size (n : Numeral) : ℚ := n.mantissa.value * 10 ^ n.exponent

theorem digitsValue_append (front back : List Char) :
    digitsValue (front ++ back) = digitsValue front * 10 ^ back.length + digitsValue back := by
  induction back using List.reverseRecOn with
  | nil => simp [digitsValue]
  | append_singleton back c ih =>
    have hlast (cs : List Char) :
        digitsValue (cs ++ [c]) = 10 * digitsValue cs + (digitValue? c).getD 0 := by
      simp [digitsValue]
    rw [← List.append_assoc, hlast, hlast, ih, List.length_append, List.length_singleton, pow_succ]
    ring

theorem Mantissa.value_toDecimal (m : Mantissa) : m.toDecimal.value = m.value := by
  unfold Mantissa.toDecimal Decimal.value Mantissa.value
  dsimp only
  rw [digitsValue_append, zpow_neg, zpow_natCast]
  push_cast
  field_simp

theorem Numeral.value_toDecimal (n : Numeral) : n.toDecimal.value = n.size := by
  have hten : (10 : ℚ) ≠ 0 := by norm_num
  rw [Numeral.size, ← n.mantissa.value_toDecimal]
  unfold Numeral.toDecimal Decimal.value
  rw [zpow_add₀ hten, mul_assoc]

theorem Numeral.size_nonneg (n : Numeral) : 0 ≤ n.size :=
  n.value_toDecimal ▸ n.toDecimal.value_nonneg

theorem Numeral.toFloat_rounds (n : Numeral) : Rounds n.negative n.size n.toFloat :=
  n.value_toDecimal ▸ n.toDecimal.toFloat_rounds n.negative

theorem Numeral.rounds_iff (n : Numeral) {x : Float} :
    Rounds n.negative n.size x ↔ n.toFloat = x :=
  ⟨n.toFloat_rounds.unique n.size_nonneg, fun h => h ▸ n.toFloat_rounds⟩

/-! ## Digits -/

def EndsDigits (cs : List Char) : Prop := ∀ c ∈ cs.head?, isDigit c = false

theorem areDigits_scanDigits (cs : List Char) : AreDigits (scanDigits cs).1 :=
  fun _ hc => List.mem_takeWhile_imp hc

theorem scanDigits_append (cs : List Char) : (scanDigits cs).1 ++ (scanDigits cs).2 = cs :=
  List.takeWhile_append_dropWhile

theorem scanDigits_of_areDigits {digits : List Char} (h : AreDigits digits) (back : List Char) :
    scanDigits (digits ++ back) = (digits ++ (scanDigits back).1, (scanDigits back).2) :=
  Prod.ext (List.takeWhile_append_of_pos h) (List.dropWhile_append_of_pos h)

theorem scanDigits_of_endsDigits {cs : List Char} (h : EndsDigits cs) : scanDigits cs = ([], cs) := by
  cases cs with
  | nil => rfl
  | cons c cs =>
    have hc : isDigit c = false := h c rfl
    simp [scanDigits, hc]

theorem endsDigits_cons {c : Char} (h : isDigit c = false) (cs : List Char) :
    EndsDigits (c :: cs) := by
  intro d hd
  cases hd
  exact h

/-! ## Mantissas -/

theorem MantissaText.eq_chars {text : List Char} {m : Mantissa} (h : MantissaText text m) :
    text = m.chars := by
  cases h <;> simp [Mantissa.chars]

theorem mantissa_sound {cs rest : List Char} {m : Mantissa}
    (h : Mantissa.scan? cs = some (m, rest)) : MantissaText m.chars m ∧ cs = m.chars ++ rest := by
  have hall := areDigits_scanDigits cs
  have hsplit := scanDigits_append cs
  unfold Mantissa.scan? at h
  generalize scanDigits cs = scanned at *
  obtain ⟨whole, after⟩ := scanned
  dsimp only at *
  split at h
  · rename_i afterPoint
    have hall' := areDigits_scanDigits afterPoint
    have hsplit' := scanDigits_append afterPoint
    generalize scanDigits afterPoint = scanned at *
    obtain ⟨fraction, rest'⟩ := scanned
    split_ifs at h with hempty
    cases h
    refine ⟨?_, by simp [Mantissa.chars, ← hsplit, ← hsplit']⟩
    by_cases hwhole : whole = []
    · subst hwhole
      exact .fraction (by simpa using hempty) hall'
    · exact .pointed hwhole hall hall'
  · split_ifs at h with hempty
    cases h
    have hwhole : whole ≠ [] := by simpa using hempty
    have hchars : Mantissa.chars ⟨whole, none⟩ = whole := List.append_nil whole
    rw [hchars]
    exact ⟨.whole hwhole hall, hsplit.symm⟩

theorem endsDigits_point (cs : List Char) : EndsDigits ('.' :: cs) :=
  endsDigits_cons (by decide) cs

section

variable {cs whole after rest text back : List Char} {m : Mantissa}

theorem scan?_pointed (h : scanDigits cs = (whole, '.' :: after))
    (hfilled : whole ≠ [] ∨ (scanDigits after).1 ≠ []) :
    Mantissa.scan? cs =
      some (⟨whole, some (scanDigits after).1⟩, (scanDigits after).2) := by
  unfold Mantissa.scan?
  rw [h]
  refine if_neg ?_
  simpa [imp_iff_not_or] using hfilled

theorem scan?_whole (h : scanDigits cs = (whole, rest)) (hfilled : whole ≠ [])
    (hrest : ∀ after, rest ≠ '.' :: after) : Mantissa.scan? cs = some (⟨whole, none⟩, rest) := by
  unfold Mantissa.scan?
  rw [h]
  dsimp only
  split
  · exact absurd rfl (hrest _)
  · exact if_neg (by simpa using hfilled)

theorem scanDigits_digits_point (h : AreDigits whole) (after : List Char) :
    scanDigits (whole ++ '.' :: after) = (whole, '.' :: after) := by
  rw [scanDigits_of_areDigits h, scanDigits_of_endsDigits (endsDigits_point after), List.append_nil]

/-- What is read of a text with a mantissa at its front starts with that mantissa. -/
theorem mantissa_covers (h : MantissaText text m) (back : List Char) :
    ∃ longer rest, Mantissa.scan? (text ++ back) = some (longer, rest) ∧ text <+: longer.chars := by
  cases h with
  | whole filled all =>
    have hdigits := scanDigits_of_areDigits all back
    have hfilled : text ++ (scanDigits back).1 ≠ [] := List.append_ne_nil_of_left_ne_nil filled _
    -- The digits may go on, and a point may follow them.
    by_cases hpoint : ∃ after, (scanDigits back).2 = '.' :: after
    · obtain ⟨after, hafter⟩ := hpoint
      rw [hafter] at hdigits
      refine ⟨_, _, scan?_pointed hdigits (.inl hfilled), ?_⟩
      rw [Mantissa.chars, List.append_assoc]
      exact List.prefix_append ..
    · refine ⟨_, _, scan?_whole hdigits hfilled fun after h => hpoint ⟨after, h⟩, ?_⟩
      rw [Mantissa.chars, List.append_assoc]
      exact List.prefix_append ..
  | @pointed digits fraction filled all after =>
    rw [List.append_assoc, List.cons_append]
    refine ⟨_, _, scan?_pointed (scanDigits_digits_point all _) (.inl filled), ?_⟩
    simp [Mantissa.chars, scanDigits_of_areDigits after]
  | @fraction fraction filled all =>
    have hdigits := scanDigits_of_areDigits all back
    rw [List.cons_append]
    refine ⟨_, _, scan?_pointed (scanDigits_of_endsDigits (endsDigits_point _)) (.inr ?_), ?_⟩
    · rw [hdigits]
      exact List.append_ne_nil_of_left_ne_nil filled _
    · simp [Mantissa.chars, hdigits]

/-- Just the mantissa is read if what follows does not go on with it. -/
theorem mantissa_exact (h : MantissaText text m) (hends : EndsDigits back)
    (hpoint : m.fraction = none → ∀ after, back ≠ '.' :: after) :
    Mantissa.scan? (text ++ back) = some (m, back) := by
  have hback := scanDigits_of_endsDigits hends
  cases h with
  | whole filled all =>
    have hdigits := scanDigits_of_areDigits all back
    rw [hback, List.append_nil] at hdigits
    exact scan?_whole hdigits filled (hpoint rfl)
  | @pointed digits fraction filled all after =>
    have hdigits := scanDigits_of_areDigits after back
    rw [hback, List.append_nil] at hdigits
    rw [List.append_assoc, List.cons_append,
      scan?_pointed (scanDigits_digits_point all _) (.inl filled), hdigits]
  | @fraction fraction filled all =>
    have hdigits := scanDigits_of_areDigits all back
    rw [hback, List.append_nil] at hdigits
    rw [List.cons_append, scan?_pointed (scanDigits_of_endsDigits (endsDigits_point _)) (.inr ?_),
      hdigits]
    rwa [hdigits]

theorem endsDigits_nil : EndsDigits [] := by
  intro c hc
  cases hc

theorem readsLongest_mantissa : ReadsLongest MantissaText Mantissa.scan? where
  sound h := ⟨_, mantissa_sound h⟩
  covers back h := by
    obtain ⟨longer, rest, hread, hstarts⟩ := mantissa_covers h back
    exact ⟨longer.chars, longer, rest, hread, (mantissa_sound hread).2, hstarts.length_le⟩
  exact h := by
    have hread := mantissa_exact h endsDigits_nil nofun
    rwa [List.append_nil] at hread

end

/-! ## Signs and exponents -/

theorem scanSign_sound (cs : List Char) :
    ∃ sign, SignText sign (scanSign cs).1 ∧ cs = sign ++ (scanSign cs).2 := by
  fun_cases scanSign cs with
  | case1 rest => exact ⟨['-'], .minus, rfl⟩
  | case2 rest => exact ⟨['+'], .plus, rfl⟩
  | case3 => exact ⟨[], .none, rfl⟩

def StartsMantissa (cs : List Char) : Prop := ∃ c ∈ cs.head?, isDigit c = true ∨ c = '.'

theorem scanSign_exact {sign back : List Char} {negative : Bool} (h : SignText sign negative)
    (hback : StartsMantissa back) : scanSign (sign ++ back) = (negative, back) := by
  obtain ⟨c, hc, hstart⟩ := hback
  cases h with
  | plus => rfl
  | minus => rfl
  | none =>
    cases back with
    | nil => cases hc
    | cons d back =>
      cases hc
      have hne : c ≠ '-' ∧ c ≠ '+' := by
        constructor <;>
        · rintro rfl
          exact absurd hstart (by decide)
      simp [scanSign, hne]

theorem startsMantissa_digits {digits : List Char} (filled : digits ≠ []) (all : AreDigits digits)
    (back : List Char) : StartsMantissa (digits ++ back) := by
  obtain ⟨c, cs, rfl⟩ := List.exists_cons_of_ne_nil filled
  exact ⟨c, rfl, .inl (all c (List.mem_cons_self ..))⟩

theorem MantissaText.starts {text : List Char} {m : Mantissa} (h : MantissaText text m)
    (back : List Char) : StartsMantissa (text ++ back) := by
  cases h with
  | whole filled all => exact startsMantissa_digits filled all back
  | pointed filled all after =>
    rw [List.append_assoc]
    exact startsMantissa_digits filled all _
  | fraction => exact ⟨'.', rfl, .inr rfl⟩

theorem scanExponent_sound (cs : List Char) :
    ∃ power, ExponentText power (scanExponent cs).1 ∧ cs = power ++ (scanExponent cs).2 := by
  fun_cases scanExponent cs with
  | case1 letter afterLetter hletter negative afterSign hsigned digits rest hscanned hempty =>
    exact ⟨[], .none, rfl⟩
  | case2 letter afterLetter hletter negative afterSign hsigned digits rest hscanned hempty =>
    obtain ⟨sign, hsign, hafter⟩ := scanSign_sound afterLetter
    have hall := areDigits_scanDigits afterSign
    have hsplit := scanDigits_append afterSign
    rw [hsigned] at hsign hafter
    rw [hscanned] at hall hsplit
    exact ⟨_, .power hletter hsign (by simpa using hempty) hall, by simp [hafter, ← hsplit]⟩
  | case3 => exact ⟨[], .none, rfl⟩
  | case4 => exact ⟨[], .none, rfl⟩

theorem scanExponent_power {letter : Char} {sign digits : List Char} {negative : Bool}
    (hletter : letter = 'e' ∨ letter = 'E') (hsign : SignText sign negative)
    (filled : digits ≠ []) (all : AreDigits digits) (back : List Char) :
    scanExponent (letter :: (sign ++ digits) ++ back) =
      (if negative then -(digitsValue (digits ++ (scanDigits back).1) : Int)
        else digitsValue (digits ++ (scanDigits back).1), (scanDigits back).2) := by
  have hsigned := scanSign_exact hsign (startsMantissa_digits filled all back)
  have hfilled : ¬ (digits ++ (scanDigits back).1).isEmpty = true := by simp [filled]
  rw [List.cons_append, List.append_assoc]
  unfold scanExponent
  dsimp only
  rw [if_pos hletter, hsigned]
  dsimp only
  rw [scanDigits_of_areDigits all, if_neg hfilled]

theorem scanExponent_covers {power : List Char} {exponent : Int}
    (h : ExponentText power exponent) (back : List Char) :
    (scanExponent (power ++ back)).2.length ≤ back.length := by
  cases h with
  | none =>
    obtain ⟨power, -, hsplit⟩ := scanExponent_sound back
    have hlength := congrArg List.length hsplit
    rw [List.length_append] at hlength
    rw [List.nil_append]
    omega
  | power hletter hsign filled all =>
    rw [scanExponent_power hletter hsign filled all]
    exact (List.dropWhile_suffix _).length_le

theorem scanExponent_exact {power : List Char} {exponent : Int}
    (h : ExponentText power exponent) : scanExponent power = (exponent, []) := by
  cases h with
  | none => rfl
  | @power letter sign digits negative hletter hsign filled all =>
    have hread := scanExponent_power hletter hsign filled all []
    rw [List.append_nil] at hread
    rw [hread]
    simp [scanDigits]

/-! ## Numerals -/

theorem ExponentText.head {power : List Char} {exponent : Int} (h : ExponentText power exponent)
    {c : Char} (hc : c ∈ power.head?) : isDigit c = false ∧ c ≠ '.' := by
  cases h with
  | none => cases hc
  | power hletter =>
    cases hc
    rcases hletter with rfl | rfl <;> decide

theorem numeral_sound {cs rest : List Char} {n : Numeral} (h : Numeral.scan? cs = some (n, rest)) :
    ∃ text, NumeralText text n ∧ cs = text ++ rest := by
  obtain ⟨sign, hsign, hcs⟩ := scanSign_sound cs
  unfold Numeral.scan? at h
  generalize scanSign cs = signed at *
  obtain ⟨negative, afterSign⟩ := signed
  dsimp only at *
  split at h
  · cases h
  · rename_i mantissa afterMantissa hmantissa
    obtain ⟨hform, hsplit⟩ := mantissa_sound hmantissa
    obtain ⟨power, hpower, hafter⟩ := scanExponent_sound afterMantissa
    cases h
    refine ⟨_, .intro hsign hform hpower, ?_⟩
    rw [List.append_assoc, List.append_assoc, ← hafter, ← hsplit, ← hcs]

theorem numeral_scan {cs afterSign afterMantissa : List Char} {negative : Bool} {m : Mantissa}
    (hsign : scanSign cs = (negative, afterSign))
    (hmantissa : Mantissa.scan? afterSign = some (m, afterMantissa)) :
    Numeral.scan? cs = some (⟨negative, m, (scanExponent afterMantissa).1⟩,
      (scanExponent afterMantissa).2) := by
  unfold Numeral.scan?
  rw [hsign]
  dsimp only
  rw [hmantissa]

theorem MantissaText.mem {text : List Char} {m : Mantissa} (h : MantissaText text m) {c : Char}
    (hc : c ∈ text) : isDigit c = true ∨ c = '.' := by
  cases h with
  | whole filled all => exact .inl (all c hc)
  | pointed filled all after =>
    rcases List.mem_append.mp hc with hc | hc
    · exact .inl (all c hc)
    · rcases List.mem_cons.mp hc with hc | hc
      · exact .inr hc
      · exact .inl (after c hc)
  | fraction filled all =>
    rcases List.mem_cons.mp hc with hc | hc
    · exact .inr hc
    · exact .inl (all c hc)

theorem NumeralText.starts {text : List Char} {n : Numeral} (h : NumeralText text n) :
    ∃ c ∈ text.head?, c = '+' ∨ c = '-' ∨ c = '.' ∨ isDigit c = true := by
  cases h with
  | @intro sign digits power negative mantissa exponent signed number scaled =>
    cases signed with
    | none =>
      obtain ⟨c, hc, hstart⟩ := number.starts power
      exact ⟨c, hc, .inr (.inr hstart.symm)⟩
    | plus => exact ⟨'+', rfl, .inl rfl⟩
    | minus => exact ⟨'-', rfl, .inr (.inl rfl)⟩

/-- A longer mantissa does not reach into the exponent. -/
theorem ExponentText.not_reached {power more rest back : List Char} {exponent : Int}
    (h : ExponentText power exponent) (hmore : ∀ c ∈ more, isDigit c = true ∨ c = '.')
    (hsplit : power ++ back = more ++ rest) : power = [] ∨ more = [] := by
  cases power with
  | nil => exact .inl rfl
  | cons letter power =>
    cases more with
    | nil => exact .inr rfl
    | cons c more =>
      obtain ⟨hdigit, hpoint⟩ := h.head rfl
      cases (List.cons.inj hsplit).1
      exact absurd (hmore letter (List.mem_cons_self ..)) (by simp [hdigit, hpoint])

theorem scanExponent_length_le (cs : List Char) : (scanExponent cs).2.length ≤ cs.length :=
  scanExponent_covers .none cs

theorem numeral_covers {text : List Char} {n : Numeral} (h : NumeralText text n)
    (back : List Char) : ∃ longer m rest, Numeral.scan? (text ++ back) = some (m, rest) ∧
      text ++ back = longer ++ rest ∧ text.length ≤ longer.length := by
  cases h with
  | @intro sign digits power negative mantissa exponent hsign hmantissa hpower =>
    obtain ⟨longer, rest, hread, more, hlonger⟩ := mantissa_covers hmantissa (power ++ back)
    obtain ⟨hform, hsplit⟩ := mantissa_sound hread
    rw [← hlonger, List.append_assoc, List.append_cancel_left_eq] at hsplit
    -- What is read beyond the mantissa is the exponent, or goes past the numeral.
    have hmore : ∀ c ∈ more, isDigit c = true ∨ c = '.' := fun c hc =>
      hform.mem (hlonger ▸ List.mem_append_right digits hc)
    have hleft : (scanExponent rest).2.length ≤ back.length := by
      rcases hpower.not_reached hmore hsplit with rfl | rfl
      · have hback := congrArg List.length hsplit
        have hrest := scanExponent_length_le rest
        simp only [List.nil_append, List.length_append] at hback
        omega
      · rw [List.nil_append] at hsplit
        rw [← hsplit]
        exact scanExponent_covers hpower back
    have hscan := numeral_scan (scanSign_exact hsign (hmantissa.starts (power ++ back))) hread
    rw [← List.append_assoc digits, ← List.append_assoc sign] at hscan
    obtain ⟨text, -, htext⟩ := numeral_sound hscan
    have hlength := congrArg List.length htext
    refine ⟨text, _, _, hscan, htext, ?_⟩
    simp only [List.length_append] at hlength ⊢
    omega

theorem endsDigits_exponent {power : List Char} {exponent : Int}
    (h : ExponentText power exponent) : EndsDigits power := fun _ hc => (h.head hc).1

theorem numeral_exact {text : List Char} {n : Numeral} (h : NumeralText text n) :
    Numeral.scan? text = some (n, []) := by
  cases h with
  | @intro sign digits power negative mantissa exponent hsign hmantissa hpower =>
    have hpoint : ∀ after, power ≠ '.' :: after := by
      rintro after rfl
      exact (hpower.head rfl).2 rfl
    have hread := mantissa_exact hmantissa (endsDigits_exponent hpower) fun _ => hpoint
    rw [numeral_scan (scanSign_exact hsign (hmantissa.starts power)) hread,
      scanExponent_exact hpower]

theorem readsLongest_numeral : ReadsLongest NumeralText Numeral.scan? where
  sound := numeral_sound
  covers := fun back h => numeral_covers h back
  exact := numeral_exact

end Quotation.Number
