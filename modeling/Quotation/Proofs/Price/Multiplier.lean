import Quotation.Proofs.Price.Amount

/-!
# What a multiplier does

A multiplier scales the line that the other prices come to, unless it is zero. One of zero is passed
over, as if it were not there.
-/

namespace Quotation

variable {α : Type}

theorem find?_modify_findIdx (test : α → Bool) (f : α → α) (h : ∀ a, test (f a) = test a)
    (as : List α) : (as.modify (as.findIdx test) f).find? test = (as.find? test).map f := by
  induction as with
  | nil => rfl
  | cons a as ih =>
    rw [List.findIdx_cons, List.find?_cons]
    cases ha : test a with
    | true => simp [h, ha]
    | false => simpa [ha] using ih

/-- A parameter without the multiplier of the prices that apply to a value: that of the chosen option,
if the parameter is a choice, and its own otherwise. -/
def Parameter.withoutFactor (p : Parameter) (value : Value) : Except ValueFault Parameter := do
  match p.kind with
  | .fixedOption =>
    let key ← value.optionKey
    let chosen := p.options.findIdx (·.value == key)
    return p.withOptions (p.options.modify chosen fun o => o.withFactor none)
  | .numericValue | .derivedCalc =>
    return p.withUnitPrices p.pricing.unitPrice p.pricing.step none

namespace Price

variable {p : Parameter} {value : Value} {values : FormValues} {symbol : String} {line : Line}
  {rule : PricingRule} {m : Float}

/-! ## The line without the multiplier -/

theorem optionLine_eq_multiplied (line : Line) (option : FixedOption) (sub : Option SubOption)
    (symbol : String) : optionLine line option sub symbol =
      applyMultiplier (optionLine line (option.withFactor none) sub symbol)
        option.pricing.multiplier := rfl

theorem unitsLine_eq_multiplied (line : Line) (p : Parameter) (units : Float) (symbol : String) :
    unitsLine line p units symbol =
      applyMultiplier (unitsLine line (p.withUnitPrices p.pricing.unitPrice p.pricing.step none)
        units symbol) p.pricing.multiplier := rfl

theorem withoutFactor_of_ne (h : p.kind ≠ .fixedOption) (value : Value) :
    p.withoutFactor value = .ok (p.withUnitPrices p.pricing.unitPrice p.pricing.step none) := by
  rw [Parameter.withoutFactor]
  cases hkind : p.kind with
  | fixedOption => exact absurd hkind h
  | numericValue | derivedCalc => rfl

theorem findOption_withoutFactor (hkind : p.kind = .fixedOption) {option : FixedOption}
    (h : p.findOption value = .ok (some option)) :
    ∃ plain, p.withoutFactor value = .ok plain ∧ plain.kind = .fixedOption ∧
      plain.pricing = p.pricing ∧ plain.name = p.name ∧
      plain.findOption value = .ok (some (option.withFactor none)) := by
  obtain ⟨hblank, key, hkey, hfind⟩ := findChoice_eq_some.mp h
  rw [Parameter.withoutFactor, hkind]
  refine ⟨_, bind_eq_ok.mpr ⟨key, hkey, rfl⟩, hkind, rfl, rfl, ?_⟩
  refine findChoice_eq_some.mpr ⟨hblank, key, hkey, ?_⟩
  exact (find?_modify_findIdx (·.value == key) (·.withFactor none) (fun _ => rfl) p.options).trans
    (congrArg _ hfind)

/-- The prices that apply to a value are there without their multiplier, and the line is the one that
they come to, multiplied. -/
theorem parameterLine_eq_multiplied (hrule : appliedRule p value = .ok (some rule))
    (h : parameterLine p value values symbol = .ok line) :
    ∃ plain bare, p.withoutFactor value = .ok plain ∧
      appliedRule plain value = .ok (some { rule with multiplier := none }) ∧
      parameterLine plain value values symbol = .ok bare ∧
      line = applyMultiplier bare rule.multiplier := by
  obtain ⟨hkind, hfound⟩ | ⟨hkind, hfound, hsub⟩ | ⟨hkind, hnumber⟩ := parameterLine_eq_ok.mp h
  · -- Without a chosen option no prices apply.
    rw [appliedRule_of_findOption hkind hfound] at hrule
    cases hrule
  · rename_i option sub
    rw [appliedRule_of_findOption hkind hfound] at hrule
    cases hrule
    obtain ⟨plain, hplain, hkind', hpricing, hname, hfound'⟩ := findOption_withoutFactor hkind hfound
    have hbase : baseLine plain symbol = baseLine p symbol := by rw [baseLine, hpricing, baseLine]
    have hsub' : (option.withFactor none).findSubOption (values.get plain.subName) = .ok sub := by
      rw [Parameter.subName, hname]
      exact hsub
    refine ⟨plain, _, hplain, appliedRule_of_findOption hkind' hfound',
      parameterLine_eq_ok.mpr (.chosen hkind' hfound' hsub'), ?_⟩
    rw [hbase]
    exact optionLine_eq_multiplied _ option sub symbol
  · rw [appliedRule_of_ne hkind] at hrule
    cases hrule
    have hkind' : (p.withUnitPrices p.pricing.unitPrice p.pricing.step none).kind ≠ .fixedOption :=
      hkind
    refine ⟨_, _, withoutFactor_of_ne hkind value, appliedRule_of_ne hkind' value,
      parameterLine_eq_ok.mpr (.units hkind' hnumber), unitsLine_eq_multiplied _ p _ symbol⟩

/-! ## The total -/

theorem applyMultiplier_of_zero (line : Line) (hm : (m == 0) = true) :
    applyMultiplier line (some m) = line := by
  rw [applyMultiplier, charged_some, if_pos hm]

theorem total_applyMultiplier_iff (line : Line) (m : Float) :
    (applyMultiplier line (some m)).total = line.total * m ↔
      (m == 0) = false ∨ line.total * m = line.total := by
  cases hm : m == 0 with
  | true => simp [applyMultiplier_of_zero line hm, eq_comm]
  | false =>
    have heffective : Effective (some m) := by rintro x ⟨⟩; exact hm
    simp [total_applyMultiplier line heffective, times]

/-- A multiplier scales the line of its parameter just if it is not zero, or if the line is one that
zero scales to itself. One of zero makes no difference. -/
theorem multiplier_scales_unless_zero (hrule : appliedRule p value = .ok (some rule))
    (hm : rule.multiplier = some m) (h : parameterLine p value values symbol = .ok line) :
    ∃ plain bare, p.withoutFactor value = .ok plain ∧
      appliedRule plain value = .ok (some { rule with multiplier := none }) ∧
      parameterLine plain value values symbol = .ok bare ∧
      (line.total = bare.total * m ↔ (m == 0) = false ∨ bare.total * m = bare.total) ∧
      ((m == 0) = true → line = bare) := by
  obtain ⟨plain, bare, hplain, hbare, hline, rfl⟩ := parameterLine_eq_multiplied hrule h
  rw [hm]
  exact ⟨plain, bare, hplain, hbare, hline, total_applyMultiplier_iff bare m,
    applyMultiplier_of_zero bare⟩

theorem hard_cover_is_scaled : ∃ line plain bare,
    parameterLine cover "hard" coverAnswers "$" = .ok line ∧
    cover.withoutFactor "hard" = .ok plain ∧
    parameterLine plain "hard" coverAnswers "$" = .ok bare ∧
    (line.total == 36) = true ∧ line.total = bare.total * 2 := by
  have htotal : (parameterLine cover "hard" coverAnswers "$").toOption.any (·.total == 36) = true := by
    decide +kernel
  obtain ⟨line, hline, hsum⟩ := ok_of_any htotal
  have hrule : appliedRule cover "hard" =
      .ok (some { basePrice := some 10, unitPrice := some 5, multiplier := some 2 }) := rfl
  obtain ⟨plain, bare, hplain, -, hbare, hscaled, -⟩ :=
    multiplier_scales_unless_zero hrule rfl hline
  exact ⟨line, plain, bare, hline, hplain, hbare, hsum, hscaled.mpr (.inl (by decide))⟩

def freePages : Parameter where
  id := "pages"
  name := "pages"
  kind := .numericValue
  pricing := { basePrice := some 10, multiplier := some 0 }

theorem free_pages_are_charged : ∃ plain line bare,
    freePages.withoutFactor "1" = .ok plain ∧
    parameterLine freePages "1" ⟨[]⟩ "$" = .ok line ∧ parameterLine plain "1" ⟨[]⟩ "$" = .ok bare ∧
    freePages.pricing.multiplier = some 0 ∧ line.total ≠ bare.total * 0 := by
  refine ⟨_, _, _, rfl, rfl, rfl, rfl, ?_⟩
  decide

end Price

end Quotation
