import Quotation.Proofs.Price.Exchange

/-!
# What a line comes to

The total of a line, in plain arithmetic: a base price, then the prices of a chosen option and of its
sub-option or those of a number of units, and at the end one multiplication. The multiplier of an
option scales the line of its own parameter only, and prices that a kind of parameter does not use
make no difference.
-/

namespace Quotation

/-! ## Other prices -/

def FixedOption.withFactor (o : FixedOption) (factor : Option Float) : FixedOption :=
  { o with pricing := { o.pricing with multiplier := factor } }

def Parameter.withFactors (p : Parameter) (factor : FixedOption → Option Float) : Parameter :=
  p.repriced p.pricing (p.options.map fun o => o.withFactor (factor o))

def Parameter.withUnitPrices (p : Parameter) (unitPrice : Option Float) (step : Option StepPricing)
    (factor : Option Float) : Parameter :=
  p.repriced { basePrice := p.pricing.basePrice, unitPrice, multiplier := factor, step } p.options

def Parameter.withOptions (p : Parameter) (options : List FixedOption) : Parameter :=
  p.repriced p.pricing options

theorem findChoice_map {α β : Type} {valueOf : α → String} {valueOf' : β → String} {f : α → β}
    (h : ∀ a, valueOf' (f a) = valueOf a) (choices : List α) (chosen : Value) :
    findChoice valueOf' (choices.map f) chosen =
      (findChoice valueOf choices chosen).map (Option.map f) := by
  unfold findChoice
  rw [List.isEmpty_map]
  split
  · rfl
  · cases chosen.optionKey with
    | error e => rfl
    | ok key =>
      rw [ok_bind, List.find?_map]
      simp only [Function.comp_def, h]
      rfl

namespace Price

/-! ## The arithmetic of a line -/

def plus (sum : Float) (price : Option Float) : Float :=
  match price with
  | none => sum
  | some price => if price == 0 then sum else sum + price

def plusUnits (sum : Float) (price : Option Float) (units : Float) : Float :=
  match price with
  | none => sum
  | some price => if price == 0 then sum else sum + price * units

def plusStep (sum : Float) (step : Option StepPricing) (units : Float) : Float :=
  match step with
  | none => sum
  | some step =>
    if units > step.threshold then sum + step.stepAmount * (units - step.threshold) else sum

def times (sum : Float) (factor : Option Float) : Float :=
  match factor with
  | none => sum
  | some factor => sum * factor

/-- What a sum comes to with a chosen option: its base price, its unit price and the price of the
chosen sub-option are added, and then all of it is multiplied. -/
def choiceAmount (sum : Float) (option : FixedOption) (sub : Option SubOption) : Float :=
  let sum := plus sum option.pricing.basePrice
  let sum := plus sum option.pricing.unitPrice
  let sum := plus sum (sub.map SubOption.price)
  times sum option.pricing.multiplier

/-- What a sum comes to with a number of units: the unit price of all units and the step amount of
those above the threshold are added, and then all of it is multiplied. -/
def unitsAmount (sum : Float) (pricing : PricingRule) (units : Float) : Float :=
  let sum := plusUnits sum pricing.unitPrice units
  let sum := plusStep sum pricing.step units
  times sum pricing.multiplier

def lineAmount (p : Parameter) (value : Value) (values : FormValues) : Except ValueFault Float := do
  let base := plus 0 p.pricing.basePrice
  match p.kind with
  | .fixedOption =>
    match ← p.findOption value with
    | none => return base
    | some option =>
      let sub ← option.findSubOption (values.get p.subName)
      return choiceAmount base option sub
  | .numericValue | .derivedCalc =>
    let units := (← value.numberOrZero) * p.unitsPerQuantity.getD 1
    return unitsAmount base p.pricing units

/-- A multiplier that is absent or not zero. -/
def Effective (factor : Option Float) : Prop := ∀ x ∈ factor, (x == 0) = false

instance (factor : Option Float) : Decidable (Effective factor) :=
  inferInstanceAs (Decidable (∀ x ∈ factor, (x == 0) = false))

section

variable {line : Line} {p : Parameter} {value : Value} {values : FormValues} {symbol : String}

theorem charged_some (x : Float) : charged (some x) = if x == 0 then none else some x := by
  unfold charged
  cases hzero : x == 0 <;> simp [Option.filter, hzero]

theorem Effective.charged_eq {factor : Option Float} (h : Effective factor) :
    charged factor = factor := by
  cases factor with
  | none => rfl
  | some x => rw [charged_some, if_neg (by simp [h x rfl])]

theorem total_addCharge (line : Line) (kind : ShareKind) (price : Option Float)
    (describe : Float → String) :
    (addCharge line kind price describe).total = plus line.total price := by
  cases price with
  | none => rfl
  | some x =>
    rw [addCharge, charged_some, plus]
    cases x == 0 <;> rfl

theorem total_applyMultiplier (line : Line) {factor : Option Float} (h : Effective factor) :
    (applyMultiplier line factor).total = times line.total factor := by
  rw [applyMultiplier, h.charged_eq]
  cases factor <;> rfl

theorem total_addStep (line : Line) (step : Option StepPricing) (units : Float) (symbol : String) :
    (addStep line step units symbol).total = plusStep line.total step units := by
  cases step with
  | none => rfl
  | some step =>
    rw [addStep, plusStep]
    split
    · rename_i habove
      rw [Line.add, StepPricing.amountFor, if_pos habove]
    · rfl

theorem total_optionLine (line : Line) {option : FixedOption}
    (h : Effective option.pricing.multiplier) (sub : Option SubOption) (symbol : String) :
    (optionLine line option sub symbol).total = choiceAmount line.total option sub := by
  unfold optionLine
  rw [total_applyMultiplier _ h, choiceAmount]
  cases sub with
  | none => rw [total_addCharge, total_addCharge]; rfl
  | some sub => rw [total_addCharge, total_addCharge, total_addCharge]; rfl

theorem total_unitsLine (line : Line) (h : Effective p.pricing.multiplier) (units : Float)
    (symbol : String) :
    (unitsLine line p units symbol).total = unitsAmount line.total p.pricing units := by
  rw [unitsLine, total_applyMultiplier _ h, total_addStep, unitsAmount]
  cases p.pricing.unitPrice with
  | none => rfl
  | some x =>
    rw [charged_some, plusUnits]
    cases x == 0 <;> rfl

theorem total_baseLine (p : Parameter) (symbol : String) :
    (baseLine p symbol).total = plus 0 p.pricing.basePrice := total_addCharge ..

theorem lineAmount_of_ne (h : p.kind ≠ .fixedOption) (value : Value) (values : FormValues) :
    lineAmount p value values = do
      let number ← value.numberOrZero
      return unitsAmount (plus 0 p.pricing.basePrice) p.pricing (totalUnits p number) := by
  rw [lineAmount]
  cases hkind : p.kind with
  | fixedOption => exact absurd hkind h
  | numericValue | derivedCalc => rfl

theorem lineAmount_eq_total (hown : Effective p.pricing.multiplier)
    (hoptions : ∀ o ∈ p.options, Effective o.pricing.multiplier)
    (h : parameterLine p value values symbol = .ok line) :
    lineAmount p value values = .ok line.total := by
  obtain ⟨hkind, hfound⟩ | ⟨hkind, hfound, hsub⟩ | ⟨hkind, hnumber⟩ := parameterLine_eq_ok.mp h
  · rw [lineAmount, hkind, total_baseLine]
    exact bind_eq_ok.mpr ⟨none, hfound, rfl⟩
  · rename_i option sub
    obtain ⟨-, key, -, hfind⟩ := findChoice_eq_some.mp hfound
    have hfactor := hoptions option (List.mem_of_find?_eq_some hfind)
    rw [lineAmount, hkind, total_optionLine _ hfactor, total_baseLine]
    exact bind_eq_ok.mpr ⟨some option, hfound, bind_eq_ok.mpr ⟨sub, hsub, rfl⟩⟩
  · rw [lineAmount_of_ne hkind, total_unitsLine _ hown, total_baseLine]
    exact bind_eq_ok.mpr ⟨_, hnumber, rfl⟩

/-! ## Prices that make no difference -/

theorem findOption_withFactors (p : Parameter) (factor : FixedOption → Option Float)
    (value : Value) : (p.withFactors factor).findOption value =
      (p.findOption value).map (Option.map fun o => o.withFactor (factor o)) :=
  findChoice_map (fun _ => rfl) p.options value

/-- Multipliers are not looked at to find out whether there is a line. -/
theorem parameterLine_withFactors_total (factor : FixedOption → Option Float)
    (h : parameterLine p value values symbol = .ok line) :
    ∃ line', parameterLine (p.withFactors factor) value values symbol = .ok line' := by
  obtain ⟨hkind, hfound⟩ | ⟨hkind, hfound, hsub⟩ | ⟨hkind, hnumber⟩ := parameterLine_eq_ok.mp h
  · have hfound' : (p.withFactors factor).findOption value = .ok none := by
      rw [findOption_withFactors, hfound]
      rfl
    exact ⟨_, parameterLine_eq_ok.mpr (.unchosen hkind hfound')⟩
  · rename_i option sub
    have hfound' : (p.withFactors factor).findOption value =
        .ok (some (option.withFactor (factor option))) := by
      rw [findOption_withFactors, hfound]
      rfl
    exact ⟨_, parameterLine_eq_ok.mpr (.chosen hkind hfound' hsub)⟩
  · exact ⟨_, parameterLine_eq_ok.mpr (.units hkind hnumber)⟩

theorem pricedAlike_withUnitPrices (h : p.kind = .fixedOption) (unitPrice : Option Float)
    (step : Option StepPricing) (factor : Option Float) :
    PricedAlike p (p.withUnitPrices unitPrice step factor) := by
  refine pricedAlike_repriced fun value values symbol => ?_
  simp only [parameterLine, Parameter.repriced, h]
  rfl

theorem pricedAlike_withOptions (h : p.kind ≠ .fixedOption) (options : List FixedOption) :
    PricedAlike p (p.withOptions options) := by
  refine pricedAlike_repriced fun value values symbol => ?_
  have hkind : (p.repriced p.pricing options).kind ≠ .fixedOption := h
  rw [parameterLine_of_ne h, parameterLine_of_ne hkind]
  rfl

end

/-- The line of a parameter comes to the amount of plain arithmetic. Whatever the multipliers of its
options are, the other lines of a quote stay as they are. A choice may have any unit price, step
pricing and multiplier of its own, and a number any options. -/
theorem line_comes_to_its_amount {p : Parameter} {value : Value} {values : FormValues}
    {symbol : String} {line : Line} (hown : Effective p.pricing.multiplier)
    (hoptions : ∀ o ∈ p.options, Effective o.pricing.multiplier)
    (h : parameterLine p value values symbol = .ok line) :
    lineAmount p value values = .ok line.total ∧
      (∀ factor xs ys v currency q, priceForm (xs ++ p :: ys) v currency = .ok q →
        ∃ r, priceForm (xs ++ p.withFactors factor :: ys) v currency = .ok r ∧
          SwapsOwnLine currency.symbol xs p (p.withFactors factor) ys q r) ∧
      (p.kind = .fixedOption → ∀ unitPrice step factor,
        PricedAlike p (p.withUnitPrices unitPrice step factor)) ∧
      (p.kind ≠ .fixedOption → ∀ options, PricedAlike p (p.withOptions options)) := by
  refine ⟨lineAmount_eq_total hown hoptions h, fun factor xs ys v currency q hq => ?_,
    pricedAlike_withUnitPrices, pricedAlike_withOptions⟩
  exact priceForm_repriced hq fun value line => parameterLine_withFactors_total factor

def cover : Parameter where
  id := "cover"
  name := "cover"
  kind := .fixedOption
  pricing := { basePrice := some 2, unitPrice := some 100, multiplier := some 9 }
  options := [
    { label := "Soft", value := "soft", pricing := { multiplier := some (-4) } },
    { label := "Hard", value := "hard",
      pricing := { basePrice := some 10, unitPrice := some 5, multiplier := some 2 },
      subOptions := [{ id := "foil", label := "Foil", value := "foil", price := 1 }] }]

def coverAnswers : FormValues := ⟨[⟨"cover", "hard"⟩, ⟨"cover_suboption", "foil"⟩]⟩

theorem cover_comes_to_its_amount : ∃ line, parameterLine cover "hard" coverAnswers "$" = .ok line ∧
    (line.total == 36) = true ∧ lineAmount cover "hard" coverAnswers = .ok line.total ∧
    PricedAlike cover (cover.withUnitPrices none (some ⟨0, 50⟩) (some 3)) := by
  have htotal : (parameterLine cover "hard" coverAnswers "$").toOption.any (·.total == 36) = true := by
    decide +kernel
  have hown : Effective cover.pricing.multiplier := by decide
  have hoptions : ∀ o ∈ cover.options, Effective o.pricing.multiplier := by decide
  obtain ⟨line, hline, hsum⟩ := ok_of_any htotal
  obtain ⟨hamount, -, hchoice, -⟩ := line_comes_to_its_amount hown hoptions hline
  exact ⟨line, hline, hsum, hamount, hchoice rfl none (some ⟨0, 50⟩) (some 3)⟩

end Price

end Quotation
