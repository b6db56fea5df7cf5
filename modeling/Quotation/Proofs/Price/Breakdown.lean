import Quotation.Price.Quote
import Quotation.Proofs.Except

/-!
# How a quote comes to its price

The shares of a line are charges, each with an amount, and behind them at most one multiplier. The
charges add up to the line, scaled by the multiplier of the prices that apply. The lines of a quote
come from shown parameters that hold a value, in schema order, and add up to the price of one item.
-/

namespace Quotation.Price

/-! ## The cases of a line -/

def baseLine (p : Parameter) (symbol : String) : Line :=
  addCharge {} .base p.pricing.basePrice fun x => "Base: " ++ money symbol x ++ " per item"

inductive LineOf (p : Parameter) (value : Value) (values : FormValues) (symbol : String) :
    Line → Prop
  | unchosen (kind : p.kind = .fixedOption) (found : p.findOption value = .ok none) :
    LineOf p value values symbol (baseLine p symbol)
  | chosen {option : FixedOption} {sub : Option SubOption} (kind : p.kind = .fixedOption)
      (found : p.findOption value = .ok (some option))
      (foundSub : option.findSubOption (values.get p.subName) = .ok sub) :
    LineOf p value values symbol (optionLine (baseLine p symbol) option sub symbol)
  | units {number : Float} (kind : p.kind ≠ .fixedOption)
      (read : value.numberOrZero = .ok number) :
    LineOf p value values symbol (unitsLine (baseLine p symbol) p (totalUnits p number) symbol)

theorem parameterLine_of_ne {p : Parameter} (h : p.kind ≠ .fixedOption) (value : Value)
    (values : FormValues) (symbol : String) : parameterLine p value values symbol = do
      return unitsLine (baseLine p symbol) p (totalUnits p (← value.numberOrZero)) symbol := by
  rw [parameterLine]
  cases hkind : p.kind with
  | fixedOption => exact absurd hkind h
  | numericValue | derivedCalc => rfl

theorem parameterLine_eq_ok {p : Parameter} {value : Value} {values : FormValues} {symbol : String}
    {line : Line} :
    parameterLine p value values symbol = .ok line ↔ LineOf p value values symbol line := by
  constructor
  · intro h
    by_cases hkind : p.kind = .fixedOption
    · rw [parameterLine, hkind] at h
      obtain ⟨found, hfound, h⟩ := bind_eq_ok.mp h
      cases found with
      | none =>
        cases h
        exact .unchosen hkind hfound
      | some option =>
        obtain ⟨sub, hsub, h⟩ := bind_eq_ok.mp h
        cases h
        exact .chosen hkind hfound hsub
    · rw [parameterLine_of_ne hkind] at h
      obtain ⟨number, hnumber, h⟩ := bind_eq_ok.mp h
      cases h
      exact .units hkind hnumber
  · rintro (⟨hkind, hfound⟩ | ⟨hkind, hfound, hsub⟩ | ⟨hkind, hnumber⟩)
    · rw [parameterLine, hkind]
      exact bind_eq_ok.mpr ⟨_, hfound, rfl⟩
    · rw [parameterLine, hkind]
      exact bind_eq_ok.mpr ⟨_, hfound, bind_eq_ok.mpr ⟨_, hsub, rfl⟩⟩
    · rw [parameterLine_of_ne hkind]
      exact bind_eq_ok.mpr ⟨_, hnumber, rfl⟩

/-! ## What a line is made of -/

/-- The prices that apply to a parameter with a value: those of the chosen option, if the parameter
is a choice, and its own otherwise. -/
def appliedRule (p : Parameter) (value : Value) : Except ValueFault (Option PricingRule) :=
  match p.kind with
  | .fixedOption => do return (← p.findOption value).map FixedOption.pricing
  | .numericValue | .derivedCalc => .ok (some p.pricing)

def Share.IsCharge (share : Share) : Prop := share.kind ≠ .multiplier ∧ share.amount.isSome = true

def addUp (charges : List Share) : Float :=
  charges.foldl (fun sum share => sum + share.amount.getD 0) 0

def Open (line : Line) : Prop :=
  (∀ share ∈ line.shares, share.IsCharge) ∧ line.total = addUp line.shares

/-- A line whose charges add up to its total, or its charges times a factor with a multiplier behind
them. -/
def Accounted (line : Line) (factor : Option Float) : Prop :=
  Open line ∨
    ∃ charges last x, line.shares = charges ++ [last] ∧ (∀ share ∈ charges, share.IsCharge) ∧
      last.kind = .multiplier ∧ last.amount = none ∧ factor = some x ∧
      line.total = addUp charges * x

section

variable {line : Line} {p : Parameter} {values : FormValues} {symbol : String}

theorem addUp_concat (charges : List Share) (share : Share) :
    addUp (charges ++ [share]) = addUp charges + share.amount.getD 0 := by
  rw [addUp, List.foldl_append]
  rfl

theorem open_empty : Open {} := ⟨nofun, rfl⟩

theorem Open.add (h : Open line) {kind : ShareKind} (hkind : kind ≠ .multiplier) (amount : Float)
    (description : String) : Open (line.add kind amount description) := by
  obtain ⟨hshares, htotal⟩ := h
  constructor
  · intro share hshare
    rcases List.mem_append.mp hshare with hshare | hshare
    · exact hshares share hshare
    · rw [List.mem_singleton.mp hshare]
      exact ⟨hkind, rfl⟩
  · rw [Line.add, addUp_concat, ← htotal]
    rfl

theorem Open.addCharge (h : Open line) {kind : ShareKind} (hkind : kind ≠ .multiplier)
    (price : Option Float) (describe : Float → String) :
    Open (addCharge line kind price describe) := by
  unfold Price.addCharge
  split
  · exact h.add hkind _ _
  · exact h

theorem Open.addStep (h : Open line) (step : Option StepPricing) (units : Float)
    (symbol : String) : Open (addStep line step units symbol) := by
  unfold Price.addStep
  split
  · exact h
  · split
    · exact h.add (by decide) _ _
    · exact h

theorem eq_of_charged {price : Option Float} {x : Float} (h : charged price = some x) :
    price = some x := (Option.filter_eq_some_iff.mp h).1

theorem Open.applyMultiplier (h : Open line) (factor : Option Float) :
    Accounted (applyMultiplier line factor) factor := by
  unfold Price.applyMultiplier
  split
  · rename_i x hfactor
    refine .inr ⟨line.shares, _, x, rfl, h.1, rfl, rfl, eq_of_charged hfactor, ?_⟩
    rw [Line.multiply, h.2]
  · exact .inl h

theorem Open.optionLine (h : Open line) (option : FixedOption) (sub : Option SubOption)
    (symbol : String) :
    Accounted (optionLine line option sub symbol) option.pricing.multiplier := by
  unfold Price.optionLine
  apply Open.applyMultiplier
  cases sub with
  | none => exact (h.addCharge (by decide) _ _).addCharge (by decide) _ _
  | some sub =>
    exact ((h.addCharge (by decide) _ _).addCharge (by decide) _ _).addCharge (by decide) _ _

theorem Open.unitsLine (h : Open line) (p : Parameter) (units : Float) (symbol : String) :
    Accounted (unitsLine line p units symbol) p.pricing.multiplier := by
  unfold Price.unitsLine
  apply Open.applyMultiplier
  apply Open.addStep
  split
  · exact h
  · exact h.add (by decide) _ _

theorem appliedRule_of_ne (h : p.kind ≠ .fixedOption) (value : Value) :
    appliedRule p value = .ok (some p.pricing) := by
  rw [appliedRule]
  cases hkind : p.kind with
  | fixedOption => exact absurd hkind h
  | numericValue | derivedCalc => rfl

theorem appliedRule_of_findOption (h : p.kind = .fixedOption) {value : Value}
    {found : Option FixedOption} (hfound : p.findOption value = .ok found) :
    appliedRule p value = .ok (found.map FixedOption.pricing) := by
  rw [appliedRule, h]
  exact bind_eq_ok.mpr ⟨found, hfound, rfl⟩

theorem parameterLine_accounted {value : Value}
    (h : parameterLine p value values symbol = .ok line) :
    ∃ rule, appliedRule p value = .ok rule ∧ Accounted line (rule.bind PricingRule.multiplier) := by
  have hbase : Open (baseLine p symbol) := open_empty.addCharge (by decide) _ _
  obtain ⟨hkind, hfound⟩ | ⟨hkind, hfound, -⟩ | ⟨hkind, -⟩ := parameterLine_eq_ok.mp h
  · exact ⟨none, appliedRule_of_findOption hkind hfound, .inl hbase⟩
  · exact ⟨_, appliedRule_of_findOption hkind hfound, hbase.optionLine _ _ symbol⟩
  · exact ⟨_, appliedRule_of_ne hkind value, hbase.unitsLine p _ symbol⟩

/-! ## Where a line comes from -/

/-- An item of a breakdown comes from a parameter in a form: the parameter is shown and holds a value
there, it is not the order quantity, and its prices account for the amount. -/
structure Explains (values : FormValues) (p : Parameter) (item : BreakdownItem) : Prop where
  priced : p.key ≠ quantityName
  shown : Form.isVisible p values = .ok true
  accounted : ∃ value rule, values.read p.name = .ok value ∧ value.isBlank = false ∧
    appliedRule p value = .ok rule ∧
    Accounted ⟨item.amount, item.shares⟩ (rule.bind PricingRule.multiplier)
  finite : item.amount.isFinite = true
  positive : item.amount > 0
  named : item.parameter = p.displayName
  described : item.description = "; ".intercalate (item.shares.map (·.description))

theorem itemOf_explains {item : BreakdownItem} (h : itemOf p values symbol = .ok (some item)) :
    Explains values p item := by
  unfold itemOf at h
  split at h
  · cases h
  rename_i hpriced
  obtain ⟨shown, hshown, h⟩ := bind_eq_ok.mp h
  cases shown with
  | false => cases h
  | true =>
    obtain ⟨value, hvalue, h⟩ := bind_eq_ok.mp h
    cases hblank : value.isBlank with
    | true =>
      rw [hblank] at h
      cases h
    | false =>
      rw [hblank] at h
      obtain ⟨line, hline, h⟩ := bind_eq_ok.mp h
      obtain ⟨rule, hrule, haccounted⟩ := parameterLine_accounted hline
      have hitem := pure_eq_ok.mp h
      split at hitem
      · rename_i hamount
        cases hitem
        exact ⟨hpriced, hshown, ⟨value, rule, hvalue, hblank, hrule, haccounted⟩, hamount.1,
          hamount.2, rfl, rfl⟩
      · cases hitem

theorem priceForm_eq_ok {parameters : List Parameter} {v : FormValues} {currency : Currency}
    {q : Quote} : priceForm parameters v currency = .ok q ↔
      ∃ values quantity mainUnits items, Derived.resolve parameters v = .ok values ∧
        quantityOf values = .ok quantity ∧ mainUnitsOf parameters values = .ok mainUnits ∧
        (parameters.mapM fun p => itemOf p values currency.symbol) = .ok items ∧
        { total := sumOf (items.filterMap id) * quantity, breakdown := items.filterMap id, quantity,
          unitTotal := sumOf (items.filterMap id), mainUnits, currency, values } = q := by
  unfold priceForm
  simp only [bind_eq_ok, pure_eq_ok]
  constructor
  · rintro ⟨values, hvalues, quantity, hquantity, mainUnits, hmainUnits, items, hitems, h⟩
    exact ⟨values, quantity, mainUnits, items, hvalues, hquantity, hmainUnits, hitems, h⟩
  · rintro ⟨values, quantity, mainUnits, items, hvalues, hquantity, hmainUnits, hitems, h⟩
    exact ⟨values, hvalues, quantity, hquantity, mainUnits, hmainUnits, items, hitems, h⟩

/-- Every line of a quote, also of one that could not be worked out, comes from its own parameter in
schema order and is accounted for, and the lines add up to the price. -/
theorem breakdown_accounts_for_total (parameters : List Parameter) (v : FormValues)
    (code : Value) :
    let q := quote parameters v code
    (∃ priced, priced.Sublist parameters ∧ List.Forall₂ (Explains q.values) priced q.breakdown) ∧
      q.unitTotal = (q.breakdown.map (·.amount)).foldl (· + ·) 0 ∧
      q.total = q.unitTotal * q.quantity := by
  unfold quote
  dsimp only
  split
  · rename_i q h
    obtain ⟨values, quantity, mainUnits, items, -, -, -, hitems, rfl⟩ := priceForm_eq_ok.mp h
    refine ⟨?_, ?_, rfl⟩
    · exact sublist_of_mapM hitems fun p item h => itemOf_explains h
    · rw [List.foldl_map]
      rfl
  · have hzero : (0 : Float) = 0 * 1 := by decide
    exact ⟨⟨[], List.nil_sublist _, .nil⟩, rfl, hzero⟩

end

def booklet : List Parameter := [
  { id := "cover", name := "cover", kind := .fixedOption, options := [
    { label := "Soft", value := "soft" },
    { label := "Hard", value := "hard", pricing := { basePrice := some 10, multiplier := some 1.5 },
      subOptions := [{ id := "foil", label := "Foil", value := "foil", price := 2.5 }] }] },
  { id := "pages", name := "pages", kind := .numericValue,
    pricing := { basePrice := some 1, unitPrice := some 0.25 } }]

def bookletAnswers : FormValues :=
  ⟨[⟨"cover", "hard"⟩, ⟨"cover_suboption", "foil"⟩, ⟨"pages", "40"⟩, ⟨"quantity", .int 3⟩]⟩

theorem booklet_is_accounted_for :
    let q := quote booklet bookletAnswers "USD"
    (q.breakdown.map fun item => (item.amount, item.shares.map (·.kind))) =
        [(18.75, [.option, .subOption, .multiplier]), (11, [.base, .unitPrice])] ∧
      (∃ priced, priced.Sublist booklet ∧ List.Forall₂ (Explains q.values) priced q.breakdown) ∧
      q.unitTotal = 29.75 ∧ q.total = 89.25 ∧ q.total = q.unitTotal * q.quantity := by
  obtain ⟨hpriced, -, htotal⟩ := breakdown_accounts_for_total booklet bookletAnswers "USD"
  exact ⟨by decide +kernel, hpriced, by decide +kernel, by decide +kernel, htotal⟩

end Quotation.Price
