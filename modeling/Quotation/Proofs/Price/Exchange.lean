import Quotation.Proofs.Derived.Outline
import Quotation.Proofs.Price.Isolation

/-!
# A parameter with other prices

Prices and choices are read for the line of their own parameter and nowhere else. A parameter that
gets others changes its own line in a quote at most, and if it has the same line as before, whatever
it holds, then the quote stays as it is.
-/

namespace Quotation

def Parameter.repriced (p : Parameter) (pricing : PricingRule) (options : List FixedOption) :
    Parameter :=
  { p with pricing, options }

namespace Price

section

variable {values v : FormValues} {symbol : String} {xs ys : List Parameter}
  {p : Parameter} {currency : Currency} {pricing : PricingRule} {options : List FixedOption}

theorem outlines_repriced (xs : List Parameter) (p : Parameter) (ys : List Parameter)
    (pricing : PricingRule) (options : List FixedOption) :
    (xs ++ p.repriced pricing options :: ys).map Derived.outline =
      (xs ++ p :: ys).map Derived.outline := by
  rw [List.map_append, List.map_append]
  rfl

theorem mainUnitsOf_repriced (xs : List Parameter) (p : Parameter) (ys : List Parameter)
    (pricing : PricingRule) (options : List FixedOption) (values : FormValues) :
    mainUnitsOf (xs ++ p.repriced pricing options :: ys) values =
      mainUnitsOf (xs ++ p :: ys) values := by
  rw [mainUnitsOf, mainUnitsOf, List.find?_append, List.find?_append, List.find?_cons,
    List.find?_cons, Parameter.repriced]
  cases xs.find? (·.isMainUnits) with
  | some q => rfl
  | none => cases p.isMainUnits <;> rfl

theorem itemOf_repriced (h : ∀ value, parameterLine (p.repriced pricing options) value values symbol =
    parameterLine p value values symbol) :
    itemOf (p.repriced pricing options) values symbol = itemOf p values symbol := by
  unfold itemOf
  simp only [h]
  rfl

theorem itemOf_repriced_total (h : ∀ value line, parameterLine p value values symbol = .ok line →
      ∃ line', parameterLine (p.repriced pricing options) value values symbol = .ok line')
    {item : Option BreakdownItem} (hitem : itemOf p values symbol = .ok item) :
    ∃ item', itemOf (p.repriced pricing options) values symbol = .ok item' := by
  refine exists_itemOf.mpr fun hpriced => ?_
  obtain ⟨shown, hshown, hrest⟩ := exists_itemOf.mp ⟨item, hitem⟩ hpriced
  refine ⟨shown, hshown, fun hyes => ?_⟩
  obtain ⟨value, hvalue, hline⟩ := hrest hyes
  refine ⟨value, hvalue, fun hgiven => ?_⟩
  obtain ⟨line, hline⟩ := hline hgiven
  exact h value line hline

/-- Two quotes differ in the line of one parameter at most, which takes the place of another. -/
def SwapsOwnLine (symbol : String) (xs : List Parameter) (p p' : Parameter) (ys : List Parameter)
    (q r : Quote) : Prop :=
  (∃ front line line' back, LinesOf q.values symbol xs front ∧
    itemOf p q.values symbol = .ok line ∧ itemOf p' q.values symbol = .ok line' ∧
    LinesOf q.values symbol ys back ∧ q.breakdown = front ++ line.toList ++ back ∧
    r.breakdown = front ++ line'.toList ++ back) ∧
  q.values = r.values ∧ q.quantity = r.quantity ∧ q.mainUnits = r.mainUnits

theorem priceForm_repriced {q : Quote} (h : priceForm (xs ++ p :: ys) v currency = .ok q)
    (hline : ∀ value line, parameterLine p value q.values currency.symbol = .ok line →
      ∃ line', parameterLine (p.repriced pricing options) value q.values currency.symbol =
        .ok line') :
    ∃ r, priceForm (xs ++ p.repriced pricing options :: ys) v currency = .ok r ∧
      SwapsOwnLine currency.symbol xs p (p.repriced pricing options) ys q r := by
  obtain ⟨m, quantity, mainUnits, items, hm, hquantity, hmainUnits, hitems, rfl⟩ :=
    priceForm_eq_ok.mp h
  -- The values are the same for both, and so are the lines before and after the parameter.
  obtain ⟨front, _, hfront, hrest, hbreakdown⟩ := linesOf_append.mp ⟨items, hitems, rfl⟩
  obtain ⟨line, back, hline', hback, rfl⟩ := linesOf_cons.mp hrest
  obtain ⟨line', hswapped⟩ := itemOf_repriced_total hline hline'
  obtain ⟨items', hitems', hbreakdown'⟩ := linesOf_append.mpr
    ⟨front, _, hfront, linesOf_cons.mpr ⟨line', back, hswapped, hback, rfl⟩, rfl⟩
  rw [← Derived.resolve_of_outlines (outlines_repriced xs p ys pricing options)] at hm
  rw [← mainUnitsOf_repriced xs p ys pricing options] at hmainUnits
  rw [← List.append_assoc] at hbreakdown hbreakdown'
  exact ⟨_, priceForm_eq_ok.mpr ⟨m, quantity, mainUnits, items', hm, hquantity, hmainUnits, hitems',
    rfl⟩, ⟨front, line, line', back, hfront, hline', hswapped, hback, hbreakdown, hbreakdown'⟩,
    rfl, rfl, rfl⟩

/-- A parameter that can stand for another one: it has the same line, whatever it holds, and gives
the same quote in any place. -/
structure PricedAlike (p p' : Parameter) : Prop where
  line : ∀ value values symbol,
    parameterLine p' value values symbol = parameterLine p value values symbol
  quote : ∀ xs ys v currency,
    priceForm (xs ++ p' :: ys) v currency = priceForm (xs ++ p :: ys) v currency

theorem pricedAlike_repriced (h : ∀ value values symbol,
    parameterLine (p.repriced pricing options) value values symbol =
      parameterLine p value values symbol) : PricedAlike p (p.repriced pricing options) := by
  have hitem (values : FormValues) (symbol : String) :
      itemOf (p.repriced pricing options) values symbol = itemOf p values symbol :=
    itemOf_repriced fun value => h value values symbol
  refine ⟨h, fun xs ys v currency => ?_⟩
  simp only [priceForm, Derived.resolve_of_outlines (outlines_repriced xs p ys pricing options),
    mainUnitsOf_repriced, List.mapM_append, List.mapM_cons, hitem]

end

end Price

end Quotation
