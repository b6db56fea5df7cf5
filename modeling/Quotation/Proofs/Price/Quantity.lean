import Quotation.Proofs.Form.Agreement
import Quotation.Proofs.Price.Breakdown
import Quotation.Proofs.Price.Range
import Quotation.Proofs.Schema.Names

/-!
# The order quantity only scales

Where no parameter refers to the order quantity, it is read once: after the pass, to multiply the
price of one item. A schema may still list a parameter with its name, for the field of the form.
-/

namespace Quotation.Price

open Derived (resolve isComputed)

/-- No formula reads the order quantity, nothing is shown by it, it is not worked out, and it does not
count the main units. -/
@[mk_iff]
structure QuantityApart (parameters : List Parameter) : Prop where
  dependency : ∀ p ∈ parameters, (quantityName : Key) ∉ p.dependsOn
  parent : ∀ p ∈ parameters, ∀ c ∈ p.conditional, c.parentKey ≠ quantityName
  derived : ∀ p ∈ parameters, p.isDerived = true → p.key ≠ quantityName
  mainUnits : ∀ p ∈ parameters, p.isMainUnits = true → p.key ≠ quantityName

instance (parameters : List Parameter) : Decidable (QuantityApart parameters) :=
  decidable_of_iff _ (quantityApart_iff parameters).symm

/-- The total of a quote is its price of one item times what a form holds as the quantity, or as it
is where that is no number. -/
def ScaledBy (v : FormValues) (q : Quote) : Prop :=
  ∃ given, (v.get quantityName).number? = .ok given ∧ q.total = q.unitTotal * given.getD 1

section

variable {parameters : List Parameter} {v w m : FormValues} {p : Parameter} {q : Quote}
  {currency : Currency}

theorem QuantityApart.kept (apart : QuantityApart parameters)
    (h : resolve parameters v = .ok m) : m.get quantityName = v.get quantityName :=
  FormValues.get_congr (Derived.resolve_kept h fun p hp hcomputed =>
    apart.derived p hp (Bool.and_eq_true_iff.mp hcomputed).1)

theorem QuantityApart.seenAlike (apart : QuantityApart parameters)
    (h : FormValues.AgreeOff [quantityName] v w) (hp : p ∈ parameters)
    (hpriced : p.key ≠ quantityName) : Form.SeenAlike p v w := by
  have hsub : (p.subName : Key) ≠ quantityName := fun hsame =>
    Schema.subName_ne_quantity p (Key.text.inj hsame)
  exact ⟨Form.isVisible_congr fun c hc => h.of_ne (apart.parent p hp c hc),
    .inr ⟨h.of_ne hpriced, h.of_ne hsub⟩⟩

theorem itemOf_quantity (h : p.key = quantityName) (symbol : String) :
    itemOf p v symbol = .ok none := by
  rw [itemOf, if_pos h]
  rfl

theorem QuantityApart.itemOf_eq (apart : QuantityApart parameters)
    (h : FormValues.AgreeOff [quantityName] v w) (hp : p ∈ parameters) (symbol : String) :
    itemOf p v symbol = itemOf p w symbol := by
  -- The field of the quantity itself is seen differently, but has no line in either form.
  by_cases hkey : p.key = quantityName
  · rw [itemOf_quantity hkey, itemOf_quantity hkey]
  · exact itemOf_congr (apart.seenAlike h hp hkey) symbol

theorem QuantityApart.mainUnitsOf_eq (apart : QuantityApart parameters)
    (h : FormValues.AgreeOff [quantityName] v w) :
    mainUnitsOf parameters v = mainUnitsOf parameters w :=
  mainUnitsOf_congr fun p hp => h.of_ne <|
    apart.mainUnits p (List.mem_of_find?_eq_some hp) (List.find?_some hp)

theorem QuantityApart.scaledBy (apart : QuantityApart parameters)
    (h : priceForm parameters v currency = .ok q) : ScaledBy v q := by
  obtain ⟨m, quantity, mainUnits, items, hm, hquantity, -, -, rfl⟩ := priceForm_eq_ok.mp h
  obtain ⟨given, hgiven, hread⟩ := bind_eq_ok.mp hquantity
  rw [apart.kept hm] at hgiven
  exact ⟨given, hgiven, by rw [← pure_eq_ok.mp hread]⟩

theorem QuantityApart.figures_eq (apart : QuantityApart parameters)
    (hagree : FormValues.AgreeOff [quantityName] v w) {q' : Quote}
    (h : priceForm parameters v currency = .ok q)
    (h' : priceForm parameters w currency = .ok q') :
    q.breakdown = q'.breakdown ∧ q.unitTotal = q'.unitTotal ∧ q.mainUnits = q'.mainUnits := by
  obtain ⟨m, -, mainUnits, items, hm, -, hmainUnits, hitems, rfl⟩ := priceForm_eq_ok.mp h
  obtain ⟨r, -, mainUnits', items', hr, -, hmainUnits', hitems', rfl⟩ := priceForm_eq_ok.mp h'
  have hreads : ∀ p ∈ Derived.derivedOf parameters, ∀ key ∈ p.dependsOn,
      key ∉ [(quantityName : Key)] := by
    intro p hp key hkey hmem
    rw [List.mem_singleton.mp hmem] at hkey
    exact apart.dependency p (Derived.mem_derivedOf.mp hp).1 hkey
  -- What the two passes leave differs in the quantity alone, as the forms did.
  obtain ⟨_, hr', hsame⟩ := Derived.resolve_agree hreads hagree hm
  cases hr.symm.trans hr'
  rw [apart.mainUnitsOf_eq hsame, hmainUnits'] at hmainUnits
  rw [mapM_congr fun p hp => apart.itemOf_eq hsame hp currency.symbol, hitems'] at hitems
  cases hmainUnits
  cases hitems
  exact ⟨rfl, rfl, rfl⟩

end

/-- Forms of a schema that was read that differ in the order quantity alone have the same lines, the
same price of one item and the same main units, and each total is that price times its own
quantity. -/
theorem quantity_only_scales {data name : Value} {schema : ProductSchema} {v w : FormValues}
    (hschema : ProductSchema.ofValue data name = .ok schema)
    (apart : QuantityApart schema.parameters) (hv : v.InRange) (hw : w.InRange)
    (hagree : FormValues.AgreeOff [quantityName] v w) (code : Value) :
    let q := quote schema.parameters v code
    let r := quote schema.parameters w code
    (q.breakdown = r.breakdown ∧ q.unitTotal = r.unitTotal ∧ q.mainUnits = r.mainUnits) ∧
      ScaledBy v q ∧ ScaledBy w r := by
  obtain ⟨q, hq, hquote⟩ := quote_of_loaded hschema hv code
  obtain ⟨r, hr, hquote'⟩ := quote_of_loaded hschema hw code
  dsimp only
  rw [hquote, hquote']
  exact ⟨apart.figures_eq hagree hq hr, apart.scaledBy hq, apart.scaledBy hr⟩

/-- A pamphlet with a field for the quantity, whose own price is never charged, and sheets that are
worked out for hard covers. -/
def pamphletData : Value := .list [
  .object [
    ("name", "pages"), ("type", "NumericValue"), ("isMainUnits", .bool true),
    ("pricing", .object [("unit_price", .int 2)])],
  .object [
    ("name", "cover"), ("type", "FixedOption"),
    ("options", .list [
      .object [
        ("label", "Hard"), ("value", "hard"), ("pricing", .object [("base_price", .int 4)]),
        ("subOptions", .list [
          .object [("id", "g"), ("label", "Gilt"), ("value", "gilt"), ("price", .int 1)]])]])],
  .object [
    ("name", "sheets"), ("type", "DerivedCalc"), ("formula", "pages / 2"),
    ("dependencies", .list ["pages"]), ("pricing", .object [("unit_price", .int 1)]),
    ("conditional", .object [("parentParameter", "cover"), ("showWhen", .list ["hard"])])],
  .object [
    ("name", "quantity"), ("type", "NumericValue"),
    ("pricing", .object [("unit_price", .int 100)])]]

def pamphletAnswers : FormValues :=
  ⟨[⟨"pages", .text "21"⟩, ⟨"cover", .text "hard"⟩, ⟨"cover_suboption", .text "gilt"⟩]⟩

theorem pamphlets_cost_alike : ∃ schema, ProductSchema.ofValue pamphletData = .ok schema ∧
    let thrice := pamphletAnswers.set quantityName "3 boxes"
    let q := quote schema.parameters pamphletAnswers "USD"
    let r := quote schema.parameters thrice "USD"
    (q.total == 57.5 && r.total == 172.5) = true ∧
      (q.breakdown = r.breakdown ∧ q.unitTotal = r.unitTotal ∧ q.mainUnits = r.mainUnits) ∧
      ScaledBy pamphletAnswers q ∧ ScaledBy thrice r := by
  have hprices : (ProductSchema.ofValue pamphletData).toOption.any (fun schema =>
      decide (QuantityApart schema.parameters) &&
        ((quote schema.parameters pamphletAnswers "USD").total == 57.5 &&
          (quote schema.parameters (pamphletAnswers.set quantityName "3 boxes") "USD").total ==
            172.5)) = true := by
    decide +kernel
  obtain ⟨schema, hschema, hfacts⟩ := ok_of_any hprices
  obtain ⟨hapart, htotals⟩ := Bool.and_eq_true_iff.mp hfacts
  have hrange : pamphletAnswers.InRange := FormValues.inRange_of_entries (by decide +kernel)
  have hquantity : (Value.text "3 boxes").InRange := trivial
  have hagree : FormValues.AgreeOff [quantityName] pamphletAnswers
      (pamphletAnswers.set quantityName "3 boxes") := fun key hkey =>
    (FormValues.get?_set_of_ne _ _ fun hsame => hkey (List.mem_singleton.mpr hsame)).symm
  exact ⟨schema, hschema, htotals, quantity_only_scales hschema (of_decide_eq_true hapart) hrange
    (hrange.set hquantity _) hagree "USD"⟩

end Quotation.Price
