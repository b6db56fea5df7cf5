import Quotation.Proofs.Number.Display
import Quotation.Proofs.Number.Packing
import Quotation.Proofs.Schema.Normal
import Quotation.Schema.Writer

/-!
# Reading what was written

A parameter that was read, from whatever object, is written as an object that is read as the same
parameter again, with one exception. Text may stand for a negative zero, but a price of zero counts
as not given when it is written as a number, and so the price of a sub-option comes back as the plain
zero.
-/

namespace Quotation

/-! ## Fields that are left out -/

def itemsOrNull (items : List Value) : Value := if items.isEmpty then .null else .list items

section

variable {α : Type} {key other : String}

@[simp]
theorem lookup_optionalField (write : α → Value) (o : Option α) :
    (optionalField key write o).lookup other = if other == key then o.map write else none := by
  cases o with
  | none => simp [optionalField]
  | some a =>
    simp only [optionalField, List.lookup_cons, List.lookup_nil, Option.map_some]
    split <;> simp_all

@[simp]
theorem lookup_fieldIf (condition : Bool) (value : Value) :
    (fieldIf condition key value).lookup other =
      if other == key && condition then some value else none := by
  cases condition with
  | false => simp [fieldIf]
  | true =>
    simp only [fieldIf, if_true, List.lookup_cons, List.lookup_nil, Bool.and_true]
    split <;> simp_all

theorem items_written (write : α → Value) (as : List α) :
    (if as = [] then none else some (Value.list (as.map write))).getD .null =
      itemsOrNull (as.map write) := by
  cases as <;> rfl

end

/-! ## Single values -/

theorem readOptionalNumber_written (x : Option Float) :
    readOptionalNumber ((x.map .float).getD .null) = .ok x := by
  cases x <;> rfl

theorem readScope_written (scope : Option PricingScope) :
    readScope ((scope.map PricingScope.toValue).getD .null) = .ok scope := by
  cases scope with
  | none => rfl
  | some scope => exact readScope_label scope

theorem readGiven_written {o : Option Value} (h : ∀ v, o = some v → v.isGiven = true) :
    readGiven (o.getD .null) = o := by
  cases o with
  | none => rfl
  | some v => exact if_pos (h v rfl)

theorem isGiven_of_readGiven {value given : Value} (h : readGiven value = some given) :
    given.isGiven = true := by
  unfold readGiven at h
  split at h
  · rename_i hgiven
    cases h
    exact hgiven
  · cases h

theorem asItems_written (items : List Value) : (itemsOrNull items).asItems = .ok items := by
  cases items <;> rfl

theorem Value.orElse_orElse (value other : Value) :
    (value.orElse other).orElse other = value.orElse other := by
  by_cases hgiven : value.isGiven = true <;> simp [orElse, hgiven]

theorem readGiven_orElse {value other : Value} (h : value.orElse other = value) :
    ((readGiven value).getD .null).orElse other = value := by
  unfold readGiven
  split
  · exact h
  · rename_i hmissing
    rwa [Value.orElse, if_neg hmissing] at h

theorem Value.shown_ne_empty {value : Value} (h : value.isGiven = true) : value.shown ≠ "" := by
  cases value with
  | null => cases h
  | bool b => cases b <;> decide
  | int n => exact Number.toString_ne_empty n
  | float x => exact Number.fullText_ne_empty x
  | nan mark => exact Number.fullText_ne_empty Number.notANumber
  | text s => exact (isGiven_text s).mp h
  | list items => simp [shown, quoted]
  | object fields => simp [shown, quoted]

theorem shown_orElse_eq_empty {value other : Value} (h : (value.orElse other).shown = "") :
    other.shown = "" := by
  unfold Value.orElse at h
  split at h
  · rename_i hgiven
    exact absurd h (Value.shown_ne_empty hgiven)
  · exact h

theorem shown_orElse_written {id : String} {other : Value} (h : id = "" → other.shown = "") :
    ((Value.text id).orElse other).shown = id := by
  unfold Value.orElse
  split
  · rfl
  · rename_i hmissing
    have hempty : id = "" := not_not.mp fun hid => hmissing ((Value.isGiven_text id).mpr hid)
    rw [h hempty, hempty]

/-! ## Plain zeros -/

/-- A number, the negative zero as the plain one. -/
def plainZero (x : Float) : Float := if x == 0 then 0 else x

def SubOption.withPlainPrice (s : SubOption) : SubOption := { s with price := plainZero s.price }

def FixedOption.withPlainPrices (o : FixedOption) : FixedOption :=
  { o with subOptions := o.subOptions.map SubOption.withPlainPrice }

/-- A parameter, the prices of its sub-options without negative zeros. -/
def Parameter.withPlainPrices (p : Parameter) : Parameter :=
  { p with options := p.options.map FixedOption.withPlainPrices }

theorem plainZero_ne_negative (x : Float) : plainZero x ≠ -0.0 := by
  unfold plainZero
  split
  · decide
  · rename_i hother
    rintro rfl
    exact hother (by decide)

theorem plainZero_eq_self_iff {x : Float} : plainZero x = x ↔ x ≠ -0.0 := by
  refine ⟨fun h => h ▸ plainZero_ne_negative x, fun h => ?_⟩
  unfold plainZero
  split
  · rename_i hzero
    exact ((Number.eq_zero_of_beq hzero).resolve_right h).symm
  · rfl

theorem map_eq_self_iff {α : Type} {f : α → α} {as : List α} :
    as.map f = as ↔ ∀ a ∈ as, f a = a := by
  simpa using List.map_inj_left (l := as) (f := f) (g := id)

theorem SubOption.withPlainPrice_eq_self_iff {s : SubOption} :
    s.withPlainPrice = s ↔ s.price ≠ -0.0 := by
  rw [← plainZero_eq_self_iff]
  exact ⟨fun h => congrArg SubOption.price h, fun h => by rw [withPlainPrice, h]⟩

theorem FixedOption.withPlainPrices_eq_self_iff {o : FixedOption} :
    o.withPlainPrices = o ↔ ∀ s ∈ o.subOptions, s.price ≠ -0.0 := by
  simp only [← SubOption.withPlainPrice_eq_self_iff, ← map_eq_self_iff]
  exact ⟨fun h => congrArg FixedOption.subOptions h, fun h => by rw [withPlainPrices, h]⟩

theorem Parameter.withPlainPrices_eq_self_iff {p : Parameter} :
    p.withPlainPrices = p ↔ ∀ o ∈ p.options, ∀ s ∈ o.subOptions, s.price ≠ -0.0 := by
  simp only [← FixedOption.withPlainPrices_eq_self_iff, ← map_eq_self_iff]
  exact ⟨fun h => congrArg Parameter.options h, fun h => by rw [withPlainPrices, h]⟩

theorem Parameter.withPlainPrices_withPlainPrices (p : Parameter) :
    p.withPlainPrices.withPlainPrices = p.withPlainPrices := by
  rw [withPlainPrices_eq_self_iff]
  intro o ho s hs
  obtain ⟨option, -, rfl⟩ := List.mem_map.mp ho
  obtain ⟨sub, -, rfl⟩ := List.mem_map.mp hs
  exact plainZero_ne_negative sub.price

theorem price_written (x : Float) :
    ((Value.float x).orElse (.int 0)).asNumber = .ok (plainZero x) := by
  unfold Value.orElse plainZero
  cases hzero : x == 0 with
  | false => simp [Value.isGiven, hzero]; rfl
  | true => simpa [Value.isGiven, hzero] using asNumber_zero

/-! ## What reading sees to -/

/-- A sub-option with a name and a description, as far as there is anything to take for them. -/
structure SubOption.AsRead (s : SubOption) : Prop where
  id : s.id = "" → s.value = ""
  description : s.description.orElse (.text "") = s.description

structure FixedOption.AsRead (o : FixedOption) : Prop where
  description : o.description.orElse (.text "") = o.description
  subOptions : ∀ s ∈ o.subOptions, s.AsRead

/-- A parameter whose missing fields hold their defaults. -/
structure Parameter.AsRead (p : Parameter) : Prop where
  id : p.id = "" → p.name.shown = ""
  label : p.label.orElse (.text "") = p.label
  description : p.description.orElse (.text "") = p.description
  options : ∀ o ∈ p.options, o.AsRead
  unit : ∀ unit, p.unit = some unit → unit.isGiven = true
  formula : ∀ formula, p.formula = some formula → formula.isGiven = true

theorem SubOption.asRead_of_ofValue {value : Value} {s : SubOption}
    (h : SubOption.ofValue value = .ok s) : s.AsRead := by
  simp only [SubOption.ofValue, SubOption.ofFields, bind_eq_ok, pure_eq_ok] at h
  obtain ⟨fields, -, price, -, scope, -, rfl⟩ := h
  exact ⟨shown_orElse_eq_empty, Value.orElse_orElse _ _⟩

theorem FixedOption.asRead_of_ofValue {value : Value} {o : FixedOption}
    (h : FixedOption.ofValue value = .ok o) : o.AsRead := by
  simp only [FixedOption.ofValue, FixedOption.ofFields, bind_eq_ok, pure_eq_ok] at h
  obtain ⟨fields, -, pricing, -, items, -, subOptions, hsubOptions, rfl⟩ := h
  refine ⟨Value.orElse_orElse _ _, fun s hs => ?_⟩
  obtain ⟨item, -, hitem⟩ := (mem_of_mapM hsubOptions).2 s hs
  exact SubOption.asRead_of_ofValue hitem

theorem Parameter.asRead_of_ofValue {value : Value} {p : Parameter}
    (h : Parameter.ofValue value = .ok p) : p.AsRead := by
  simp only [Parameter.ofValue, Parameter.ofFields, bind_eq_ok, pure_eq_ok] at h
  obtain ⟨fields, -, kind, -, pricing, -, items, -, options, hoptions, min, -, max, -, step, -,
    names, -, conditional, -, units, -, scope, -, rfl⟩ := h
  exact {
    id := shown_orElse_eq_empty
    label := Value.orElse_orElse _ _
    description := Value.orElse_orElse _ _
    options := fun o ho => by
      obtain ⟨item, -, hitem⟩ := (mem_of_mapM hoptions).2 o ho
      exact FixedOption.asRead_of_ofValue hitem
    unit := fun _ => isGiven_of_readGiven
    formula := fun _ => isGiven_of_readGiven }

/-! ## Reading records back -/

theorem StepPricing.ofValue_written (step : Option StepPricing) :
    StepPricing.ofValue ((step.map StepPricing.toValue).getD .null) = .ok step := by
  cases step <;> rfl

theorem PricingRule.ofValue_toValue (rule : PricingRule) :
    PricingRule.ofValue rule.toValue = .ok rule := by
  have hfields (fields) : PricingRule.ofValue (.object fields) = PricingRule.ofFields fields := by
    cases fields <;> rfl
  rw [PricingRule.toValue, hfields, PricingRule.ofFields]
  simp [fieldOf, fieldOr, List.lookup_append, readOptionalNumber_written,
    StepPricing.ofValue_written]

theorem SubOption.ofValue_toValue {s : SubOption} (h : s.AsRead) :
    SubOption.ofValue s.toValue = .ok s.withPlainPrice := by
  have hid : ((Value.text s.id).orElse (.text s.value)).shown = s.id := shown_orElse_written h.id
  rw [SubOption.toValue, SubOption.ofValue, Value.asObject, ok_bind, SubOption.ofFields]
  simp [fieldOf, fieldOr, List.lookup_cons, readScope_written, hid, h.description,
    price_written, SubOption.withPlainPrice]
  rfl

theorem FixedOption.ofValue_toValue {o : FixedOption} (h : o.AsRead) :
    FixedOption.ofValue o.toValue = .ok o.withPlainPrices := by
  have hread : (o.subOptions.map SubOption.toValue).mapM SubOption.ofValue =
      .ok (o.subOptions.map SubOption.withPlainPrice) :=
    mapM_map_ok fun s hs => SubOption.ofValue_toValue (h.subOptions s hs)
  rw [FixedOption.toValue, FixedOption.ofValue, Value.asObject, ok_bind, FixedOption.ofFields]
  simp [fieldOf, fieldOr, List.lookup_cons, Value.shown, PricingRule.ofValue_toValue, h.description,
    items_written, asItems_written, hread, FixedOption.withPlainPrices]

theorem Conditional.ofValue_toValue (c : Conditional) :
    Conditional.ofValue c.toValue = .ok c := by
  have hshown : c.showWhen.map ((·.shown) ∘ Value.text) = c.showWhen := List.map_id' _
  rw [Conditional.toValue, Conditional.ofValue]
  simp [Value.isGiven, Value.asObject, Conditional.ofFields, fieldOf, fieldOr, List.lookup_cons,
    asItems_list, hshown]

theorem Conditional.ofValue_written (c : Option Conditional) :
    Conditional.ofValue ((c.map Conditional.toValue).getD .null) = .ok c := by
  cases c with
  | none => rfl
  | some c => exact c.ofValue_toValue

namespace Parameter

variable {p : Parameter}

/-- The fields of a parameter in the order of its shape, with nothing for those that are left out. -/
def entries (p : Parameter) : List (String × Value) := [
  ("id", .text p.id),
  ("name", p.name),
  ("label", p.label),
  ("description", (readGiven p.description).getD .null),
  ("type", .text p.kind.label),
  ("required", .bool p.required),
  ("pricing", p.pricing.toValue),
  ("options", itemsOrNull (p.options.map FixedOption.toValue)),
  ("min", (p.min.map .float).getD .null),
  ("max", (p.max.map .float).getD .null),
  ("step", (p.step.map .float).getD .null),
  ("unit", p.unit.getD .null),
  ("formula", p.formula.getD .null),
  ("dependencies", itemsOrNull p.dependencies),
  ("conditional", (p.conditional.map Conditional.toValue).getD .null),
  ("isMainUnits", .bool p.isMainUnits),
  ("unitsPerQuantity", (p.unitsPerQuantity.map .float).getD .null),
  ("pricingScope", (p.scope.map PricingScope.toValue).getD .null)]

/-- Fields are read as a parameter if they hold its entries. A name may hold nothing as long as it is
there, and a flag that is down may be left out. -/
theorem ofFields_of_entries (h : p.AsRead) {fields : List (String × Value)}
    (hname : fieldOr fields "name" (.text "") = p.name)
    (hflag : (fieldOf fields "isMainUnits").isGiven = p.isMainUnits)
    (hread : ∀ entry ∈ p.entries, entry.1 ≠ "isMainUnits" → fieldOf fields entry.1 = entry.2) :
    Parameter.ofFields fields = .ok p.withPlainPrices := by
  -- One equation for each entry, by name.
  simp only [entries, List.forall_mem_cons, ne_eq, String.reduceEq, not_false_eq_true,
    forall_true_left, not_true_eq_false, forall_false] at hread
  obtain ⟨hid, -, hlabel, hdescription, hkind, hrequired, hpricing, hoptions, hmin, hmax, hstep,
    hunit, hformula, hdependencies, hconditional, -, hunits, hscope, -⟩ := hread
  have hread : (p.options.map FixedOption.toValue).mapM FixedOption.ofValue =
      .ok (p.options.map FixedOption.withPlainPrices) :=
    mapM_map_ok fun o ho => FixedOption.ofValue_toValue (h.options o ho)
  rw [Parameter.ofFields, hname, hid, shown_orElse_written h.id, hlabel, h.label, hdescription,
    readGiven_orElse h.description]
  rw [hkind, readKind_label, hrequired, hpricing, PricingRule.ofValue_toValue, hoptions,
    asItems_written]
  rw [hmin, hmax, hstep, hunit, readGiven_written h.unit, hformula, readGiven_written h.formula]
  rw [hdependencies, asItems_written, hconditional, Conditional.ofValue_written, hflag, hunits,
    hscope]
  simp only [ok_bind, readOptionalNumber_written, hread, readScope_written]
  rfl

theorem ofValue_toValue (h : p.AsRead) :
    Parameter.ofValue p.toValue = .ok p.withPlainPrices := by
  have hdescription : (if p.description.isGiven = true then some p.description else none) =
      readGiven p.description := rfl
  have hdependencies : (if p.dependencies = [] then none
      else some (Value.list p.dependencies)).getD .null = itemsOrNull p.dependencies := by
    cases p.dependencies <;> rfl
  have hflag : ((if p.isMainUnits = true then some (Value.bool true) else none).getD .null).isGiven =
      p.isMainUnits := by
    cases p.isMainUnits <;> rfl
  rw [Parameter.toValue, Parameter.ofValue, Value.asObject, ok_bind]
  apply ofFields_of_entries h
  · simp [fieldOr, List.lookup_cons]
  · simp [fieldOf, fieldOr, List.lookup_append, List.lookup_cons, hflag]
  · simp [fieldOf, fieldOr, List.lookup_append, List.lookup_cons, entries, hdescription,
      items_written, hdependencies]

/-- What an object describes is read again from the object that it is written as, but for prices of
a negative zero. It is the same parameter just if no sub-option has such a price, and what was read
again stays the same from then on. -/
theorem reads_what_was_written {value : Value} (h : Parameter.ofValue value = .ok p) :
    ∃ q, Parameter.ofValue p.toValue = .ok q ∧ q = p.withPlainPrices ∧
      (q = p ↔ ∀ o ∈ p.options, ∀ s ∈ o.subOptions, s.price ≠ -0.0) ∧
      ((∀ o ∈ p.options, ∀ s ∈ o.subOptions, s.price ≠ -0.0) → q.toValue = p.toValue) ∧
      Parameter.ofValue q.toValue = .ok q := by
  have hread := ofValue_toValue (asRead_of_ofValue h)
  refine ⟨p.withPlainPrices, hread, rfl, withPlainPrices_eq_self_iff, fun hprices => ?_, ?_⟩
  · rw [withPlainPrices_eq_self_iff.mpr hprices]
  · rw [ofValue_toValue (asRead_of_ofValue hread), p.withPlainPrices_withPlainPrices]

def trayData : Value := .object [
  ("name", .int 5), ("type", "FixedOption"), ("required", .int 1), ("label", .null),
  ("description", .list ["deep"]), ("min", "1_0"), ("unit", .list []), ("formula", .float 2.5),
  ("dependencies", "ab"), ("isMainUnits", .null), ("pricing", .object [("base_price", .bool true)]),
  ("conditional", .object [("parentParameter", .null), ("showWhen", .list [.int 1, .null])]),
  ("options", .list [
    .object [
      ("value", .float 2.5), ("description", .int 0), ("pricing", .list []),
      ("subOptions", .list [
        .object [("value", .null), ("price", .bool true)],
        .object [("id", .int 0), ("value", ""), ("price", .float (-0.0))]])]])]

theorem tray_is_read_again : ∃ p, Parameter.ofValue trayData = .ok p ∧
    Parameter.ofValue p.toValue = .ok p ∧ (p.options.map (·.subOptions.length)) = [2] := by
  have hprices : (Parameter.ofValue trayData).toOption.any (fun p => decide
      ((∀ o ∈ p.options, ∀ s ∈ o.subOptions, s.price ≠ -0.0) ∧
        (p.options.map (·.subOptions.length)) = [2])) = true := by
    decide +kernel
  obtain ⟨p, hp, htest⟩ := ok_of_any hprices
  obtain ⟨hplain, hcount⟩ := of_decide_eq_true htest
  obtain ⟨q, hq, -, hsame, -⟩ := reads_what_was_written hp
  rw [hsame.mpr hplain] at hq
  exact ⟨p, hp, hq, hcount⟩

/-- A door whose plain finish costs the text of a negative zero. -/
def doorData : Value := .object [
  ("name", "door"), ("type", "FixedOption"),
  ("options", .list [
    .object [
      ("label", "Oak"), ("value", "oak"),
      ("subOptions", .list [
        .object [("label", "Plain"), ("value", "plain"), ("price", "-0")]])]])]

theorem door_is_read_otherwise : ∃ p q, Parameter.ofValue doorData = .ok p ∧
    Parameter.ofValue p.toValue = .ok q ∧ q ≠ p := by
  have hprice : (Parameter.ofValue doorData).toOption.any (fun p => decide
      (∃ o ∈ p.options, ∃ s ∈ o.subOptions, s.price = -0.0)) = true := by
    decide +kernel
  obtain ⟨p, hp, htest⟩ := ok_of_any hprice
  obtain ⟨o, ho, s, hs, hnegative⟩ := of_decide_eq_true htest
  refine ⟨p, _, hp, ofValue_toValue (asRead_of_ofValue hp), fun hsame => ?_⟩
  exact withPlainPrices_eq_self_iff.mp hsame o ho s hs hnegative

end Parameter

end Quotation
