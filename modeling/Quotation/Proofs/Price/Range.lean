import Quotation.Price.Quote
import Quotation.Proofs.Schema.Loading

/-!
# Prices of forms within range

A form within range can be priced if its parameters are called by names: each value in it can be
held against an option and read as a number.
-/

namespace Quotation

namespace Value

variable {value : Value}

theorem InRange.optionKey (h : value.InRange) : ∃ s, value.optionKey = .ok s := by
  cases value with
  | int n =>
    obtain ⟨x, hx⟩ := Option.isSome_iff_exists.mp h
    exact ⟨Number.plainText x, by simp only [Value.optionKey, intToFloat, hx]; rfl⟩
  | _ => exact ⟨_, rfl⟩

end Value

variable {v : FormValues} {p : Parameter}

theorem findChoice_total {α : Type} {valueOf : α → String} {choices : List α} {chosen : Value}
    (h : chosen.InRange) : ∃ found, findChoice valueOf choices chosen = .ok found := by
  unfold findChoice
  split
  · exact ⟨none, rfl⟩
  · obtain ⟨s, hs⟩ := h.optionKey
    rw [hs]
    exact ⟨_, rfl⟩

theorem findChoice_eq_some {α : Type} {valueOf : α → String} {choices : List α} {chosen : Value}
    {choice : α} : findChoice valueOf choices chosen = .ok (some choice) ↔
      chosen.isBlank = false ∧ ∃ key, chosen.optionKey = .ok key ∧
        choices.find? (valueOf · == key) = some choice := by
  unfold findChoice
  split
  · rename_i hnone
    refine iff_of_false nofun ?_
    rintro ⟨hblank, key, -, hfind⟩
    simp only [hblank, Bool.false_or, List.isEmpty_iff] at hnone
    rw [hnone] at hfind
    cases hfind
  · rename_i hsome
    simp only [Bool.or_eq_true, not_or, Bool.not_eq_true] at hsome
    simp only [hsome.1, true_and, bind_eq_ok, pure_eq_ok]

theorem findChoice_eq_none {α : Type} {valueOf : α → String} {choices : List α} {chosen : Value}
    (hgiven : chosen.isBlank = false) (h : chosen.InRange) :
    findChoice valueOf choices chosen = .ok none ↔
      ∃ key, chosen.optionKey = .ok key ∧ ∀ choice ∈ choices, valueOf choice ≠ key := by
  obtain ⟨key, hkey⟩ := h.optionKey
  unfold findChoice
  simp only [hgiven, hkey, Bool.false_or, ok_bind, Except.ok.injEq, exists_eq_left']
  cases choices with
  | nil => exact iff_of_true rfl nofun
  | cons choice choices => simp [pure_eq_ok]

theorem Form.isVisible_total (h : v.InRange)
    (hparent : ∀ c, p.conditional = some c → c.parent.isName = true) :
    ∃ visible, isVisible p v = .ok visible := by
  unfold isVisible
  split
  · exact ⟨true, rfl⟩
  · rename_i c hc
    obtain ⟨value, hread, hvalue⟩ := h.read (hparent c hc)
    obtain ⟨s, hs⟩ := hvalue.optionKey
    rw [hread, ok_bind]
    split
    · exact ⟨false, rfl⟩
    · rw [hs]
      exact ⟨_, rfl⟩

namespace Price

/-! ## One parameter -/

theorem choiceLine_total (h : v.InRange) {value : Value} (hvalue : value.InRange) (line : Line)
    (symbol : String) : ∃ line', choiceLine line p value v symbol = .ok line' := by
  obtain ⟨option, hoption⟩ : ∃ option, p.findOption value = .ok option := findChoice_total hvalue
  rw [choiceLine, hoption, ok_bind]
  cases option with
  | none => exact ⟨line, rfl⟩
  | some option =>
    obtain ⟨sub, hsub⟩ : ∃ sub, option.findSubOption (v.get p.subName) = .ok sub :=
      findChoice_total (h.get _)
    simp only [hsub]
    exact ⟨_, rfl⟩

theorem parameterLine_total (h : v.InRange) {value : Value} (hvalue : value.InRange)
    (symbol : String) : ∃ line, parameterLine p value v symbol = .ok line := by
  obtain ⟨x, hx⟩ := hvalue.numberOrZero
  rw [parameterLine]
  cases p.kind with
  | fixedOption => exact choiceLine_total h hvalue _ symbol
  | numericValue | derivedCalc =>
    simp only [hx]
    exact ⟨_, rfl⟩

theorem exists_itemOf {symbol : String} : (∃ item, itemOf p v symbol = .ok item) ↔
    (p.key ≠ quantityName → ∃ shown, Form.isVisible p v = .ok shown ∧
      (shown = true → ∃ value, v.read p.name = .ok value ∧
        (value.isBlank = false → ∃ line, parameterLine p value v symbol = .ok line))) := by
  unfold itemOf
  split
  · rename_i hpriced
    exact iff_of_true ⟨none, rfl⟩ fun h => absurd hpriced h
  rename_i hpriced
  rw [exists_bind_eq_ok, forall_prop_of_true hpriced]
  refine exists_congr fun shown => and_congr_right fun _ => ?_
  cases shown with
  | false => exact iff_of_true ⟨none, rfl⟩ nofun
  | true =>
    rw [forall_prop_of_true rfl]
    refine exists_bind_eq_ok.trans (exists_congr fun value => and_congr_right fun _ => ?_)
    cases value.isBlank with
    | true => exact iff_of_true ⟨none, rfl⟩ nofun
    | false =>
      rw [forall_prop_of_true rfl]
      exact exists_bind_eq_ok.trans (exists_congr fun line => and_iff_left ⟨_, rfl⟩)

theorem itemOf_total (h : v.InRange) (hname : p.name.isName = true)
    (hparent : ∀ c, p.conditional = some c → c.parent.isName = true) (symbol : String) :
    ∃ item, itemOf p v symbol = .ok item := by
  obtain ⟨visible, hvisible⟩ := Form.isVisible_total h hparent
  obtain ⟨value, hread, hvalue⟩ := h.read hname
  have hline := parameterLine_total (p := p) h hvalue symbol
  exact exists_itemOf.mpr fun _ => ⟨visible, hvisible, fun _ => ⟨value, hread, fun _ => hline⟩⟩

/-! ## The form -/

theorem quantityOf_total (h : v.InRange) : ∃ quantity, quantityOf v = .ok quantity := by
  obtain ⟨x, hx⟩ := (h.get quantityName).number?
  rw [quantityOf, hx]
  exact ⟨_, rfl⟩

theorem mainUnitsOf_total {parameters : List Parameter} (h : v.InRange)
    (hnames : ∀ p ∈ parameters, p.name.isName = true) :
    ∃ units, mainUnitsOf parameters v = .ok units := by
  unfold mainUnitsOf
  split
  · exact ⟨1, rfl⟩
  · rename_i p hfind
    obtain ⟨value, hread, hvalue⟩ := h.read (hnames p (List.mem_of_find?_eq_some hfind))
    obtain ⟨x, hx⟩ := hvalue.numberOrZero
    rw [hread, ok_bind, hx]
    exact ⟨x, rfl⟩

theorem priceForm_total {parameters : List Parameter} (h : v.InRange)
    (hnames : ∀ name ∈ Schema.namesUsed parameters, name.isName = true) (currency : Currency) :
    ∃ q, priceForm parameters v currency = .ok q := by
  have hname : ∀ p ∈ parameters, p.name.isName = true := fun p hp =>
    hnames _ (List.mem_append_left _ (List.mem_append_left _ (List.mem_map_of_mem hp)))
  have hparent : ∀ p ∈ parameters, ∀ c, p.conditional = some c → c.parent.isName = true := by
    intro p hp c hc
    refine hnames _ (List.mem_append_right _ (List.mem_filterMap.mpr ⟨p, hp, ?_⟩))
    rw [hc]
    rfl
  obtain ⟨m, hresolve, hm⟩ := Derived.resolve_total h fun name hname' =>
    hnames name (Schema.namesOf_subset_namesUsed parameters hname')
  obtain ⟨quantity, hquantity⟩ := quantityOf_total hm
  obtain ⟨units, hunits⟩ := mainUnitsOf_total hm hname
  obtain ⟨items, hitems⟩ := mapM_total fun p hp =>
    itemOf_total hm (hname p hp) (hparent p hp) currency.symbol
  simp only [priceForm, hresolve, hquantity, hunits, hitems, ok_bind]
  exact ⟨_, rfl⟩

theorem quote_of_priceForm {parameters : List Parameter} {code : Value} {q : Quote}
    (h : priceForm parameters v (Currency.ofCode code) = .ok q) : quote parameters v code = q := by
  rw [quote, h]

/-- Whatever else is wrong with a schema that was read, a form within range has a price: the quote
is never the one for a form that cannot be priced. -/
theorem quote_of_loaded {data name : Value} {schema : ProductSchema}
    (hschema : ProductSchema.ofValue data name = .ok schema) (hv : v.InRange) (code : Value) :
    ∃ q, priceForm schema.parameters v (Currency.ofCode code) = .ok q ∧
      quote schema.parameters v code = q := by
  have hnames := Schema.namesUsed_isName (ProductSchema.normal_of_ofValue hschema)
  obtain ⟨q, hq⟩ := priceForm_total hv hnames (Currency.ofCode code)
  exact ⟨q, hq, quote_of_priceForm hq⟩

/-- Names that are taken twice, derived parameters that wait for each other and for themselves, a
formula that cannot be read, and prices that are no numbers or infinite. -/
def jumbleData : Value := .list [
  .object [
    ("name", "a"), ("type", "DerivedCalc"), ("formula", "b / a"),
    ("dependencies", .list ["b", "a", "nowhere"]), ("pricing", .object [("unit_price", .nan 0)])],
  .object [
    ("name", "b"), ("type", "DerivedCalc"), ("formula", "a * ("), ("dependencies", .list ["a"]),
    ("pricing", .object [("base_price", .int 5), ("multiplier", .float (Number.infinity false))])],
  .object [
    ("name", "size"), ("type", "FixedOption"), ("isMainUnits", .bool true),
    ("options", .list [
      .object [("label", "Large"), ("value", "nan"), ("pricing", .object [("base_price", .int 4)])]])],
  .object [
    ("name", "size"), ("type", "NumericValue"), ("isMainUnits", .bool true),
    ("pricing", .object [("base_price", .int 3)]),
    ("conditional", .object [("parentParameter", "size"), ("showWhen", .list ["0"])])]]

def jumbleAnswers : FormValues :=
  ⟨[⟨"size", .nan 0⟩, ⟨"quantity", .float (Number.infinity false)⟩, ⟨"a", .bool true⟩]⟩

theorem jumble_has_a_price : ∃ schema q, ProductSchema.ofValue jumbleData = .ok schema ∧
    priceForm schema.parameters jumbleAnswers (Currency.ofCode "USD") = .ok q ∧
    quote schema.parameters jumbleAnswers "USD" = q ∧ (q.total == 3) = true := by
  have hprice : (ProductSchema.ofValue jumbleData).toOption.any (fun schema =>
      (quote schema.parameters jumbleAnswers "USD").total == 3) = true := by
    decide +kernel
  obtain ⟨schema, hschema, htotal⟩ := ok_of_any hprice
  have hrange : jumbleAnswers.InRange := FormValues.inRange_of_entries (by decide +kernel)
  obtain ⟨q, hq, hquote⟩ := quote_of_loaded hschema hrange "USD"
  exact ⟨schema, q, hschema, hq, hquote, hquote ▸ htotal⟩

end Price

end Quotation
