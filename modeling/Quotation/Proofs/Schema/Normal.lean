import Quotation.Proofs.Schema.Shape
import Quotation.Schema.ProductSchema

/-!
# What is read from checked data

Each reader comes to a result on a value in exact form, whatever its optional fields hold. The result
is in normal form: names, labels and other descriptive fields are text, and what does not count as
given stands for its default.
-/

namespace Quotation

variable {value : Value}

/-! ## Normal forms -/

/-- An identifier is empty only if the value is, and the price is no negative zero. -/
structure SubOption.Normal (s : SubOption) : Prop where
  id : s.id = "" → s.value = ""
  label : s.label.IsText
  description : s.description.IsText
  price : (s.price == 0) = true → s.price = 0

structure FixedOption.Normal (o : FixedOption) : Prop where
  label : o.label.IsText
  description : o.description.IsText
  subOptions : ∀ s ∈ o.subOptions, s.Normal

/-- A parameter with a name, whose unit and formula are left out if they are empty. -/
structure Parameter.Normal (p : Parameter) : Prop where
  id : p.id ≠ ""
  name : Shape.nonEmptyText.Exact p.name
  label : p.label.IsText
  description : p.description.IsText
  options : ∀ o ∈ p.options, o.Normal
  unit : ∀ unit, p.unit = some unit → Shape.nonEmptyText.Exact unit
  formula : ∀ formula, p.formula = some formula → Shape.nonEmptyText.Exact formula
  dependencies : ∀ name ∈ p.dependencies, name.IsText
  conditional : ∀ c, p.conditional = some c → c.parent.IsText

/-! ## Single values -/

theorem Value.isGiven_text (s : String) : (Value.text s).isGiven = true ↔ s ≠ "" := by
  simp [Value.isGiven]

theorem isText_of_nonEmpty (h : Shape.nonEmptyText.Exact value) : value.IsText := by
  obtain ⟨s, rfl, -⟩ := h
  exact ⟨s, rfl⟩

theorem asNumber_of_exact (h : Shape.number.Exact value) : ∃ x, value.asNumber = .ok x := by
  obtain ⟨x, rfl⟩ := h
  exact ⟨x, rfl⟩

theorem readOptionalNumber_of_exact (h : (Shape.optional .number).Exact value) :
    ∃ x, readOptionalNumber value = .ok x := by
  rcases h with rfl | ⟨x, rfl⟩
  · exact ⟨none, rfl⟩
  · exact ⟨some x, rfl⟩

theorem readScope_label (scope : PricingScope) : readScope (.text scope.label) = .ok (some scope) := by
  cases scope <;> rfl

theorem readScope_of_exact (h : (Shape.optional Payload.scope).Exact value) :
    ∃ scope, readScope value = .ok scope := by
  rcases h with rfl | ⟨s, hs, rfl⟩
  · exact ⟨none, rfl⟩
  · obtain ⟨scope, -, rfl⟩ := List.mem_map.mp hs
    exact ⟨some scope, readScope_label scope⟩

theorem readKind_label (kind : ParameterKind) : readKind (.text kind.label) = .ok kind := by
  cases kind <;> rfl

theorem readKind_of_exact (h : Payload.kind.Exact value) : ∃ kind, readKind value = .ok kind := by
  obtain ⟨s, hs, rfl⟩ := h
  obtain ⟨kind, -, rfl⟩ := List.mem_map.mp hs
  exact ⟨kind, readKind_label kind⟩

theorem orElse_isText (h : (Shape.optional .text).Exact value) :
    (value.orElse (.text "")).IsText := by
  rw [Value.orElse]
  rcases h with rfl | ⟨s, rfl⟩
  · exact ⟨"", rfl⟩
  · split
    · exact ⟨s, rfl⟩
    · exact ⟨"", rfl⟩

theorem nonEmpty_of_readGiven (h : (Shape.optional .text).Exact value) {given : Value}
    (hgiven : readGiven value = some given) : Shape.nonEmptyText.Exact given := by
  unfold readGiven at hgiven
  split at hgiven
  · rename_i hvalue
    cases hgiven
    rcases h with rfl | ⟨s, rfl⟩
    · cases hvalue
    · exact ⟨s, rfl, (Value.isGiven_text s).mp hvalue⟩
  · cases hgiven

theorem shown_orElse_text (h : (Shape.optional .text).Exact value) (other : String) :
    (value.orElse (.text other)).shown = other ∨ (value.orElse (.text other)).shown ≠ "" := by
  rw [Value.orElse]
  rcases h with rfl | ⟨s, rfl⟩
  · exact .inl rfl
  · split
    · rename_i hgiven
      exact .inr ((Value.isGiven_text s).mp hgiven)
    · exact .inl rfl

theorem asItems_list (items : List Value) : (Value.list items).asItems = .ok items := by
  cases items <;> rfl

theorem items_of_exact {item : Shape} (h : (Shape.list item).Exact value) :
    ∃ items, value.asItems = .ok items ∧ ∀ i ∈ items, item.Exact i := by
  obtain ⟨items, rfl, hitems⟩ := h
  exact ⟨items, asItems_list items, hitems⟩

theorem items_of_optional {item : Shape} (h : (Shape.optional (.list item)).Exact value) :
    ∃ items, value.asItems = .ok items ∧ ∀ i ∈ items, item.Exact i := by
  rcases h with rfl | h
  · exact ⟨[], rfl, nofun⟩
  · exact items_of_exact h

theorem exact_fieldOr {shape : Shape} {fields : List (String × Value)} {key : String}
    (h : shape.Exact (fieldOf fields key)) (hnull : ¬ shape.Exact .null) (default : Value) :
    shape.Exact (fieldOr fields key default) := by
  have hne : fieldOf fields key ≠ .null := fun hnothing => hnull (hnothing ▸ h)
  rw [fieldOr_eq_fieldOf hne]
  exact h

theorem not_text_null : ¬ Shape.text.Exact .null := by
  rintro ⟨s, ⟨⟩⟩

theorem not_number_null : ¬ Shape.number.Exact .null := by
  rintro ⟨x, ⟨⟩⟩

theorem not_nonEmptyText_null : ¬ Shape.nonEmptyText.Exact .null := by
  rintro ⟨s, ⟨⟩, -⟩

theorem asNumber_zero : (Value.int 0).asNumber = .ok 0 := by
  have hzero : Number.ofInt 0 = some 0 := by decide
  rw [Value.asNumber, Value.toFloat, intToFloat, hzero]
  rfl

theorem price_of_exact (h : Shape.number.Exact value) :
    ∃ x, (value.orElse (.int 0)).asNumber = .ok x ∧ ((x == 0) = true → x = 0) := by
  obtain ⟨x, rfl⟩ := h
  rw [Value.orElse]
  split
  · rename_i hgiven
    refine ⟨x, rfl, fun hzero => ?_⟩
    simp [Value.isGiven, hzero] at hgiven
  · exact ⟨0, asNumber_zero, fun _ => rfl⟩

/-! ## Records -/

theorem Shape.Exact.eq_object {fields : List FieldShape} (h : (Shape.record fields).Exact value) :
    ∃ given, value = .object given := by
  obtain ⟨given, rfl, -⟩ := h
  exact ⟨withoutNulls given, rfl⟩

theorem stepPricing_of_exact (h : (Shape.optional Payload.stepPricing).Exact value) :
    ∃ step, StepPricing.ofValue value = .ok step := by
  rcases h with rfl | h
  · exact ⟨none, rfl⟩
  · obtain ⟨fields, rfl⟩ := h.eq_object
    have hthreshold : Shape.number.Exact (fieldOf fields "threshold") := h.field (by decide) rfl
    have hamount : Shape.number.Exact (fieldOf fields "step_amount") := h.field (by decide) rfl
    obtain ⟨threshold, hthreshold⟩ :=
      asNumber_of_exact (exact_fieldOr hthreshold not_number_null (.int 0))
    obtain ⟨amount, hamount⟩ := asNumber_of_exact (exact_fieldOr hamount not_number_null (.int 0))
    rw [StepPricing.ofValue]
    split
    · refine ⟨some ⟨threshold, amount⟩, ?_⟩
      simp only [StepPricing.ofFields, Value.asObject, hthreshold, hamount, ok_bind]
      rfl
    · exact ⟨none, rfl⟩

theorem pricingRule_of_exact (h : Payload.pricingRule.Exact value) :
    ∃ rule, PricingRule.ofValue value = .ok rule := by
  obtain ⟨fields, rfl⟩ := h.eq_object
  have hnumber : ∀ key, Payload.pricingRule.fieldShape? key = some (.optional .number) →
      ∃ x, readOptionalNumber (fieldOf fields key) = .ok x :=
    fun key hkey => readOptionalNumber_of_exact (h.field (by decide) hkey)
  obtain ⟨basePrice, hbasePrice⟩ := hnumber "base_price" rfl
  obtain ⟨unitPrice, hunitPrice⟩ := hnumber "unit_price" rfl
  obtain ⟨multiplier, hmultiplier⟩ := hnumber "multiplier" rfl
  have hstep : (Shape.optional Payload.stepPricing).Exact (fieldOf fields "step_pricing") :=
    h.field (by decide) rfl
  obtain ⟨step, hstep⟩ := stepPricing_of_exact hstep
  rw [PricingRule.ofValue]
  split
  · refine ⟨⟨basePrice, unitPrice, multiplier, step⟩, ?_⟩
    simp only [PricingRule.ofFields, Value.asObject, hbasePrice, hunitPrice, hmultiplier, hstep,
      ok_bind]
    rfl
  · exact ⟨{}, rfl⟩

theorem subOption_of_exact (h : Payload.subOption.Exact value) :
    ∃ s, SubOption.ofValue value = .ok s ∧ s.Normal := by
  obtain ⟨fields, rfl⟩ := h.eq_object
  have hid : (Shape.optional .text).Exact (fieldOf fields "id") := h.field (by decide) rfl
  have hlabel : Shape.text.Exact (fieldOf fields "label") := h.field (by decide) rfl
  have hvalue : Shape.text.Exact (fieldOf fields "value") := h.field (by decide) rfl
  have hdescription : (Shape.optional .text).Exact (fieldOf fields "description") :=
    h.field (by decide) rfl
  have hprice : Shape.number.Exact (fieldOf fields "price") := h.field (by decide) rfl
  have hscope : (Shape.optional Payload.scope).Exact (fieldOf fields "pricingScope") :=
    h.field (by decide) rfl
  obtain ⟨text, htext⟩ := exact_fieldOr hvalue not_text_null (.text "")
  obtain ⟨price, hprice, hzero⟩ := price_of_exact hprice
  obtain ⟨scope, hscope⟩ := readScope_of_exact hscope
  simp only [SubOption.ofValue, SubOption.ofFields, Value.asObject, htext, hprice, hscope, ok_bind]
  refine ⟨_, rfl, fun hempty => ?_, exact_fieldOr hlabel not_text_null _,
    orElse_isText hdescription, hzero⟩
  exact (shown_orElse_text hid text).elim (fun hsame => hsame.symm.trans hempty)
    (absurd hempty)

theorem fixedOption_of_exact (h : Payload.fixedOption.Exact value) :
    ∃ o, FixedOption.ofValue value = .ok o ∧ o.Normal := by
  obtain ⟨fields, rfl⟩ := h.eq_object
  have hlabel : Shape.text.Exact (fieldOf fields "label") := h.field (by decide) rfl
  have hdescription : (Shape.optional .text).Exact (fieldOf fields "description") :=
    h.field (by decide) rfl
  have hpricing : Payload.pricingRule.Exact (fieldOf fields "pricing") := h.field (by decide) rfl
  have hsubOptions : (Shape.optional (.list Payload.subOption)).Exact (fieldOf fields "subOptions") :=
    h.field (by decide) rfl
  obtain ⟨pricing, hpricing⟩ := pricingRule_of_exact hpricing
  obtain ⟨items, hitems, hexact⟩ := items_of_optional hsubOptions
  obtain ⟨subOptions, hread, hnormal⟩ :=
    mapM_total_of fun item hitem => subOption_of_exact (hexact item hitem)
  simp only [FixedOption.ofValue, FixedOption.ofFields, Value.asObject, hpricing, hitems, hread,
    ok_bind]
  exact ⟨_, rfl, exact_fieldOr hlabel not_text_null _, orElse_isText hdescription, hnormal⟩

theorem conditional_of_exact (h : (Shape.optional Payload.conditional).Exact value) :
    ∃ conditional, Conditional.ofValue value = .ok conditional ∧
      ∀ c, conditional = some c → c.parent.IsText := by
  rcases h with rfl | h
  · exact ⟨none, rfl, nofun⟩
  · obtain ⟨fields, rfl⟩ := h.eq_object
    have hparent : Shape.text.Exact (fieldOf fields "parentParameter") := h.field (by decide) rfl
    have hshowWhen : (Shape.list .text).Exact (fieldOf fields "showWhen") := h.field (by decide) rfl
    obtain ⟨items, hitems, -⟩ := items_of_exact hshowWhen
    rw [Conditional.ofValue]
    split
    · simp only [Conditional.ofFields, Value.asObject, hitems, ok_bind]
      refine ⟨_, rfl, ?_⟩
      rintro c ⟨⟩
      exact exact_fieldOr hparent not_text_null _
    · exact ⟨none, rfl, nofun⟩

theorem parameter_of_exact (h : Payload.parameter.Exact value) :
    ∃ p, Parameter.ofValue value = .ok p ∧ p.Normal := by
  obtain ⟨fields, rfl⟩ := h.eq_object
  have hnumber : ∀ key, Payload.parameter.fieldShape? key = some (.optional .number) →
      ∃ x, readOptionalNumber (fieldOf fields key) = .ok x :=
    fun key hkey => readOptionalNumber_of_exact (h.field (by decide) hkey)
  have htext : ∀ key, Payload.parameter.fieldShape? key = some (.optional .text) →
      (Shape.optional .text).Exact (fieldOf fields key) := fun key hkey => h.field (by decide) hkey
  have hname : Shape.nonEmptyText.Exact (fieldOf fields "name") := h.field (by decide) rfl
  have hlabel : Shape.text.Exact (fieldOf fields "label") := h.field (by decide) rfl
  have hkind : Payload.kind.Exact (fieldOf fields "type") := h.field (by decide) rfl
  have hpricing : Payload.pricingRule.Exact (fieldOf fields "pricing") := h.field (by decide) rfl
  have hoptions : (Shape.optional (.list Payload.fixedOption)).Exact (fieldOf fields "options") :=
    h.field (by decide) rfl
  have hdependencies : (Shape.optional (.list .text)).Exact (fieldOf fields "dependencies") :=
    h.field (by decide) rfl
  have hconditional : (Shape.optional Payload.conditional).Exact (fieldOf fields "conditional") :=
    h.field (by decide) rfl
  have hscope : (Shape.optional Payload.scope).Exact (fieldOf fields "pricingScope") :=
    h.field (by decide) rfl
  obtain ⟨kind, hkind⟩ := readKind_of_exact hkind
  obtain ⟨pricing, hpricing⟩ := pricingRule_of_exact hpricing
  obtain ⟨items, hitems, hexact⟩ := items_of_optional hoptions
  obtain ⟨options, hoptions, hnormal⟩ :=
    mapM_total_of fun item hitem => fixedOption_of_exact (hexact item hitem)
  obtain ⟨min, hmin⟩ := hnumber "min" rfl
  obtain ⟨max, hmax⟩ := hnumber "max" rfl
  obtain ⟨step, hstep⟩ := hnumber "step" rfl
  obtain ⟨names, hnames, htexts⟩ := items_of_optional hdependencies
  obtain ⟨conditional, hconditional, hparent⟩ := conditional_of_exact hconditional
  obtain ⟨units, hunits⟩ := hnumber "unitsPerQuantity" rfl
  obtain ⟨scope, hscope⟩ := readScope_of_exact hscope
  obtain ⟨name, hnametext, hnonempty⟩ := exact_fieldOr hname not_nonEmptyText_null (.text "")
  simp only [Parameter.ofValue, Parameter.ofFields, Value.asObject, hkind, hpricing, hitems,
    hoptions, hmin, hmax, hstep, hnames, hconditional, hunits, hscope, hnametext, ok_bind]
  refine ⟨_, rfl, ?_⟩
  exact {
    id := by
      rcases shown_orElse_text (htext "id" rfl) name with hsame | hgiven
      · exact ne_of_eq_of_ne hsame hnonempty
      · exact hgiven
    name := ⟨name, rfl, hnonempty⟩
    label := orElse_isText (.inr hlabel)
    description := orElse_isText (htext "description" rfl)
    options := hnormal
    unit := fun unit => nonEmpty_of_readGiven (htext "unit" rfl)
    formula := fun formula => nonEmpty_of_readGiven (htext "formula" rfl)
    dependencies := htexts
    conditional := hparent }

/-! ## Schemas -/

namespace ProductSchema

/-- Each item that checked data lists describes one parameter or one connection of the schema. -/
structure ReadFrom (fields : List (String × Value)) (schema : ProductSchema) : Prop where
  parameters : ∃ items, fieldOf fields "parameters" = .list items ∧
    List.Forall₂ (fun item p => Parameter.ofValue item = .ok p) items schema.parameters
  connections : ∃ items, fieldOf fields "fileConnections" = .list items ∧
    List.Forall₂ (fun item c => FileConnection.ofValue item = .ok c) items schema.connections

theorem schema_of_exact {fields : List (String × Value)}
    (h : Payload.schema.Exact (.object fields)) (name : Value) :
    ∃ schema, ofFields fields name = .ok schema ∧ ReadFrom fields schema ∧
      ∀ p ∈ schema.parameters, p.Normal := by
  have hparameters : (Shape.list Payload.parameter).Exact (fieldOf fields "parameters") :=
    h.field (by decide) rfl
  have hconnections : (Shape.list Payload.fileConnection).Exact
      (fieldOf fields "fileConnections") := h.field (by decide) rfl
  obtain ⟨items, hitems, hexact⟩ := hparameters
  obtain ⟨parameters, hparameters, hnormal⟩ :=
    mapM_total_of fun item hitem => parameter_of_exact (hexact item hitem)
  obtain ⟨links, hlinks, hobjects⟩ := hconnections
  obtain ⟨connections, hconnections⟩ : ∃ connections, links.mapM FileConnection.ofValue =
      .ok connections := mapM_total fun link hlink => by
    obtain ⟨given, rfl⟩ := (hobjects link hlink).eq_object
    exact ⟨_, rfl⟩
  simp only [ofFields, hitems, hlinks, asItems_list, readParameters, hparameters, hconnections,
    ok_bind]
  exact ⟨_, rfl, ⟨⟨items, hitems, mapM_eq_ok.mp hparameters⟩,
    ⟨links, hlinks, mapM_eq_ok.mp hconnections⟩⟩, hnormal⟩

theorem ofValue_cases (data name : Value) :
    (∃ fields schema, Payload.schema.check (toObject data) = .ok (.object fields) ∧
      ofValue data name = .ok schema ∧ ReadFrom fields schema ∧
      ∀ p ∈ schema.parameters, p.Normal) ∨
    ∃ issues, Payload.schema.check (toObject data) = .error issues ∧
      ofValue data name = .error (.invalid (name.orElse (givenName (toObject data))) issues) := by
  unfold ofValue
  cases hcheck : Payload.schema.check (toObject data) with
  | error issues => exact .inr ⟨issues, rfl, by simp only [hcheck]⟩
  | ok checked =>
    have hexact := Payload.schema.exact_of_check hcheck
    obtain ⟨fields, rfl⟩ := hexact.eq_object
    obtain ⟨schema, hread, hfrom, hnormal⟩ := schema_of_exact hexact name
    refine .inl ⟨fields, schema, rfl, ?_, hfrom, hnormal⟩
    simp only [hcheck, Value.asObject, ok_bind, hread]
    rfl

theorem normal_of_ofValue {data name : Value} {schema : ProductSchema}
    (h : ofValue data name = .ok schema) : ∀ p ∈ schema.parameters, p.Normal := by
  obtain ⟨_, other, -, hread, -, hnormal⟩ | ⟨_, -, hrefused⟩ := ofValue_cases data name
  · rw [h] at hread
    cases hread
    exact hnormal
  · rw [h] at hrefused
    cases hrefused

end ProductSchema

/-! ## Terms -/

structure FixedOption.Terms where
  value : String
  pricing : PricingRule := {}
  subOptions : List (String × Float × Option PricingScope) := []
  deriving DecidableEq

structure Parameter.Terms where
  name : String
  formula : Option String := none
  pricing : PricingRule := {}
  options : List FixedOption.Terms := []
  deriving DecidableEq

def FixedOption.terms (o : FixedOption) : FixedOption.Terms where
  value := o.value
  pricing := o.pricing
  subOptions := o.subOptions.map fun s => (s.id, s.price, s.scope)

def Parameter.terms (p : Parameter) : Parameter.Terms where
  name := p.name.shown
  formula := p.formula.map Value.shown
  pricing := p.pricing
  options := p.options.map FixedOption.terms

end Quotation
