import Quotation.Proofs.Schema.Recheck
import Quotation.Proofs.Schema.Written

/-!
# Saving and loading parameters

A parameter in normal form is written as data that passes the check of its shape, and is read back
from what the check gives. The parameters of a schema are normal, so that nothing is lost when they
are saved and loaded again.
-/

namespace Quotation

/-! ## Normal parameters are as they are read -/

theorem Value.IsText.orElse_empty {value : Value} (h : value.IsText) :
    value.orElse (.text "") = value := by
  obtain ⟨s, rfl⟩ := h
  by_cases hs : s = "" <;> simp [orElse, isGiven, hs]

theorem isGiven_of_nonEmpty {value : Value} (h : Shape.nonEmptyText.Exact value) :
    value.isGiven = true := by
  obtain ⟨s, rfl, hs⟩ := h
  exact (Value.isGiven_text s).mpr hs

theorem SubOption.Normal.asRead {s : SubOption} (h : s.Normal) : s.AsRead :=
  ⟨h.id, h.description.orElse_empty⟩

theorem SubOption.Normal.plain {s : SubOption} (h : s.Normal) : s.withPlainPrice = s := by
  have hprice : plainZero s.price = s.price := by
    unfold plainZero
    split
    · rename_i hzero
      exact (h.price hzero).symm
    · rfl
  rw [SubOption.withPlainPrice, hprice]

theorem FixedOption.Normal.asRead {o : FixedOption} (h : o.Normal) : o.AsRead :=
  ⟨h.description.orElse_empty, fun s hs => (h.subOptions s hs).asRead⟩

theorem FixedOption.Normal.plain {o : FixedOption} (h : o.Normal) : o.withPlainPrices = o := by
  rw [FixedOption.withPlainPrices, List.map_congr_left fun s hs => (h.subOptions s hs).plain,
    List.map_id']

theorem Parameter.Normal.asRead {p : Parameter} (h : p.Normal) : p.AsRead where
  id := fun hempty => absurd hempty h.id
  label := h.label.orElse_empty
  description := h.description.orElse_empty
  options := fun o ho => (h.options o ho).asRead
  unit := fun unit hunit => isGiven_of_nonEmpty (h.unit unit hunit)
  formula := fun formula hformula => isGiven_of_nonEmpty (h.formula formula hformula)

theorem Parameter.Normal.plain {p : Parameter} (h : p.Normal) : p.withPlainPrices = p := by
  rw [Parameter.withPlainPrices, List.map_congr_left fun o ho => (h.options o ho).plain,
    List.map_id']

/-! ## What is written is in exact form -/

section

variable {α : Type} {shape : Shape}

theorem exact_getD {o : Option Value} (h : ∀ v, o = some v → shape.Exact v) :
    (Shape.optional shape).Exact (o.getD .null) := by
  cases o with
  | none => exact .inl rfl
  | some v => exact .inr (h v rfl)

theorem exact_written {write : α → Value} (h : ∀ a, shape.Exact (write a)) (o : Option α) :
    (Shape.optional shape).Exact ((o.map write).getD .null) := by
  refine exact_getD fun v hv => ?_
  obtain ⟨a, -, rfl⟩ := Option.map_eq_some_iff.mp hv
  exact h a

theorem exact_items {items : List Value} (h : ∀ i ∈ items, shape.Exact i) :
    (Shape.optional (.list shape)).Exact (itemsOrNull items) := by
  rw [itemsOrNull]
  split
  · exact .inl rfl
  · exact .inr ⟨items, rfl, h⟩

end

theorem exact_float (x : Float) : Shape.number.Exact (.float x) := ⟨x, rfl⟩

theorem PricingScope.exact_toValue (scope : PricingScope) : Payload.scope.Exact scope.toValue :=
  ⟨scope.label, by cases scope <;> simp [PricingScope.all], rfl⟩

theorem ParameterKind.exact_label (kind : ParameterKind) : Payload.kind.Exact (.text kind.label) :=
  ⟨kind.label, by cases kind <;> simp [ParameterKind.all], rfl⟩

theorem StepPricing.exact_toValue (step : StepPricing) : Payload.stepPricing.Exact step.toValue :=
  ⟨_, rfl, .cons (exact_float step.threshold) <| .cons (exact_float step.stepAmount) .nil⟩

theorem PricingRule.exact_toValue (rule : PricingRule) :
    Payload.pricingRule.Exact rule.toValue := by
  refine ⟨_, ?_, .cons (exact_written exact_float rule.basePrice) <|
    .cons (exact_written exact_float rule.unitPrice) <|
    .cons (exact_written exact_float rule.multiplier) <|
    .cons (exact_written StepPricing.exact_toValue rule.step) .nil⟩
  obtain ⟨_ | basePrice, _ | unitPrice, _ | multiplier, _ | step⟩ := rule <;> rfl

theorem SubOption.exact_toValue {s : SubOption} (h : s.Normal) :
    Payload.subOption.Exact s.toValue := by
  refine ⟨_, ?_, .cons (.inr ⟨s.id, rfl⟩) <| .cons h.label <| .cons ⟨s.value, rfl⟩ <|
    .cons (.inr h.description) <| .cons (exact_float s.price) <|
    .cons (exact_written PricingScope.exact_toValue s.scope) .nil⟩
  obtain ⟨label, hlabel⟩ := h.label
  obtain ⟨description, hdescription⟩ := h.description
  rw [SubOption.toValue, hlabel, hdescription]
  cases s.scope <;> rfl

theorem FixedOption.exact_toValue {o : FixedOption} (h : o.Normal) :
    Payload.fixedOption.Exact o.toValue := by
  have hsubs : ∀ s ∈ o.subOptions.map SubOption.toValue, Payload.subOption.Exact s :=
    List.forall_mem_map.mpr fun s hs => SubOption.exact_toValue (h.subOptions s hs)
  refine ⟨_, ?_, .cons h.label <| .cons ⟨o.value, rfl⟩ <| .cons (.inr h.description) <|
    .cons o.pricing.exact_toValue <| .cons (exact_items hsubs) .nil⟩
  obtain ⟨label, hlabel⟩ := h.label
  obtain ⟨description, hdescription⟩ := h.description
  rw [FixedOption.toValue, hlabel, hdescription]
  cases o.subOptions <;> rfl

theorem Conditional.exact_toValue {c : Conditional} (h : c.parent.IsText) :
    Payload.conditional.Exact c.toValue := by
  have htexts : ∀ value ∈ c.showWhen.map Value.text, value.IsText :=
    List.forall_mem_map.mpr fun s _ => ⟨s, rfl⟩
  refine ⟨_, ?_, .cons h <| .cons ⟨_, rfl, htexts⟩ .nil⟩
  obtain ⟨parent, hparent⟩ := h
  rw [Conditional.toValue, hparent]
  rfl

/-! ## Parameters -/

namespace Parameter

variable {p : Parameter}

theorem exact_entries (h : p.Normal) : Shape.ExactFields Payload.parameter.fields p.entries := by
  have hdescription : ∀ v, readGiven p.description = some v → v.IsText := by
    intro v hv
    exact isText_of_nonEmpty (nonEmpty_of_readGiven (.inr h.description) hv)
  have hoptions : ∀ o ∈ p.options.map FixedOption.toValue, Payload.fixedOption.Exact o :=
    List.forall_mem_map.mpr fun o ho => FixedOption.exact_toValue (h.options o ho)
  have hunit : ∀ v, p.unit = some v → v.IsText := fun v hv => isText_of_nonEmpty (h.unit v hv)
  have hformula : ∀ v, p.formula = some v → v.IsText :=
    fun v hv => isText_of_nonEmpty (h.formula v hv)
  have hconditional : ∀ v, p.conditional.map Conditional.toValue = some v →
      Payload.conditional.Exact v := by
    intro v hv
    obtain ⟨c, hc, rfl⟩ := Option.map_eq_some_iff.mp hv
    exact Conditional.exact_toValue (h.conditional c hc)
  exact .cons (.inr ⟨p.id, rfl⟩) <| .cons h.name <| .cons h.label <|
    .cons (exact_getD hdescription) <| .cons p.kind.exact_label <| .cons ⟨p.required, rfl⟩ <|
    .cons p.pricing.exact_toValue <| .cons (exact_items hoptions) <|
    .cons (exact_written exact_float p.min) <| .cons (exact_written exact_float p.max) <|
    .cons (exact_written exact_float p.step) <| .cons (exact_getD hunit) <|
    .cons (exact_getD hformula) <| .cons (exact_items h.dependencies) <|
    .cons (exact_getD hconditional) <| .cons ⟨p.isMainUnits, rfl⟩ <|
    .cons (exact_written exact_float p.unitsPerQuantity) <|
    .cons (exact_written PricingScope.exact_toValue p.scope) .nil

/-- The fields are written in an order of their own, and a flag that is down is left out. -/
theorem check_toValue (h : p.Normal) :
    Payload.parameter.check p.toValue = .ok (.object (withoutNulls p.entries)) := by
  -- Fields that are written under a condition are read as nothing where it fails.
  have hdescription : (if p.description.isGiven = true then some p.description else none) =
      readGiven p.description := rfl
  have hdependencies : (if p.dependencies = [] then none
      else some (Value.list p.dependencies)).getD .null = itemsOrNull p.dependencies := by
    cases p.dependencies <;> rfl
  have hisMainUnits : (if p.isMainUnits = true then some (Value.bool true) else none).getD
      (.bool false) = .bool p.isMainUnits := by
    cases p.isMainUnits <;> rfl
  refine Shape.check_record (Shape.checkFields_of_exact _ (by decide) (exact_entries h) ?_ ?_)
  · simp [FieldShape.optional, FieldShape.required, FieldShape.withDefault, FieldShape.valueIn,
      fieldOr, List.lookup_append, List.lookup_cons, entries, hdescription, items_written,
      hdependencies, hisMainUnits]
  · simp [FieldShape.optional, FieldShape.required, FieldShape.withDefault, List.lookup_append,
      List.lookup_cons]

theorem ofFields_entries (h : p.Normal) : Parameter.ofFields (withoutNulls p.entries) = .ok p := by
  have distinct : (p.entries.map (·.1)).Nodup := by simp [entries]
  have hread : ∀ entry ∈ p.entries, fieldOf (withoutNulls p.entries) entry.1 = entry.2 :=
    fun entry hentry => fieldOf_withoutNulls distinct hentry
  have hname : fieldOf (withoutNulls p.entries) "name" = p.name :=
    hread ("name", p.name) (by simp [entries])
  have hflag : fieldOf (withoutNulls p.entries) "isMainUnits" = .bool p.isMainUnits :=
    hread ("isMainUnits", .bool p.isMainUnits) (by simp [entries])
  have hnamed : fieldOf (withoutNulls p.entries) "name" ≠ .null := by
    obtain ⟨s, hs, -⟩ := h.name
    simp [hname, hs]
  rw [ofFields_of_entries h.asRead ((fieldOr_eq_fieldOf hnamed _).trans hname)
    (congrArg Value.isGiven hflag) fun entry hentry _ => hread entry hentry, h.plain]

end Parameter

/-! ## Schemas -/

def Payload.bareFields (parameters : List Value) : List (String × Value) :=
  [("name", ""), ("title", ""), ("description", ""), ("currency", "USD"),
    ("parameters", .list parameters), ("fileConnections", .list [])]

theorem Payload.check_parameters {values checked : List Value}
    (h : List.Forall₂ (fun value c => Payload.parameter.check value = .ok c) values checked) :
    Payload.schema.check (.object [("parameters", .list values)]) =
      .ok (.object (bareFields checked)) := by
  have hparameters : Shape.checkField (FieldShape.required "parameters" (.list Payload.parameter))
      [("parameters", .list values)] = .ok ("parameters", .list checked) :=
    Shape.checkField_of_check (by decide) nofun (Shape.check_list h)
  have hfields : Shape.checkFields Payload.schema.fields [("parameters", .list values)] =
      (bareFields checked).map .ok := by
    simp only [Payload.schema, Shape.fields, Shape.checkFields, hparameters]
    rfl
  exact Shape.check_record hfields

namespace ProductSchema

theorem ofFields_bareFields {values : List Value} {ps : List Parameter}
    (h : readParameters values = .ok ps) (name : Value) :
    ∃ schema, ofFields (Payload.bareFields values) name = .ok schema ∧ schema.parameters = ps := by
  have hitems : (fieldOf (Payload.bareFields values) "parameters").asItems = .ok values :=
    asItems_list values
  have hlinks : (fieldOf (Payload.bareFields values) "fileConnections").asItems = .ok [] :=
    asItems_list []
  rw [ofFields, hitems, ok_bind, h, ok_bind, hlinks]
  exact ⟨_, rfl, rfl⟩

/-- The parameters of a schema that was read are the same after they are saved and loaded again. -/
theorem reloads_what_was_saved {data name : Value} {schema : ProductSchema}
    (h : ofValue data name = .ok schema) (newName : Value) :
    ∃ saved, ofValue (.list (schema.parameters.map Parameter.toValue)) newName = .ok saved ∧
      saved.parameters = schema.parameters := by
  have hnormal := normal_of_ofValue h
  have hcheck : List.Forall₂ (fun value c => Payload.parameter.check value = .ok c)
      (schema.parameters.map Parameter.toValue)
      (schema.parameters.map fun p => .object (withoutNulls p.entries)) := by
    rw [List.forall₂_map_left_iff, List.forall₂_map_right_iff]
    exact List.forall₂_same.mpr fun p hp => Parameter.check_toValue (hnormal p hp)
  have hread : readParameters (schema.parameters.map fun p => .object (withoutNulls p.entries)) =
      .ok schema.parameters :=
    mapM_map_of_inverse fun p hp => Parameter.ofFields_entries (hnormal p hp)
  obtain ⟨saved, hsaved, hparameters⟩ := ofFields_bareFields hread newName
  refine ⟨saved, ?_, hparameters⟩
  rw [ofValue, toObject]
  simp only [Payload.check_parameters hcheck, Value.asObject, ok_bind, hsaved]
  rfl

/-- A sign whose finish has no name of its own and costs a negative zero, with fields that are empty
and fields under their second keys. -/
def signData : Value := .object [
  ("name", "Sign"),
  ("parameters", .list [
    .object [
      ("name", "board"), ("label", ""), ("type", "FixedOption"), ("required", "yes"),
      ("options", .list [
        .object [
          ("label", "Wood"), ("value", "wood"), ("pricing", .object [("base_price", "1_000")]),
          ("sub_options", .list [
            .object [("label", "Plain"), ("value", ""), ("price", .float (-0.0)),
              ("pricing_scope", "per_qty")]])],
        .object [("label", "Steel"), ("value", "steel"), ("subOptions", .list [])]])],
    .object [
      ("name", "depth"), ("type", "NumericValue"), ("min", .float (-0.0)), ("max", .int 30),
      ("unit", ""), ("is_main_units", .int 1), ("description", .null),
      ("pricing", .object [
        ("step_pricing", .object [("threshold", .int 10), ("step_amount", .float 0.5)])]),
      ("conditional", .object [("parent_parameter", "board")])],
    .object [
      ("name", "paint"), ("type", "DerivedCalc"), ("formula", "depth * 2"),
      ("dependencies", .list ["depth"]), ("pricing", .object [("unit_price", .int 3)])]])]

def signTerms : List Parameter.Terms := [
  { name := "board", options := [
    { value := "wood", pricing := { basePrice := some 1000 },
      subOptions := [("", 0, some .perQuantity)] },
    { value := "steel" }] },
  { name := "depth", pricing := { step := some ⟨10, 0.5⟩ } },
  { name := "paint", formula := some "depth * 2", pricing := { unitPrice := some 3 } }]

theorem sign_is_saved_whole : ∃ schema saved, ofValue signData = .ok schema ∧
    ofValue (.list (schema.parameters.map Parameter.toValue)) = .ok saved ∧
    saved.parameters = schema.parameters ∧ saved.parameters.map Parameter.terms = signTerms := by
  have hloads : (ofValue signData).toOption.any (fun schema =>
      decide (schema.parameters.map Parameter.terms = signTerms)) = true := by
    decide +kernel
  obtain ⟨schema, hschema, hterms⟩ := ok_of_any hloads
  obtain ⟨saved, hsaved, hparameters⟩ := reloads_what_was_saved hschema ""
  exact ⟨schema, saved, hschema, hsaved, hparameters, hparameters ▸ of_decide_eq_true hterms⟩

end ProductSchema

end Quotation
