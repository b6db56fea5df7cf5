import Quotation.Proofs.Number.Nearest
import Quotation.Proofs.Schema.Normal
import Quotation.Proofs.Schema.Typed

/-!
# Reading without a check

Parameters are read from checked data, or from loose objects as they are. On values of the declared
types both come to the same, whatever is missing, empty or zero.
-/

namespace Quotation

variable {value checked : Value}

/-! ## Numbers -/

theorem number_of_settles (h : Shape.number.Settles value checked) :
    ∃ x, value.toFloat = .ok x ∧ checked = .float x ∧ value.isGiven = !(x == 0) ∧
      value.isBlank = false := by
  obtain ⟨htyped, hcheck⟩ := h
  obtain ⟨x, hx, rfl⟩ := Checked.map_eq_ok.mp hcheck
  cases value with
  | int n =>
    cases hn : Number.ofInt n with
    | none =>
      simp only [checkNumber, hn] at hx
      cases hx
    | some y =>
      simp only [checkNumber, hn] at hx
      cases hx
      refine ⟨x, by simp only [Value.toFloat, intToFloat, hn], rfl, ?_, rfl⟩
      rw [Number.ofInt_beq_zero hn, Value.isGiven]
      by_cases hzero : n = 0 <;> simp [hzero]
  | float y =>
    cases hx
    exact ⟨x, rfl, rfl, rfl, rfl⟩
  | nan mark =>
    cases hx
    have hnan : (Number.notANumber == 0) = false := by decide
    exact ⟨_, rfl, rfl, by rw [hnan]; rfl, rfl⟩
  | _ => cases htyped

theorem asNumber_of_settles (h : Shape.number.Settles value checked) :
    value.asNumber = checked.asNumber := by
  obtain ⟨x, hx, rfl, -, -⟩ := number_of_settles h
  rw [Value.asNumber, hx]
  rfl

theorem readOptionalNumber_of_settles (h : (Shape.optional .number).Settles value checked) :
    readOptionalNumber value = readOptionalNumber checked := by
  rcases h.optional with ⟨rfl, rfl⟩ | h
  · rfl
  · have hsame := asNumber_of_settles h
    obtain ⟨x, -, rfl, -, hblank⟩ := number_of_settles h
    rw [readOptionalNumber, hblank, hsame]
    rfl

theorem price_of_settles (h : Shape.number.Settles value checked) :
    (value.orElse (.int 0)).asNumber = (checked.orElse (.int 0)).asNumber := by
  have hsame := asNumber_of_settles h
  obtain ⟨x, -, rfl, hgiven, -⟩ := number_of_settles h
  have hgiven' : (Value.float x).isGiven = !(x == 0) := rfl
  rw [Value.orElse, Value.orElse, hgiven, hgiven']
  split
  · exact hsame
  · rfl

/-! ## Fields -/

section

variable {shape : Shape} {given kept : List (String × Value)} {key : String}

theorem ne_null_of_settles (h : shape.Settles value checked) (hnull : shape.admitsNull = false) :
    value ≠ .null ∧ checked ≠ .null := by
  constructor
  · rintro rfl
    rw [Shape.admitsNull_of_check h.check] at hnull
    cases hnull
  · rintro rfl
    rw [Shape.admitsNull_of_exact (shape.exact_of_check h.check)] at hnull
    cases hnull

theorem fieldOr_of_settles (h : shape.Settles (fieldOf given key) (fieldOf kept key))
    (hnull : shape.admitsNull = false) (default : Value) :
    shape.Settles (fieldOr given key default) (fieldOr kept key default) := by
  obtain ⟨hgiven, hkept⟩ := ne_null_of_settles h hnull
  rw [fieldOr_eq_fieldOf hgiven, fieldOr_eq_fieldOf hkept]
  exact h

/-- A reader that takes all that is not given for null takes such a default for null, too. -/
theorem read_fieldOr {α : Type} (read : Value → α)
    (hread : ∀ value, value.isGiven = false → read value = read .null) {default : Value}
    (h : default.isGiven = false) :
    read (fieldOr given key default) = read (fieldOf given key) := by
  rw [fieldOf, fieldOr, fieldOr]
  cases given.lookup key with
  | some value => rfl
  | none => exact hread default h

theorem orElse_fieldOr {default : Value} (h : default.isGiven = false) (other : Value) :
    (fieldOr given key default).orElse other = (fieldOf given key).orElse other := by
  refine read_fieldOr (·.orElse other) (fun value hvalue => ?_) h
  rw [Value.orElse, hvalue]
  rfl

theorem isGiven_fieldOr {default : Value} (h : default.isGiven = false) :
    (fieldOr given key default).isGiven = (fieldOf given key).isGiven :=
  read_fieldOr Value.isGiven (fun _ hvalue => hvalue) h

theorem asItems_fieldOr {default : Value} (h : default.isGiven = false) :
    (fieldOr given key default).asItems = (fieldOf given key).asItems := by
  refine read_fieldOr Value.asItems (fun value hvalue => ?_) h
  unfold Value.asItems
  rw [if_neg (Bool.eq_false_iff.mp hvalue)]
  rfl

theorem sameOptional {asked : Shape} {other : Option String} (h : shape.SettlesIn given kept)
    (key : String) (hasked : shape.field? key = some (.optional key asked other))
    (verbatim : asked.isVerbatim = true) : fieldOf given key = fieldOf kept key :=
  ((h.optional hasked).eq_of_verbatim (.optional asked) verbatim).symm

theorem sameRequired {asked : Shape} {other : Option String} (h : shape.SettlesIn given kept)
    (hasked : shape.field? key = some (.required key asked other))
    (verbatim : asked.isVerbatim = true) (hnull : asked.admitsNull = false) (default : Value) :
    fieldOr given key default = fieldOr kept key default :=
  ((fieldOr_of_settles (h.required hasked) hnull default).eq_of_verbatim asked verbatim).symm

theorem sameDefault {asked : Shape} {default : Value} {other : Option String}
    (h : shape.SettlesIn given kept)
    (hasked : shape.field? key = some (.withDefault key asked default other))
    (verbatim : asked.isVerbatim = true) : fieldOr given key default = fieldOf kept key :=
  ((h.withDefault hasked).eq_of_verbatim asked verbatim).symm

theorem sameNumber {other : Option String} (h : shape.SettlesIn given kept) (key : String)
    (hasked : shape.field? key = some (.optional key .number other)) :
    readOptionalNumber (fieldOf given key) = readOptionalNumber (fieldOf kept key) :=
  readOptionalNumber_of_settles (h.optional hasked)

theorem isGiven_of_field (h : fieldOf given key ≠ .null) : (Value.object given).isGiven = true := by
  cases given with
  | nil => exact absurd rfl h
  | cons entry given => rfl

end

/-! ## Lists -/

theorem mapM_of_settles {α : Type} {item : Shape} {read : Value → Except ReadError α}
    (hread : ∀ value checked, item.Settles value checked → read value = read checked)
    {values items : List Value} (h : List.Forall₂ item.Settles values items) :
    values.mapM read = items.mapM read := by
  induction h with
  | nil => rfl
  | cons hvalue _ ih => rw [List.mapM_cons, List.mapM_cons, hread _ _ hvalue, ih]

theorem items_of_settles {α : Type} {item : Shape} {read : Value → Except ReadError α}
    (hread : ∀ value checked, item.Settles value checked → read value = read checked)
    (h : (Shape.optional (.list item)).Settles value checked) :
    ∃ values items, value.asItems = .ok values ∧ checked.asItems = .ok items ∧
      values.mapM read = items.mapM read := by
  rcases h.optional with ⟨rfl, rfl⟩ | h
  · exact ⟨[], [], rfl, rfl, rfl⟩
  · obtain ⟨values, items, rfl, rfl, hitems⟩ := h.list
    exact ⟨values, items, asItems_list values, asItems_list items, mapM_of_settles hread hitems⟩

/-! ## Records -/

theorem stepPricing_of_settles (h : (Shape.optional Payload.stepPricing).Settles value checked) :
    StepPricing.ofValue value = StepPricing.ofValue checked := by
  rcases h.optional with ⟨rfl, rfl⟩ | h
  · rfl
  · obtain ⟨given, kept, rfl, rfl, hfields⟩ := h.record (by decide) (by decide)
    have hthreshold : Shape.number.Settles (fieldOf given "threshold") (fieldOf kept "threshold") :=
      hfields.required rfl
    have hamount : Shape.number.Settles (fieldOf given "step_amount") (fieldOf kept "step_amount") :=
      hfields.required rfl
    have hfield := asNumber_of_settles (fieldOr_of_settles hthreshold rfl (.int 0))
    have hfield' := asNumber_of_settles (fieldOr_of_settles hamount rfl (.int 0))
    obtain ⟨hgiven, hkept⟩ := ne_null_of_settles hthreshold rfl
    rw [StepPricing.ofValue, StepPricing.ofValue, isGiven_of_field hgiven, isGiven_of_field hkept]
    simp only [Value.asObject, ok_bind, StepPricing.ofFields, hfield, hfield']

theorem pricingRule_ofValue_object (fields : List (String × Value)) :
    PricingRule.ofValue (.object fields) = PricingRule.ofFields fields := by
  cases fields <;> rfl

theorem pricingRule_of_settles (h : Payload.pricingRule.Settles value checked) :
    PricingRule.ofValue value = PricingRule.ofValue checked := by
  obtain ⟨given, kept, rfl, rfl, hfields⟩ := h.record (by decide) (by decide)
  have hstep : StepPricing.ofValue (fieldOf given "step_pricing") =
      StepPricing.ofValue (fieldOf kept "step_pricing") :=
    stepPricing_of_settles (hfields.optional rfl)
  simp only [pricingRule_ofValue_object, PricingRule.ofFields,
    sameNumber hfields "base_price" rfl, sameNumber hfields "unit_price" rfl,
    sameNumber hfields "multiplier" rfl, hstep]

theorem pricing_of_settles {given kept : List (String × Value)}
    (h : Payload.pricingRule.Settles (fieldOr given "pricing" (.object []))
      (fieldOf kept "pricing")) :
    PricingRule.ofValue (fieldOf given "pricing") = PricingRule.ofValue (fieldOf kept "pricing") := by
  rw [← pricingRule_of_settles h, read_fieldOr PricingRule.ofValue (fun value hvalue => ?_) rfl]
  rw [PricingRule.ofValue, hvalue]
  rfl

theorem subOption_of_settles (h : Payload.subOption.Settles value checked) :
    SubOption.ofValue value = SubOption.ofValue checked := by
  obtain ⟨given, kept, rfl, rfl, hfields⟩ := h.record (by decide) (by decide)
  have hid : fieldOf given "id" = fieldOf kept "id" := sameOptional hfields _ rfl rfl
  have hlabel : fieldOr given "label" (.text "") = fieldOr kept "label" (.text "") :=
    sameRequired hfields rfl rfl rfl _
  have hvalue : fieldOr given "value" (.text "") = fieldOr kept "value" (.text "") :=
    sameRequired hfields rfl rfl rfl _
  have hdescription : fieldOf given "description" = fieldOf kept "description" :=
    sameOptional hfields _ rfl rfl
  have hscope : fieldOf given "pricingScope" = fieldOf kept "pricingScope" :=
    sameOptional hfields _ rfl rfl
  have hprice : ((fieldOf given "price").orElse (.int 0)).asNumber =
      ((fieldOf kept "price").orElse (.int 0)).asNumber := by
    rw [← price_of_settles (hfields.withDefault rfl), orElse_fieldOr rfl]
  simp only [SubOption.ofValue, Value.asObject, ok_bind, SubOption.ofFields, hid, hlabel, hvalue,
    hdescription, hprice, hscope]

theorem fixedOption_of_settles (h : Payload.fixedOption.Settles value checked) :
    FixedOption.ofValue value = FixedOption.ofValue checked := by
  obtain ⟨given, kept, rfl, rfl, hfields⟩ := h.record (by decide) (by decide)
  have hlabel : fieldOr given "label" (.text "") = fieldOr kept "label" (.text "") :=
    sameRequired hfields rfl rfl rfl _
  have hvalue : fieldOr given "value" (.text "") = fieldOr kept "value" (.text "") :=
    sameRequired hfields rfl rfl rfl _
  have hdescription : fieldOf given "description" = fieldOf kept "description" :=
    sameOptional hfields _ rfl rfl
  have hpricing := pricing_of_settles (hfields.withDefault rfl)
  have hlist : (Shape.optional (.list Payload.subOption)).Settles (fieldOf given "subOptions")
      (fieldOf kept "subOptions") := hfields.optional rfl
  obtain ⟨values, items, hvalues, hitems, hsubOptions⟩ :=
    items_of_settles (fun _ _ => subOption_of_settles) hlist
  simp only [FixedOption.ofValue, Value.asObject, ok_bind, FixedOption.ofFields, hlabel, hvalue,
    hdescription, hpricing, hvalues, hitems, hsubOptions]

theorem conditional_of_settles (h : (Shape.optional Payload.conditional).Settles value checked) :
    Conditional.ofValue value = Conditional.ofValue checked := by
  rcases h.optional with ⟨rfl, rfl⟩ | h
  · rfl
  · obtain ⟨given, kept, rfl, rfl, hfields⟩ := h.record (by decide) (by decide)
    have hparent : Shape.text.Settles (fieldOf given "parentParameter")
        (fieldOf kept "parentParameter") := hfields.required rfl
    have hname : fieldOr given "parentParameter" (.text "") =
        fieldOr kept "parentParameter" (.text "") := sameRequired hfields rfl rfl rfl _
    have hshowWhen : fieldOr given "showWhen" (.list []) = fieldOf kept "showWhen" :=
      sameDefault hfields rfl rfl
    have hitems : (fieldOf given "showWhen").asItems = (fieldOf kept "showWhen").asItems := by
      rw [← hshowWhen, asItems_fieldOr rfl]
    obtain ⟨hgiven, hkept⟩ := ne_null_of_settles hparent rfl
    rw [Conditional.ofValue, Conditional.ofValue, isGiven_of_field hgiven, isGiven_of_field hkept]
    simp only [Value.asObject, ok_bind, Conditional.ofFields, hname, hitems]

theorem parameter_of_settles (h : Payload.parameter.Settles value checked) :
    Parameter.ofValue value = Parameter.ofValue checked := by
  obtain ⟨given, kept, rfl, rfl, hfields⟩ := h.record (by decide) (by decide)
  have hname : fieldOr given "name" (.text "") = fieldOr kept "name" (.text "") :=
    sameRequired hfields rfl rfl rfl _
  have hkind : fieldOf given "type" = fieldOf kept "type" := sameRequired hfields rfl rfl rfl _
  have hlabel : (fieldOf given "label").orElse (.text "") =
      (fieldOf kept "label").orElse (.text "") := by
    rw [← sameDefault hfields rfl rfl, orElse_fieldOr rfl]
  have hflag {other : Option String} (key : String)
      (hkey : Payload.parameter.field? key = some (.withDefault key .flag (.bool false) other)) :
      (fieldOf given key).isGiven = (fieldOf kept key).isGiven := by
    rw [← sameDefault hfields hkey rfl, isGiven_fieldOr rfl]
  have hpricing := pricing_of_settles (hfields.withDefault rfl)
  have hlist : (Shape.optional (.list Payload.fixedOption)).Settles (fieldOf given "options")
      (fieldOf kept "options") := hfields.optional rfl
  obtain ⟨values, items, hvalues, hitems, hoptions⟩ :=
    items_of_settles (fun _ _ => fixedOption_of_settles) hlist
  have hconditional : Conditional.ofValue (fieldOf given "conditional") =
      Conditional.ofValue (fieldOf kept "conditional") :=
    conditional_of_settles (hfields.optional rfl)
  simp only [Parameter.ofValue, Value.asObject, ok_bind, Parameter.ofFields, hname, hkind, hlabel,
    hpricing, hvalues, hitems, hoptions, hconditional, hflag "required" rfl,
    hflag "isMainUnits" rfl, sameOptional hfields "id" rfl rfl,
    sameOptional hfields "description" rfl rfl, sameOptional hfields "unit" rfl rfl,
    sameOptional hfields "formula" rfl rfl, sameOptional hfields "dependencies" rfl rfl,
    sameOptional hfields "pricingScope" rfl rfl, sameNumber hfields "min" rfl,
    sameNumber hfields "max" rfl, sameNumber hfields "step" rfl,
    sameNumber hfields "unitsPerQuantity" rfl]

/-! ## Schemas -/

theorem schema_typed {items : List Value}
    (typed : ∀ item ∈ items, Payload.parameter.isTyped item = true) :
    Payload.schema.isTyped (.object [("parameters", .list items)]) = true := by
  simpa [Payload.schema, Shape.isTyped, Shape.areTyped, Shape.isTypedField, FieldShape.withDefault,
    FieldShape.required, List.lookup_cons] using typed

/-- The parameters of a schema that was read from a list of objects are the ones that the objects
describe, if all known fields have the declared types and stand under their first keys. -/
theorem readers_agree {items : List Value} {name : Value} {schema : ProductSchema}
    (h : ProductSchema.ofValue (.list items) name = .ok schema)
    (typed : ∀ item ∈ items, Payload.parameter.isTyped item = true) :
    readParameters items = .ok schema.parameters := by
  unfold ProductSchema.ofValue ProductSchema.toObject at h
  cases hcheck : Payload.schema.check (.object [("parameters", .list items)]) with
  | error issues =>
    simp only [hcheck] at h
    cases h
  | ok checked =>
    simp only [hcheck] at h
    have hsettles : Payload.schema.Settles (.object [("parameters", .list items)]) checked :=
      ⟨schema_typed typed, hcheck⟩
    obtain ⟨given, kept, hgiven, rfl, hfields⟩ := hsettles.record (by decide) (by decide)
    cases hgiven
    have hlist : (Shape.list Payload.parameter).Settles
        (fieldOf [("parameters", .list items)] "parameters") (fieldOf kept "parameters") :=
      hfields.required rfl
    obtain ⟨values, keptItems, hvalues, hkept, hitems⟩ := hlist.list
    cases hvalues
    have hread : ProductSchema.ofFields kept name = .ok schema := mapError_eq_ok.mp h
    simp only [ProductSchema.ofFields, hkept, asItems_list, ok_bind, bind_eq_ok, pure_eq_ok]
      at hread
    obtain ⟨parameters, hparameters, _, -, _, -, rfl⟩ := hread
    rw [← hparameters]
    exact mapM_of_settles (fun _ _ => parameter_of_settles) hitems

/-- A sheet with two sides, the second without a surcharge. Names of its own and fields that hold
nothing do no harm. -/
def leafletItems : List Value := [
  .object [
    ("name", "sides"), ("type", "FixedOption"), ("label", ""), ("required", .bool true),
    ("colour", .list [.int 1]), ("id", .null), ("dependencies", .null), ("options", .list [
      .object [
        ("label", "Two"), ("value", "2"), ("pricing", .object [("base_price", .int 5)]),
        ("subOptions", .list [
          .object [("label", "Gloss"), ("value", "g"), ("price", .int 0), ("pricingScope", .null)],
          .object [("label", "Matte"), ("value", "m"), ("price", .int 7),
            ("pricingScope", "per_unit")]])],
      .object [("label", "One"), ("value", ""), ("description", .null)]])],
  .object [
    ("name", "pages"), ("type", "NumericValue"), ("unit", ""), ("min", .int 0), ("max", .null),
    ("isMainUnits", .bool false), ("pricing", .object [
      ("unit_price", .float 0.5), ("multiplier", .int 0),
      ("step_pricing", .object [("threshold", .int 100), ("step_amount", .int (-1))])]),
    ("conditional", .object [("parentParameter", "sides")])],
  .object [
    ("name", "weight"), ("type", "DerivedCalc"), ("formula", "pages / 4"),
    ("dependencies", .list ["pages"])]]

def leafletTerms : List Parameter.Terms := [
  { name := "sides", options := [
    { value := "2", pricing := { basePrice := some 5 },
      subOptions := [("g", 0, none), ("m", 7, some .perUnit)] },
    { value := "" }] },
  { name := "pages",
    pricing := { unitPrice := some 0.5, multiplier := some 0, step := some ⟨100, -1⟩ } },
  { name := "weight", formula := some "pages / 4" }]

theorem leaflet_is_read_either_way : ∃ schema,
    ProductSchema.ofValue (.list leafletItems) = .ok schema ∧
    readParameters leafletItems = .ok schema.parameters ∧
    schema.parameters.map Parameter.terms = leafletTerms := by
  have hloads : (ProductSchema.ofValue (.list leafletItems)).toOption.any (fun schema =>
      decide (schema.parameters.map Parameter.terms = leafletTerms)) = true := by
    decide +kernel
  obtain ⟨schema, hschema, hterms⟩ := ok_of_any hloads
  exact ⟨schema, hschema, readers_agree hschema (by decide +kernel), of_decide_eq_true hterms⟩

end Quotation
