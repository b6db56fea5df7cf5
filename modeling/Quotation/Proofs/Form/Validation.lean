import Mathlib.Tactic.Ring
import Quotation.Proofs.Form.Agreement
import Quotation.Proofs.Price.Range

/-!
# Which forms can be checked

A check compares the value of a parent with what its children are shown for, a chosen option with
the options there are, and a number with its limits. It has an answer unless one of the values it
reads for that is a whole number beyond the largest double. Values that no check reads may be of any
size.
-/

namespace Quotation

theorem intToFloat_iff {n : Int} : (∃ x, intToFloat n = .ok x) ↔ (Value.int n).InRange := by
  rw [Value.InRange, intToFloat]
  cases Number.ofInt n <;> simp

theorem Value.optionKey_iff {value : Value} :
    (∃ s, value.optionKey = .ok s) ↔ value.InRange := by
  cases value with
  | int n =>
    rw [← intToFloat_iff, optionKey, exists_bind_eq_ok]
    simp [pure_eq_ok]
  | _ => exact iff_of_true ⟨_, rfl⟩ trivial

theorem Value.number?_iff {value : Value} :
    (∃ x, value.number? = .ok x) ↔ value.InRange := by
  cases value with
  | int n =>
    rw [← intToFloat_iff, number?, exists_bind_eq_ok]
    simp [pure_eq_ok]
  | _ => exact iff_of_true ⟨_, rfl⟩ trivial

theorem Value.inRange_of_isBlank {value : Value} (h : value.isBlank = true) : value.InRange := by
  cases value with
  | int n => cases h
  | _ => trivial

theorem findChoice_iff {α : Type} {valueOf : α → String} {choices : List α} {chosen : Value} :
    (∃ found, findChoice valueOf choices chosen = .ok found) ↔
      (choices ≠ [] → chosen.InRange) := by
  constructor
  · rintro ⟨found, hfound⟩ hchoices
    unfold findChoice at hfound
    split at hfound
    · rename_i hskip
      have hblank : chosen.isBlank = true := by simpa [hchoices] using hskip
      exact Value.inRange_of_isBlank hblank
    · obtain ⟨s, hs, -⟩ := bind_eq_ok.mp hfound
      exact Value.optionKey_iff.mp ⟨s, hs⟩
  · intro h
    cases choices with
    | nil => exact ⟨none, by simp [findChoice, pure, Except.pure]⟩
    | cons choice choices => exact findChoice_total (h (List.cons_ne_nil _ _))

namespace Form

variable {p : Parameter} {parameters : List Parameter} {v : FormValues}

/-! ## What is read -/

def ParentInRange (p : Parameter) (v : FormValues) : Prop :=
  ∀ c, p.conditional = some c → (v.get c.parentKey).InRange

structure Named (p : Parameter) : Prop where
  name : p.name.isName = true
  parent : ∀ c, p.conditional = some c → c.parent.isName = true

theorem Named.read (h : Named p) : v.read p.name = .ok (v.get p.key) := if_pos h.name

def RequiredInRange (p : Parameter) (v : FormValues) : Prop :=
  p.required = true → p.isDerived = false → ParentInRange p v

/-- The chosen option is looked up if there are any, and the sub-option if it has any. -/
def ChoiceInRange (p : Parameter) (v : FormValues) : Prop :=
  p.required = true → p.isChoice = true → ParentInRange p v ∧
    (isVisible p v = .ok true →
      (p.options ≠ [] → (v.get p.key).InRange) ∧
      ∀ option, p.findOption (v.get p.key) = .ok (some option) →
        option.subOptions ≠ [] → (v.get p.subName).InRange)

def NumberInRange (p : Parameter) (v : FormValues) : Prop :=
  p.kind = .numericValue → ParentInRange p v ∧
    (isVisible p v = .ok true → (v.get p.key).InRange)

theorem inRange_read (h : v.InRange) (p : Parameter) :
    RequiredInRange p v ∧ ChoiceInRange p v ∧ NumberInRange p v := by
  have hparent : ParentInRange p v := fun c _ => h.get c.parentKey
  have hvalue : (v.get p.key).InRange := h.get p.key
  have hsub : (v.get p.subName).InRange := h.get p.subName
  exact ⟨fun _ _ => hparent, fun _ _ => ⟨hparent, fun _ => ⟨fun _ => hvalue, fun _ _ _ => hsub⟩⟩,
    fun _ => ⟨hparent, fun _ => hvalue⟩⟩

/-! ## One parameter -/

theorem isVisible_iff (h : Named p) :
    (∃ visible, isVisible p v = .ok visible) ↔ ParentInRange p v := by
  unfold isVisible ParentInRange
  cases hc : p.conditional with
  | none => simp
  | some c =>
    have hread : v.read c.parent = .ok (v.get c.parentKey) := if_pos (h.parent c hc)
    simp only [hread, ok_bind, Option.some.injEq, forall_eq']
    split
    · rename_i hvalue
      simp [hvalue, Value.InRange, pure_eq_ok]
    · rw [exists_bind_eq_ok, ← Value.optionKey_iff]
      simp [pure_eq_ok]

theorem whenVisible_iff {α : Type} (h : Named p) {none : α} {rest : Except ValueFault α} :
    (∃ found, (do if !(← isVisible p v) then return none
                  rest) = .ok found) ↔
      ParentInRange p v ∧ (isVisible p v = .ok true → ∃ found, rest = .ok found) := by
  rw [exists_bind_eq_ok, ← isVisible_iff h]
  constructor
  · rintro ⟨visible, hvisible, hrest⟩
    refine ⟨⟨visible, hvisible⟩, fun hshown => ?_⟩
    rw [hvisible] at hshown
    cases hshown
    exact hrest
  · rintro ⟨⟨visible, hvisible⟩, hrest⟩
    refine ⟨visible, hvisible, ?_⟩
    cases visible with
    | false => exact ⟨none, rfl⟩
    | true => exact hrest hvisible

theorem checkRequired_iff (h : Named p) :
    (∃ found, checkRequired p v = .ok found) ↔ RequiredInRange p v := by
  unfold checkRequired RequiredInRange
  split
  · rename_i hskip
    refine ⟨fun _ hrequired hfilled => ?_, fun _ => ⟨none, rfl⟩⟩
    simp [hrequired, hfilled] at hskip
  · rename_i hcheck
    obtain ⟨hrequired, hfilled⟩ : p.required = true ∧ p.isDerived = false := by simpa using hcheck
    rw [whenVisible_iff h, h.read]
    simp [hrequired, hfilled]

theorem checkSubOption_iff (h : Named p) :
    (∃ found, checkSubOption p v = .ok found) ↔ ChoiceInRange p v := by
  unfold checkSubOption ChoiceInRange
  split
  · rename_i hskip
    refine ⟨fun _ hrequired hchoice => ?_, fun _ => ⟨none, rfl⟩⟩
    simp [hrequired, hchoice] at hskip
  · rename_i hcheck
    obtain ⟨hrequired, hchoice⟩ : p.required = true ∧ p.isChoice = true := by simpa using hcheck
    have hfind : (∃ found, p.findOption (v.get p.key) = .ok found) ↔
        (p.options ≠ [] → (v.get p.key).InRange) := findChoice_iff
    rw [whenVisible_iff h, h.read, ok_bind]
    simp only [hrequired, hchoice, forall_const, ← hfind]
    refine and_congr_right fun _ => imp_congr_right fun _ => ?_
    cases p.findOption (v.get p.key) with
    | error fault => simp
    | ok option? =>
      cases option? with
      | none => simp [pure_eq_ok]
      | some option =>
        have hsub : (∃ found, option.findSubOption (v.get p.subName) = .ok found) ↔
            (option.subOptions ≠ [] → (v.get p.subName).InRange) := findChoice_iff
        simp only [ok_bind, Except.ok.injEq, Option.some.injEq, exists_eq', true_and, forall_eq']
        split
        · rename_i hempty
          exact iff_of_true ⟨none, rfl⟩ fun hsubs => absurd (List.isEmpty_iff.mp hempty) hsubs
        · split
          · rename_i hblank
            exact iff_of_true ⟨_, rfl⟩ fun _ => Value.inRange_of_isBlank hblank
          · rw [← hsub, exists_bind_eq_ok]
            refine exists_congr fun sub? => and_iff_left ?_
            cases sub? <;> exact ⟨_, rfl⟩

theorem checkRange_iff (h : Named p) :
    (∃ found, checkRange p v = .ok found) ↔ NumberInRange p v := by
  unfold checkRange NumberInRange
  split
  · rename_i hskip
    refine ⟨fun _ hnumber => ?_, fun _ => ⟨none, rfl⟩⟩
    simp [hnumber] at hskip
  · rename_i hcheck
    have hnumber : p.kind = .numericValue := by simpa using hcheck
    rw [whenVisible_iff h, h.read, ok_bind]
    simp only [hnumber, forall_const]
    refine and_congr_right fun _ => imp_congr_right fun _ => ?_
    split
    · rename_i hblank
      exact ⟨fun _ => Value.inRange_of_isBlank hblank, fun _ => ⟨none, rfl⟩⟩
    · rw [exists_bind_eq_ok, ← Value.number?_iff]
      refine exists_congr fun x => and_iff_left ?_
      split
      · exact ⟨_, rfl⟩
      · split <;> exact ⟨_, rfl⟩

/-! ## The form -/

theorem messages_iff {check : Parameter → FormValues → Except ValueFault (Option Problem)} :
    (∃ found, messages check parameters v = .ok found) ↔
      ∀ p ∈ parameters, ∃ found, check p v = .ok found := by
  unfold messages
  simp only [exists_bind_eq_ok, pure_eq_ok, exists_eq', and_true, mapM_iff]

section

variable (h : ∀ p ∈ parameters, Named p)

include h

theorem requiredMessages_iff :
    (∃ found, requiredMessages parameters v = .ok found) ↔
      ∀ p ∈ parameters, RequiredInRange p v :=
  messages_iff.trans (forall₂_congr fun p hp => checkRequired_iff (h p hp))

theorem subOptionMessages_iff :
    (∃ found, subOptionMessages parameters v = .ok found) ↔ ∀ p ∈ parameters, ChoiceInRange p v :=
  messages_iff.trans (forall₂_congr fun p hp => checkSubOption_iff (h p hp))

theorem rangeMessages_iff :
    (∃ found, rangeMessages parameters v = .ok found) ↔ ∀ p ∈ parameters, NumberInRange p v :=
  messages_iff.trans (forall₂_congr fun p hp => checkRange_iff (h p hp))

theorem validate_iff :
    (∃ found, validate parameters v = .ok found) ↔
      ∀ p ∈ parameters, RequiredInRange p v ∧ ChoiceInRange p v ∧ NumberInRange p v := by
  simp only [forall_and, ← requiredMessages_iff h, ← subOptionMessages_iff h,
    ← rangeMessages_iff h]
  unfold validate
  simp only [exists_bind_eq_ok, pure_eq_ok, exists_eq', and_true]
  constructor
  · rintro ⟨_, hrequired, _, hsub, _, hrange⟩
    exact ⟨⟨_, hrequired⟩, ⟨_, hsub⟩, ⟨_, hrange⟩⟩
  · rintro ⟨⟨_, hrequired⟩, ⟨_, hsub⟩, ⟨_, hrange⟩⟩
    exact ⟨_, hrequired, _, hsub, _, hrange⟩

end

theorem named_of_ofValue {data name : Value} {schema : ProductSchema}
    (h : ProductSchema.ofValue data name = .ok schema) : ∀ p ∈ schema.parameters, Named p := by
  have hnames := Schema.textNames_of_ofValue h
  exact fun p hp => ⟨(hnames.name p hp).isName, fun c hc => (hnames.parent p hp c hc).isName⟩

/-- A form within range can be checked against any schema that was read. -/
theorem validate_total {data name : Value} {schema : ProductSchema}
    (hschema : ProductSchema.ofValue data name = .ok schema) (hv : v.InRange) :
    ∃ found, validate schema.parameters v = .ok found :=
  (validate_iff (named_of_ofValue hschema)).mpr fun p _ => inRange_read hv p

/-- The checks of a schema that was read have answers for just those forms whose values they read
are within range. -/
theorem checks_have_answers {data name : Value} {schema : ProductSchema}
    (hschema : ProductSchema.ofValue data name = .ok schema) (v : FormValues) :
    ((∃ found, requiredMessages schema.parameters v = .ok found) ↔
        ∀ p ∈ schema.parameters, RequiredInRange p v) ∧
      ((∃ found, subOptionMessages schema.parameters v = .ok found) ↔
        ∀ p ∈ schema.parameters, ChoiceInRange p v) ∧
      ((∃ found, rangeMessages schema.parameters v = .ok found) ↔
        ∀ p ∈ schema.parameters, NumberInRange p v) ∧
      ((∃ found, validate schema.parameters v = .ok found) ↔
        ∀ p ∈ schema.parameters,
          RequiredInRange p v ∧ ChoiceInRange p v ∧ NumberInRange p v) := by
  have hnamed := named_of_ofValue hschema
  exact ⟨requiredMessages_iff hnamed, subOptionMessages_iff hnamed, rangeMessages_iff hnamed,
    validate_iff hnamed⟩

def posterData : Value := .list [
  .object [
    ("name", "mode"), ("type", "FixedOption"), ("options", .list [
      .object [("label", "A"), ("value", "a")], .object [("label", "B"), ("value", "b")]])],
  .object [
    ("name", "finish"), ("type", "FixedOption"), ("required", .bool true), ("options", .list [
      .object [("label", "MATTE"), ("value", "matte")]]),
    ("conditional", .object [("parentParameter", "mode"), ("showWhen", .list ["a"])])],
  .object [
    ("name", "width"), ("type", "NumericValue"), ("required", .bool true), ("min", .int 1),
    ("conditional", .object [("parentParameter", "mode"), ("showWhen", .list ["a"])])]]

/-- The finish, which nothing asks for in the other mode, may be of any size. -/
def posterAnswers : FormValues :=
  ⟨[⟨"mode", "b"⟩, ⟨"finish", .int (10 ^ 400)⟩, ⟨"width", .float (Number.infinity false)⟩]⟩

theorem poster_is_checked : ∃ schema, ProductSchema.ofValue posterData = .ok schema ∧
    validate schema.parameters posterAnswers = .ok [] ∧
    ∀ p ∈ schema.parameters, RequiredInRange p posterAnswers ∧ ChoiceInRange p posterAnswers ∧
      NumberInRange p posterAnswers := by
  have hchecked : (ProductSchema.ofValue posterData).toOption.any (fun schema =>
      decide (validate schema.parameters posterAnswers = .ok [])) = true := by
    decide +kernel
  obtain ⟨schema, hschema, hvalidate⟩ := ok_of_any hchecked
  have hfound := of_decide_eq_true hvalidate
  exact ⟨schema, hschema, hfound,
    (checks_have_answers hschema posterAnswers).2.2.2.mp ⟨[], hfound⟩⟩

/-- A mode beyond the largest double is not one of the modes, but no check has an answer. -/
theorem poster_is_not_checked : ∃ schema, ProductSchema.ofValue posterData = .ok schema ∧
    requiredMessages schema.parameters ⟨[⟨"mode", .int (10 ^ 400)⟩]⟩ = .error .tooLarge ∧
    subOptionMessages schema.parameters ⟨[⟨"mode", .int (10 ^ 400)⟩]⟩ = .error .tooLarge ∧
    rangeMessages schema.parameters ⟨[⟨"mode", .int (10 ^ 400)⟩]⟩ = .error .tooLarge ∧
    validate schema.parameters ⟨[⟨"mode", .int (10 ^ 400)⟩]⟩ = .error .tooLarge := by
  have hfails : (ProductSchema.ofValue posterData).toOption.any (fun schema => decide (
      requiredMessages schema.parameters ⟨[⟨"mode", .int (10 ^ 400)⟩]⟩ = .error .tooLarge ∧
      subOptionMessages schema.parameters ⟨[⟨"mode", .int (10 ^ 400)⟩]⟩ = .error .tooLarge ∧
      rangeMessages schema.parameters ⟨[⟨"mode", .int (10 ^ 400)⟩]⟩ = .error .tooLarge ∧
      validate schema.parameters ⟨[⟨"mode", .int (10 ^ 400)⟩]⟩ = .error .tooLarge)) = true := by
    decide +kernel
  obtain ⟨schema, hschema, hfaults⟩ := ok_of_any hfails
  exact ⟨schema, hschema, of_decide_eq_true hfaults⟩

end Form

end Quotation
