import Mathlib.Data.List.Perm.Basic
import Quotation.Proofs.Form.Validation

/-!
# What a check of a form reports

A shown parameter can be in one of three states at most: it lacks an answer, its chosen option lacks
a sub-option, or its number does not fit. A form within range gets one message for each parameter
that is in one of them, which tells what is wrong, and none for any other.
-/

namespace Quotation

namespace Form

/-! ## States -/

structure Unanswered (p : Parameter) (v : FormValues) : Prop where
  required : p.required = true
  filledIn : p.kind ≠ .derivedCalc
  blank : (v.get p.key).isBlank = true

def Chosen (p : Parameter) (v : FormValues) (option : FixedOption) : Prop :=
  (v.get p.key).isBlank = false ∧ ∃ key, (v.get p.key).optionKey = .ok key ∧
    p.options.find? (·.value == key) = some option

def NoneOf (p : Parameter) (v : FormValues) (option : FixedOption) : Prop :=
  (v.get p.subName).isBlank = false ∧ ∃ key, (v.get p.subName).optionKey = .ok key ∧
    ∀ sub ∈ option.subOptions, sub.value ≠ key

/-- A required choice whose option has sub-options, none of which is chosen. -/
structure Unrefined (p : Parameter) (v : FormValues) : Prop where
  required : p.required = true
  choice : p.kind = .fixedOption
  chosen : ∃ option, Chosen p v option ∧ option.subOptions ≠ [] ∧
    ((v.get p.subName).isBlank = true ∨ NoneOf p v option)

/-- A number to enter that is given, but is not a number or not within its limits. -/
structure Unfit (p : Parameter) (v : FormValues) : Prop where
  entered : p.kind = .numericValue
  given : (v.get p.key).isBlank = false
  number : (v.get p.key).number? = .ok none ∨ ∃ x, (v.get p.key).number? = .ok (some x) ∧
    ((∃ limit ∈ p.min, x < limit) ∨ ∃ limit ∈ p.max, x > limit)

def Problem.Describes (p : Parameter) (v : FormValues) : Problem → Prop
  | missing => Unanswered p v
  | noSubOption option =>
    Unrefined p v ∧ Chosen p v option ∧ (v.get p.subName).isBlank = true
  | wrongSubOption value option =>
    Unrefined p v ∧ Chosen p v option ∧ NoneOf p v option ∧ value = v.get p.subName
  | notANumber => Unfit p v ∧ (v.get p.key).number? = .ok none
  | below limit =>
    Unfit p v ∧ p.min = some limit ∧ ∃ x, (v.get p.key).number? = .ok (some x) ∧ x < limit
  | above limit =>
    Unfit p v ∧ p.max = some limit ∧ ∃ x, (v.get p.key).number? = .ok (some x) ∧ x > limit ∧
      ∀ low ∈ p.min, ¬ x < low

structure OneAtMost (p : Parameter) (v : FormValues) : Prop where
  unanswered : Unanswered p v → ¬ Unrefined p v ∧ ¬ Unfit p v
  unrefined : Unrefined p v → ¬ Unfit p v

variable {p : Parameter} {parameters : List Parameter} {v : FormValues}

theorem oneAtMost (p : Parameter) (v : FormValues) : OneAtMost p v := by
  constructor
  · intro h
    constructor
    · rintro ⟨-, -, option, ⟨hgiven, -⟩, -⟩
      rw [h.blank] at hgiven
      cases hgiven
    · intro hunfit
      have hgiven := hunfit.given
      rw [h.blank] at hgiven
      cases hgiven
  · intro h hunfit
    have hkind := hunfit.entered
    rw [h.choice] at hkind
    cases hkind

/-! ## One parameter -/

/-- What a check finds that looks for a state: a problem if the parameter is shown and in the state,
and nothing otherwise. -/
structure Finds (p : Parameter) (v : FormValues) (state : Prop) (found : Option Problem) : Prop where
  found_iff : found.isSome = true ↔ isVisible p v = .ok true ∧ state
  describes : ∀ problem ∈ found, problem.Describes p v

theorem finds_nothing {state : Prop} (h : ¬ state) : Finds p v state none :=
  ⟨iff_of_false nofun fun h' => h h'.2, nofun⟩

theorem finds_problem {state : Prop} {problem : Problem} (hshown : isVisible p v = .ok true)
    (hstate : state) (h : problem.Describes p v) : Finds p v state (some problem) := by
  refine ⟨iff_of_true rfl ⟨hshown, hstate⟩, ?_⟩
  rintro _ ⟨⟩
  exact h

theorem whenVisible_finds (h : Named p) (hv : v.InRange) {state : Prop}
    {rest : Except ValueFault (Option Problem)}
    (hrest : isVisible p v = .ok true → ∃ found, rest = .ok found ∧ Finds p v state found) :
    ∃ found, (do if !(← isVisible p v) then return none
                 rest) = .ok found ∧ Finds p v state found := by
  obtain ⟨visible, hvisible⟩ := isVisible_total hv h.parent
  rw [hvisible, ok_bind]
  cases visible with
  | false =>
    refine ⟨none, rfl, iff_of_false nofun ?_, nofun⟩
    rintro ⟨hshown, -⟩
    rw [hvisible] at hshown
    cases hshown
  | true => exact hrest hvisible

theorem checkRequired_finds (h : Named p) (hv : v.InRange) :
    ∃ found, checkRequired p v = .ok found ∧ Finds p v (Unanswered p v) found := by
  unfold checkRequired
  split
  · rename_i hskip
    refine ⟨none, rfl, finds_nothing fun hstate => ?_⟩
    simp [hstate.required, Parameter.isDerived, hstate.filledIn] at hskip
  · rename_i hcheck
    obtain ⟨hrequired, hfilled⟩ : p.required = true ∧ p.kind ≠ .derivedCalc := by
      simpa [Parameter.isDerived] using hcheck
    refine whenVisible_finds h hv fun hshown => ?_
    rw [h.read, ok_bind]
    cases hblank : (v.get p.key).isBlank with
    | true =>
      have hstate : Unanswered p v := ⟨hrequired, hfilled, hblank⟩
      exact ⟨some .missing, rfl, finds_problem hshown hstate hstate⟩
    | false =>
      refine ⟨none, rfl, finds_nothing fun hstate => ?_⟩
      rw [hstate.blank] at hblank
      cases hblank

theorem findOption_eq_some {option : FixedOption} :
    p.findOption (v.get p.key) = .ok (some option) ↔ Chosen p v option := findChoice_eq_some

theorem findSubOption_eq_none (hv : v.InRange) {option : FixedOption}
    (hgiven : (v.get p.subName).isBlank = false) :
    option.findSubOption (v.get p.subName) = .ok none ↔ NoneOf p v option :=
  (findChoice_eq_none hgiven (hv.get p.subName)).trans (and_iff_right hgiven).symm

theorem Chosen.unique {option other : FixedOption} (h : Chosen p v option)
    (hother : Chosen p v other) : option = other := by
  have hfind := findOption_eq_some.mpr h
  rw [findOption_eq_some.mpr hother] at hfind
  cases hfind
  rfl

theorem unrefined_iff (hrequired : p.required = true) (hchoice : p.kind = .fixedOption)
    {option : FixedOption} (h : Chosen p v option) :
    Unrefined p v ↔
      option.subOptions ≠ [] ∧ ((v.get p.subName).isBlank = true ∨ NoneOf p v option) := by
  constructor
  · rintro ⟨-, -, other, hother, hlacks⟩
    rwa [h.unique hother]
  · exact fun hlacks => ⟨hrequired, hchoice, option, h, hlacks⟩

theorem refinement_finds (hv : v.InRange) (hshown : isVisible p v = .ok true)
    {option : FixedOption} (hchosen : Chosen p v option)
    (hstate : Unrefined p v ↔
      option.subOptions ≠ [] ∧ ((v.get p.subName).isBlank = true ∨ NoneOf p v option)) :
    ∃ found, (do
      if option.subOptions.isEmpty then return none
      if (v.get p.subName).isBlank then return some (.noSubOption option)
      match ← option.findSubOption (v.get p.subName) with
      | none => return some (.wrongSubOption (v.get p.subName) option)
      | some _ => return none : Except ValueFault (Option Problem)) = .ok found ∧
      Finds p v (Unrefined p v) found := by
  split
  · rename_i hempty
    exact ⟨none, rfl, finds_nothing fun h => (hstate.mp h).1 (List.isEmpty_iff.mp hempty)⟩
  rename_i hsubs
  have hne : option.subOptions ≠ [] := fun hnil => hsubs (List.isEmpty_iff.mpr hnil)
  split
  · rename_i hblank
    have hlacks : Unrefined p v := hstate.mpr ⟨hne, .inl hblank⟩
    have hdescribes : (Problem.noSubOption option).Describes p v := ⟨hlacks, hchosen, hblank⟩
    exact ⟨_, rfl, finds_problem hshown hlacks hdescribes⟩
  rename_i hgiven
  have hnone : option.findSubOption (v.get p.subName) = .ok none ↔ NoneOf p v option :=
    findSubOption_eq_none hv (Bool.eq_false_iff.mpr hgiven)
  obtain ⟨sub?, hsub⟩ : ∃ found, option.findSubOption (v.get p.subName) = .ok found :=
    findChoice_total (hv.get p.subName)
  rw [hsub, ok_bind]
  cases sub? with
  | none =>
    have hlacks : Unrefined p v := hstate.mpr ⟨hne, .inr (hnone.mp hsub)⟩
    have hdescribes : (Problem.wrongSubOption (v.get p.subName) option).Describes p v :=
      ⟨hlacks, hchosen, hnone.mp hsub, rfl⟩
    exact ⟨_, rfl, finds_problem hshown hlacks hdescribes⟩
  | some sub =>
    refine ⟨none, rfl, finds_nothing fun hlacks => ?_⟩
    have hnothing := hnone.mpr ((hstate.mp hlacks).2.resolve_left hgiven)
    rw [hsub] at hnothing
    cases hnothing

theorem checkSubOption_finds (h : Named p) (hv : v.InRange) :
    ∃ found, checkSubOption p v = .ok found ∧ Finds p v (Unrefined p v) found := by
  unfold checkSubOption
  split
  · rename_i hskip
    refine ⟨none, rfl, finds_nothing fun hstate => ?_⟩
    simp [hstate.required, Parameter.isChoice, hstate.choice] at hskip
  rename_i hcheck
  obtain ⟨hrequired, hchoice⟩ : p.required = true ∧ p.kind = .fixedOption := by
    simpa [Parameter.isChoice] using hcheck
  refine whenVisible_finds h hv fun hshown => ?_
  obtain ⟨option?, hfind⟩ : ∃ found, p.findOption (v.get p.key) = .ok found :=
    findChoice_total (hv.get p.key)
  rw [h.read, ok_bind, hfind, ok_bind]
  cases option? with
  | none =>
    refine ⟨none, rfl, finds_nothing fun hstate => ?_⟩
    obtain ⟨option, hchosen, -⟩ := hstate.chosen
    rw [findOption_eq_some.mpr hchosen] at hfind
    cases hfind
  | some option =>
    have hchosen : Chosen p v option := findOption_eq_some.mp hfind
    exact refinement_finds hv hshown hchosen (unrefined_iff hrequired hchoice hchosen)

theorem unfit_iff (hentered : p.kind = .numericValue) (hgiven : (v.get p.key).isBlank = false)
    {x : Float} (hnumber : (v.get p.key).number? = .ok (some x)) :
    Unfit p v ↔ (∃ limit ∈ p.min, x < limit) ∨ ∃ limit ∈ p.max, x > limit := by
  constructor
  · rintro ⟨-, -, hnone | ⟨y, hy, hoff⟩⟩
    · rw [hnumber] at hnone
      cases hnone
    · rw [hnumber] at hy
      cases hy
      exact hoff
  · exact fun hoff => ⟨hentered, hgiven, .inr ⟨x, hnumber, hoff⟩⟩

/-- What is found about a number that is given: the lower limit is held against it first. -/
theorem limits_finds (hshown : isVisible p v = .ok true) {x : Float}
    (hnumber : (v.get p.key).number? = .ok (some x))
    (hstate : Unfit p v ↔ (∃ limit ∈ p.min, x < limit) ∨ ∃ limit ∈ p.max, x > limit) :
    ∃ found, (match p.min.filter (x < ·), p.max.filter (x > ·) with
      | some limit, _ => return some (.below limit)
      | none, some limit => return some (.above limit)
      | none, none => return none : Except ValueFault (Option Problem)) = .ok found ∧
      Finds p v (Unfit p v) found := by
  cases hmin : p.min.filter (x < ·) with
  | some limit =>
    obtain ⟨hlimit, hbelow⟩ := Option.filter_eq_some_iff.mp hmin
    have hlow : x < limit := of_decide_eq_true hbelow
    have hunfit : Unfit p v := hstate.mpr (.inl ⟨limit, hlimit, hlow⟩)
    have hdescribes : (Problem.below limit).Describes p v := ⟨hunfit, hlimit, x, hnumber, hlow⟩
    exact ⟨_, rfl, finds_problem hshown hunfit hdescribes⟩
  | none =>
    have hnotLow : ∀ low ∈ p.min, ¬ x < low := by simpa using hmin
    cases hmax : p.max.filter (x > ·) with
    | some limit =>
      obtain ⟨hlimit, habove⟩ := Option.filter_eq_some_iff.mp hmax
      have hhigh : x > limit := of_decide_eq_true habove
      have hunfit : Unfit p v := hstate.mpr (.inr ⟨limit, hlimit, hhigh⟩)
      have hdescribes : (Problem.above limit).Describes p v :=
        ⟨hunfit, hlimit, x, hnumber, hhigh, hnotLow⟩
      exact ⟨_, rfl, finds_problem hshown hunfit hdescribes⟩
    | none =>
      have hnotHigh : ∀ high ∈ p.max, ¬ x > high := by simpa using hmax
      refine ⟨none, rfl, finds_nothing fun hunfit => ?_⟩
      rcases hstate.mp hunfit with ⟨low, hlow, hbelow⟩ | ⟨high, hhigh, habove⟩
      · exact hnotLow low hlow hbelow
      · exact hnotHigh high hhigh habove

theorem checkRange_finds (h : Named p) (hv : v.InRange) :
    ∃ found, checkRange p v = .ok found ∧ Finds p v (Unfit p v) found := by
  unfold checkRange
  split
  · rename_i hskip
    refine ⟨none, rfl, finds_nothing fun hstate => ?_⟩
    simp [hstate.entered] at hskip
  rename_i hcheck
  have hentered : p.kind = .numericValue := by simpa using hcheck
  refine whenVisible_finds h hv fun hshown => ?_
  rw [h.read, ok_bind]
  split
  · rename_i hblank
    refine ⟨none, rfl, finds_nothing fun hstate => ?_⟩
    rw [hstate.given] at hblank
    cases hblank
  rename_i hgiven
  rw [Bool.not_eq_true] at hgiven
  obtain ⟨number?, hnumber⟩ := (hv.get p.key).number?
  simp only [hnumber, ok_bind]
  cases number? with
  | none =>
    have hunfit : Unfit p v := ⟨hentered, hgiven, .inl hnumber⟩
    have hdescribes : Problem.notANumber.Describes p v := ⟨hunfit, hnumber⟩
    exact ⟨_, rfl, finds_problem hshown hunfit hdescribes⟩
  | some x => exact limits_finds hshown hnumber (unfit_iff hentered hgiven hnumber)

/-! ## The form -/

theorem filterMap_append_perm {α β : Type} {f g : α → Option β} {as : List α}
    (h : ∀ a ∈ as, f a = none ∨ g a = none) :
    (as.filterMap f ++ as.filterMap g).Perm (as.filterMap fun a => (f a).or (g a)) := by
  induction as with
  | nil => exact .nil
  | cons a as ih =>
    obtain ⟨ha, has⟩ := List.forall_mem_cons.mp h
    have hrest := ih has
    rw [List.filterMap_cons, List.filterMap_cons, List.filterMap_cons]
    cases hf : f a with
    | none =>
      cases hg : g a with
      | none => exact hrest
      | some b => exact List.perm_middle.trans (hrest.cons b)
    | some b =>
      have hg : g a = none := ha.resolve_left (by simp [hf])
      rw [hg]
      exact hrest.cons b

def tell (report : Parameter → Option Problem) (parameters : List Parameter) : List String :=
  parameters.filterMap fun p => (report p).map (Problem.message p)

theorem tell_append_perm {report other : Parameter → Option Problem}
    (h : ∀ p ∈ parameters, report p = none ∨ other p = none) :
    (tell report parameters ++ tell other parameters).Perm
      (tell (fun p => (report p).or (other p)) parameters) := by
  unfold tell
  simp only [Option.map_or]
  refine filterMap_append_perm fun p hp => (h p hp).imp (fun hnone => ?_) fun hnone => ?_
  · rw [hnone, Option.map_none]
  · rw [hnone, Option.map_none]

theorem messages_finds (check : Parameter → FormValues → Except ValueFault (Option Problem))
    {state : Parameter → Prop}
    (h : ∀ p ∈ parameters, ∃ found, check p v = .ok found ∧ Finds p v (state p) found) :
    ∃ report, messages check parameters v = .ok (tell report parameters) ∧
      ∀ p ∈ parameters, Finds p v (state p) (report p) := by
  let report (p : Parameter) : Option Problem := (check p v).toOption.join
  have hreport : ∀ p ∈ parameters, check p v = .ok (report p) ∧ Finds p v (state p) (report p) := by
    intro p hp
    obtain ⟨found, hfound, hfinds⟩ := h p hp
    have heq : report p = found := by simp [report, hfound, Except.toOption]
    rw [heq]
    exact ⟨hfound, hfinds⟩
  refine ⟨report, ?_, fun p hp => (hreport p hp).2⟩
  have htexts : (parameters.mapM fun p => do return (← check p v).map (Problem.message p)) =
      .ok (parameters.map fun p => (report p).map (Problem.message p)) :=
    mapM_ok fun p hp => by rw [(hreport p hp).1]; rfl
  rw [messages, htexts, ok_bind, pure_eq_ok, List.filterMap_map]
  rfl

theorem Finds.exclusive {state other : Prop} {found found' : Option Problem}
    (h : Finds p v state found) (h' : Finds p v other found') (hnot : state → ¬ other) :
    found = none ∨ found' = none := by
  cases found with
  | none => exact .inl rfl
  | some problem =>
    refine .inr (Option.not_isSome_iff_eq_none.mp fun hsome => ?_)
    exact hnot (h.found_iff.mp rfl).2 (h'.found_iff.mp hsome).2

theorem Finds.or {state other : Prop} {found found' : Option Problem}
    (h : Finds p v state found) (h' : Finds p v other found') :
    Finds p v (state ∨ other) (found.or found') := by
  constructor
  · rw [Option.isSome_or, Bool.or_eq_true, h.found_iff, h'.found_iff, and_or_left]
  · intro problem hproblem
    rcases Option.or_eq_some_iff.mp hproblem with hfound | ⟨-, hfound⟩
    · exact h.describes problem hfound
    · exact h'.describes problem hfound

/-- In a schema that was read, a form within range gets exactly one message for each parameter that
is shown and in one of the states, and no other message. -/
theorem one_message_for_each_fault {data name : Value} {schema : ProductSchema}
    (hschema : ProductSchema.ofValue data name = .ok schema) (hv : v.InRange) :
    ∃ found report, validate schema.parameters v = .ok found ∧
      found.Perm (tell report schema.parameters) ∧
      (∀ p ∈ schema.parameters,
        Finds p v (Unanswered p v ∨ Unrefined p v ∨ Unfit p v) (report p)) ∧
      ∀ p, OneAtMost p v := by
  have hnamed := named_of_ofValue hschema
  obtain ⟨required, hrequired, hunanswered⟩ :=
    messages_finds checkRequired fun p hp => checkRequired_finds (hnamed p hp) hv
  obtain ⟨sub, hsub, hunrefined⟩ :=
    messages_finds checkSubOption fun p hp => checkSubOption_finds (hnamed p hp) hv
  obtain ⟨range, hrange, hunfit⟩ :=
    messages_finds checkRange fun p hp => checkRange_finds (hnamed p hp) hv
  have hlast := tell_append_perm fun p hp =>
    (hunrefined p hp).exclusive (hunfit p hp) (oneAtMost p v).unrefined
  have hfirst := tell_append_perm fun p hp =>
    (hunanswered p hp).exclusive ((hunrefined p hp).or (hunfit p hp)) fun h =>
      not_or.mpr ((oneAtMost p v).unanswered h)
  -- The messages come check by check, the report parameter by parameter.
  refine ⟨_, _, ?_, (hlast.append_left _).trans hfirst, fun p hp => ?_, fun p => oneAtMost p v⟩
  · rw [validate, requiredMessages, hrequired, ok_bind, subOptionMessages, hsub, ok_bind,
      rangeMessages, hrange, ok_bind, pure_eq_ok, List.append_assoc]
  · exact (hunanswered p hp).or ((hunrefined p hp).or (hunfit p hp))

/-- A label with a shape and its corners, a height, and a width for each of two sides. The gap is only
asked for on rolls, and the area is worked out. -/
def labelData : Value := .list [
  .object [
    ("name", "width"), ("type", "NumericValue"), ("label", "Width"), ("min", .int 10),
    ("unit", "mm")],
  .object [
    ("name", "shape"), ("type", "FixedOption"), ("required", .bool true), ("options", .list [
      .object [("label", "Square"), ("value", "1"), ("subOptions", .list [
        .object [("id", "r"), ("label", "Round corners"), ("value", "round"), ("price", .int 0)]])],
      .object [("label", "Oval"), ("value", "2")]])],
  .object [("name", "height"), ("type", "NumericValue"), ("required", .bool true)],
  .object [
    ("name", "gap"), ("type", "NumericValue"), ("required", .bool true),
    ("conditional", .object [("parentParameter", "shape"), ("showWhen", .list ["roll"])])],
  .object [
    ("name", "area"), ("type", "DerivedCalc"), ("required", .bool true), ("formula", "width"),
    ("dependencies", .list ["width"])],
  .object [
    ("name", "width"), ("type", "NumericValue"), ("label", "Width of the back"), ("max", .int 3)]]

def labelAnswers : FormValues :=
  ⟨[⟨"width", "4 mm"⟩, ⟨"shape", .float 1⟩, ⟨"shape_suboption", "sharp"⟩, ⟨"height", ""⟩]⟩

def labelMessages : List String :=
  ["height is required", "\"sharp\" is not a valid shape option for Square",
    "Width must be at least 10 mm", "Width of the back must be at most 3"]

theorem label_gets_four_messages : ∃ schema, ProductSchema.ofValue labelData = .ok schema ∧
    validate schema.parameters labelAnswers = .ok labelMessages ∧
    ∃ found report, validate schema.parameters labelAnswers = .ok found ∧
      found.Perm (tell report schema.parameters) ∧
      (∀ p ∈ schema.parameters, Finds p labelAnswers
        (Unanswered p labelAnswers ∨ Unrefined p labelAnswers ∨ Unfit p labelAnswers) (report p)) ∧
      ∀ p, OneAtMost p labelAnswers := by
  have hmessages : (ProductSchema.ofValue labelData).toOption.any (fun schema =>
      decide (validate schema.parameters labelAnswers = .ok labelMessages)) = true := by
    decide +kernel
  obtain ⟨schema, hschema, hvalidate⟩ := ok_of_any hmessages
  have hrange : labelAnswers.InRange := FormValues.inRange_of_entries (by decide +kernel)
  exact ⟨schema, hschema, of_decide_eq_true hvalidate, one_message_for_each_fault hschema hrange⟩

end Form

end Quotation
