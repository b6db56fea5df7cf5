import Quotation.Form.Validation
import Quotation.Price.Quote
import Quotation.Proofs.Derived.Resolution

/-!
# Forms that agree on what is read

What two forms hold under keys that nothing reads makes no difference. A pass keeps two forms alike
under all keys but those, and a parameter that is seen alike in two forms, hidden in both or with the
same answers, has the same line and the same messages in both.
-/

namespace Quotation

/-- Two forms that hold the same under all keys but some. -/
def FormValues.AgreeOff (keys : List Key) (v w : FormValues) : Prop :=
  ∀ key, key ∉ keys → v.get? key = w.get? key

section

variable {keys : List Key} {v w m r : FormValues}

theorem FormValues.AgreeOff.symm (h : FormValues.AgreeOff keys v w) :
    FormValues.AgreeOff keys w v := fun key hkey => (h key hkey).symm

theorem FormValues.AgreeOff.of_ne {key other : Key} (h : FormValues.AgreeOff [key] v w)
    (hne : other ≠ key) : v.get? other = w.get? other :=
  h other fun hmem => hne (List.mem_singleton.mp hmem)

theorem FormValues.AgreeOff.set (h : FormValues.AgreeOff keys v w) (name value : Value) :
    FormValues.AgreeOff keys (v.set name value) (w.set name value) := by
  intro key hkey
  rw [FormValues.get?_set, FormValues.get?_set, h key hkey]

theorem FormValues.get_congr {key : Key} (h : v.get? key = w.get? key) : v.get key = w.get key := by
  rw [FormValues.get, FormValues.get, h]

theorem FormValues.read_congr {name : Value} (h : v.get? name.key = w.get? name.key) :
    v.read name = w.read name := by
  rw [FormValues.read, FormValues.read, FormValues.get_congr h]

namespace Derived

/-! ## Passes -/

theorem resolveOne_agree {p : Parameter} (hreads : ∀ key ∈ p.dependsOn, key ∉ keys)
    (h : FormValues.AgreeOff keys v w) (hone : resolveOne v p = .ok m) :
    ∃ r, resolveOne w p = .ok r ∧ FormValues.AgreeOff keys m r := by
  cases hformula : p.givenFormula.isSome with
  | false =>
    rw [resolveOne_eq_self hformula] at hone
    cases hone
    exact ⟨w, resolveOne_eq_self hformula w, h⟩
  | true =>
    obtain ⟨text, htext, rfl⟩ := (resolveOne_eq_ok hformula).mp hone
    have hsame : evaluateDerived p w = .ok text := by
      rw [← htext]
      exact evaluateDerived_congr fun key hkey => (h key (hreads key hkey)).symm
    exact ⟨_, (resolveOne_eq_ok hformula).mpr ⟨text, hsame, rfl⟩, h.set _ _⟩

theorem pass_agree {order : List Parameter}
    (hreads : ∀ p ∈ order, ∀ key ∈ p.dependsOn, key ∉ keys)
    (h : FormValues.AgreeOff keys v w) (hpass : order.foldlM resolveOne v = .ok m) :
    ∃ r, order.foldlM resolveOne w = .ok r ∧ FormValues.AgreeOff keys m r := by
  induction order generalizing v w with
  | nil =>
    cases hpass
    exact ⟨w, rfl, h⟩
  | cons p order ih =>
    rw [List.foldlM_cons] at hpass
    obtain ⟨v', hone, hrest⟩ := bind_eq_ok.mp hpass
    obtain ⟨w', hone', h'⟩ := resolveOne_agree (hreads p (List.mem_cons_self ..)) h hone
    obtain ⟨r, hrest', hr⟩ := ih (fun q hq => hreads q (List.mem_cons_of_mem _ hq)) h' hrest
    exact ⟨r, by rw [List.foldlM_cons, hone', ok_bind, hrest'], hr⟩

theorem resolve_agree {parameters : List Parameter}
    (hreads : ∀ p ∈ derivedOf parameters, ∀ key ∈ p.dependsOn, key ∉ keys)
    (h : FormValues.AgreeOff keys v w) (hresolve : resolve parameters v = .ok m) :
    ∃ r, resolve parameters w = .ok r ∧ FormValues.AgreeOff keys m r := by
  obtain ⟨hnames, hpass⟩ := resolve_eq_ok.mp hresolve
  obtain ⟨r, hpass', hr⟩ :=
    pass_agree (fun p hp => hreads p (dependencyOrder_subset parameters hp)) h hpass
  exact ⟨r, resolve_eq_ok.mpr ⟨hnames, hpass'⟩, hr⟩

end Derived

/-! ## One parameter -/

namespace Form

theorem isVisible_congr {p : Parameter}
    (h : ∀ c, p.conditional = some c → v.get? c.parentKey = w.get? c.parentKey) :
    isVisible p v = isVisible p w := by
  unfold isVisible
  cases hconditional : p.conditional with
  | none => rfl
  | some c =>
    have hread : v.read c.parent = w.read c.parent := FormValues.read_congr (h c hconditional)
    simp only [hread]

theorem isVisible_of_parent {p : Parameter} {c : Conditional} (hc : p.conditional = some c)
    (h : v.get? c.parentKey = w.get? c.parentKey) : isVisible p v = isVisible p w := by
  refine isVisible_congr fun c' hc' => ?_
  rw [hc] at hc'
  cases hc'
  exact h

/-- A parameter is shown in both forms or hidden in both, and has the same answers unless it is
hidden. -/
structure SeenAlike (p : Parameter) (v w : FormValues) : Prop where
  visible : isVisible p v = isVisible p w
  answers : isVisible p v = .ok false ∨
    (v.get? p.key = w.get? p.key ∧ v.get? p.subName = w.get? p.subName)

variable {p : Parameter}

theorem checkRequired_congr (h : SeenAlike p v w) : checkRequired p v = checkRequired p w := by
  unfold checkRequired
  rw [← h.visible]
  rcases h.answers with hhidden | ⟨hvalue, -⟩
  · rw [hhidden]
    rfl
  · rw [FormValues.read_congr hvalue]

theorem checkSubOption_congr (h : SeenAlike p v w) : checkSubOption p v = checkSubOption p w := by
  unfold checkSubOption
  rw [← h.visible]
  rcases h.answers with hhidden | ⟨hvalue, hsub⟩
  · rw [hhidden]
    rfl
  · rw [FormValues.read_congr hvalue, FormValues.get_congr hsub]

theorem checkRange_congr (h : SeenAlike p v w) : checkRange p v = checkRange p w := by
  unfold checkRange
  rw [← h.visible]
  rcases h.answers with hhidden | ⟨hvalue, -⟩
  · rw [hhidden]
    rfl
  · rw [FormValues.read_congr hvalue]

theorem messages_congr {check : Parameter → FormValues → Except ValueFault (Option Problem)}
    {parameters : List Parameter} (h : ∀ p ∈ parameters, check p v = check p w) :
    messages check parameters v = messages check parameters w := by
  unfold messages
  rw [mapM_congr fun p hp => by rw [h p hp]]

theorem validate_congr {parameters : List Parameter} (h : ∀ p ∈ parameters, SeenAlike p v w) :
    validate parameters v = validate parameters w := by
  unfold validate requiredMessages subOptionMessages rangeMessages
  rw [messages_congr fun p hp => checkRequired_congr (h p hp),
    messages_congr fun p hp => checkSubOption_congr (h p hp),
    messages_congr fun p hp => checkRange_congr (h p hp)]

end Form

namespace Price

variable {p : Parameter}

theorem parameterLine_congr (h : v.get? p.subName = w.get? p.subName) (value : Value)
    (symbol : String) : parameterLine p value v symbol = parameterLine p value w symbol := by
  unfold parameterLine choiceLine
  rw [FormValues.get_congr h]

theorem itemOf_congr (h : Form.SeenAlike p v w) (symbol : String) :
    itemOf p v symbol = itemOf p w symbol := by
  unfold itemOf
  rw [← h.visible]
  rcases h.answers with hhidden | ⟨hvalue, hsub⟩
  · rw [hhidden]
    rfl
  · rw [FormValues.read_congr hvalue]
    simp only [parameterLine_congr hsub]

/-! ## The form -/

theorem quantityOf_congr (h : v.get? quantityName = w.get? quantityName) :
    quantityOf v = quantityOf w := by
  unfold quantityOf
  rw [FormValues.get_congr h]

theorem mainUnitsOf_congr {parameters : List Parameter}
    (h : ∀ p, parameters.find? (·.isMainUnits) = some p → v.get? p.key = w.get? p.key) :
    mainUnitsOf parameters v = mainUnitsOf parameters w := by
  unfold mainUnitsOf
  cases hmain : parameters.find? (·.isMainUnits) with
  | none => rfl
  | some p =>
    have hread : v.read p.name = w.read p.name := FormValues.read_congr (h p hmain)
    simp only [hread]

end Price

end

end Quotation
