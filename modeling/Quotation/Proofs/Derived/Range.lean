import Quotation.Proofs.Derived.Resolution

/-!
# Forms within range

A whole number beyond the largest double cannot be read as a number. In a form without one every
derived parameter has a value, and what is worked out is text, so the form stays within range.
-/

namespace Quotation

/-- Any value but a whole number beyond the largest double. -/
def Value.InRange : Value → Prop
  | .int n => (Number.ofInt n).isSome
  | _ => True

instance (value : Value) : Decidable value.InRange := by
  unfold Value.InRange
  split <;> infer_instance

theorem Value.InRange.number? {value : Value} (h : value.InRange) :
    ∃ x, value.number? = .ok x := by
  cases value with
  | int n =>
    obtain ⟨x, hx⟩ := Option.isSome_iff_exists.mp h
    exact ⟨Number.finite? x, by simp only [Value.number?, intToFloat, hx]; rfl⟩
  | _ => exact ⟨_, rfl⟩

theorem Value.InRange.numberOrZero {value : Value} (h : value.InRange) :
    ∃ x, value.numberOrZero = .ok x := by
  obtain ⟨x, hx⟩ := h.number?
  exact ⟨x.getD 0, by rw [Value.numberOrZero, hx]; rfl⟩

def FormValues.InRange (v : FormValues) : Prop :=
  ∀ key value, v.get? key = some value → value.InRange

section

variable {v w : FormValues}

theorem FormValues.inRange_of_entries (h : ∀ e ∈ v.entries, e.value.InRange) : v.InRange := by
  intro key value hvalue
  obtain ⟨e, hmem, -, rfl⟩ := Entry.mem_of_find? hvalue
  exact h e hmem

theorem FormValues.InRange.get (h : v.InRange) (key : Key) : (v.get key).InRange := by
  unfold FormValues.get
  cases hvalue : v.get? key with
  | none => trivial
  | some value => exact h key value hvalue

theorem FormValues.InRange.set (h : v.InRange) {value : Value} (hvalue : value.InRange)
    (name : Value) : (v.set name value).InRange := by
  intro key other hother
  rw [FormValues.get?_set] at hother
  split at hother
  · cases hother
    exact hvalue
  · exact h key other hother

theorem FormValues.InRange.read (h : v.InRange) {name : Value} (hname : name.isName = true) :
    ∃ value, v.read name = .ok value ∧ value.InRange := by
  refine ⟨v.get name.key, ?_, h.get name.key⟩
  rw [FormValues.read, if_pos hname]

namespace Derived

/-! ## Derived values -/

variable {p : Parameter}

theorem binding_total (h : v.InRange) {name : Value} (hname : name.isName = true) :
    ∃ entry, binding v name = .ok entry := by
  obtain ⟨value, hread, hvalue⟩ := h.read hname
  obtain ⟨x, hx⟩ := hvalue.numberOrZero
  rw [binding, hread, ok_bind, hx, ok_bind]
  cases name <;> exact ⟨_, rfl⟩

theorem bindings_total (h : v.InRange) (hnames : ∀ name ∈ p.dependencies, name.isName = true) :
    ∃ bound, bindings p v = .ok bound := by
  obtain ⟨entries, hentries⟩ := mapM_total fun name hname => binding_total h (hnames name hname)
  exact ⟨entries.filterMap id, by rw [bindings, hentries]; rfl⟩

theorem evaluateDerived_total (h : v.InRange)
    (hnames : ∀ name ∈ p.dependencies, name.isName = true) :
    ∃ text, evaluateDerived p v = .ok text := by
  obtain ⟨bound, hbound⟩ := bindings_total h hnames
  simp only [evaluateDerived_eq_ok hbound]
  cases hvalue : Formula.evaluate (p.givenFormula.getD (.text "")).shown bound with
  | ok x => exact ⟨_, .inl ⟨x, rfl, rfl⟩⟩
  | error fault =>
    obtain ⟨e, rfl⟩ := (numeric_bindings hbound).evaluate hvalue
    exact ⟨_, .inr ⟨e, rfl, rfl⟩⟩

theorem resolveOne_total (h : v.InRange) (hnames : ∀ name ∈ p.dependencies, name.isName = true) :
    ∃ w, resolveOne v p = .ok w ∧ w.InRange := by
  cases hformula : p.givenFormula.isSome with
  | false => exact ⟨v, resolveOne_eq_self hformula v, h⟩
  | true =>
    obtain ⟨text, htext⟩ := evaluateDerived_total h hnames
    have hrange : (Value.text text).InRange := trivial
    exact ⟨_, (resolveOne_eq_ok hformula).mpr ⟨text, htext, rfl⟩, h.set hrange p.name⟩

theorem pass_total {order : List Parameter} (h : v.InRange)
    (hnames : ∀ p ∈ order, ∀ name ∈ p.dependencies, name.isName = true) :
    ∃ m, order.foldlM resolveOne v = .ok m ∧ m.InRange :=
  foldlM_total (fun p hp _ hw => resolveOne_total hw (hnames p hp)) h

theorem resolve_total {parameters : List Parameter} (h : v.InRange)
    (hnames : ∀ name ∈ namesOf (derivedOf parameters), name.isName = true) :
    ∃ m, resolve parameters v = .ok m ∧ m.InRange := by
  obtain ⟨m, hpass, hm⟩ := pass_total h fun p hp name hname =>
    hnames name (dependency_mem_namesOf (dependencyOrder_subset parameters hp) hname)
  exact ⟨m, resolve_eq_ok.mpr ⟨hnames, hpass⟩, hm⟩

end Derived

end

end Quotation
