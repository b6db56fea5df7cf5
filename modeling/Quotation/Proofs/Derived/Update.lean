import Quotation.Proofs.Derived.Range

/-!
# Working out what follows from a change

In a form that holds its derived values, one pass over the affected parameters does after a change
what a full pass does. A parameter that is left out depends on nothing that the form has, so what it
holds is still right. Another pass changes nothing.
-/

namespace Quotation

theorem Value.eq_of_text_sameAs {text : String} {value : Value}
    (h : (Value.text text).sameAs value = true) : value = .text text := by
  cases value <;> simp_all [Value.sameAs, Value.wholeNumber?]

theorem FormValues.absent_of_set {v : FormValues} {name value : Value} {key : Key}
    (h : (v.set name value).get? key = none) : v.get? key = none := by
  rw [FormValues.get?_set] at h
  split at h
  · cases h
  · exact h

theorem FormValues.text_of_within {v w : FormValues} (h : v.within w = true) {key : Key}
    {text : String} (htext : v.get? key = some (.text text)) : w.get? key = some (.text text) := by
  obtain ⟨e, hmem, rfl, hvalue⟩ := Entry.mem_of_find? htext
  have hentry := List.all_eq_true.mp h e hmem
  rw [hvalue] at hentry
  cases hother : w.get? e.key with
  | none =>
    rw [hother] at hentry
    cases hentry
  | some other =>
    rw [hother] at hentry
    rw [Value.eq_of_text_sameAs hentry]

namespace Derived

variable {parameters order : List Parameter} {p : Parameter} {v w m r : FormValues}

theorem IsResolution.of_within (hr : IsResolution parameters v r) (h : r.within v = true) :
    IsResolution parameters v v := by
  have hsame : ∀ key, v.get? key = r.get? key := by
    intro key
    by_cases hkey : ∃ p ∈ parameters, isComputed p ∧ p.key = key
    · obtain ⟨p, hp, hcomputed, rfl⟩ := hkey
      obtain ⟨text, -, hget⟩ := hr.computed p hp hcomputed
      rw [hget, FormValues.text_of_within h hget]
    · exact (hr.kept key fun p hp hcomputed hp' => hkey ⟨p, hp, hcomputed, hp'⟩).symm
  refine ⟨fun _ _ => rfl, fun p hp hcomputed => ?_⟩
  obtain ⟨text, htext, hget⟩ := hr.computed p hp hcomputed
  refine ⟨text, ?_, by rw [hsame, hget]⟩
  rw [← htext]
  exact evaluateDerived_congr fun key _ => hsame key

theorem pass_filter (order : List Parameter) (v : FormValues) :
    (order.filter (·.givenFormula.isSome)).foldlM resolveOne v = order.foldlM resolveOne v := by
  induction order generalizing v with
  | nil => rfl
  | cons p order ih =>
    cases hformula : p.givenFormula.isSome with
    | false =>
      rw [List.filter_cons_of_neg (by simp [hformula]), List.foldlM_cons,
        resolveOne_eq_self hformula, ok_bind, ih]
    | true => simp only [List.filter_cons, hformula, if_true, List.foldlM_cons, ih]

/-! ## One parameter again -/

variable {direct : List Key} {text : String} {changed : Bool}

theorem holds_iff {key : Key} : holds v key text = true ↔ v.get? key = some (.text text) := by
  unfold holds
  split <;> simp_all

theorem absent_of_not_affected (h : isAffected direct v p = false) {key : Key}
    (hkey : key ∈ p.dependsOn) : v.get? key = none := by
  have hany : p.dependsOn.any v.contains = false := (Bool.or_eq_false_iff.mp h).2
  have hcontains := List.any_eq_false.mp hany key hkey
  simpa [FormValues.contains] using hcontains

theorem refreshOne_eq_self (htext : evaluateDerived p v = .ok text)
    (hget : v.get? p.key = some (.text text)) :
    refreshOne direct (v, changed) p = .ok (v, changed) := by
  rw [refreshOne]
  split
  · rfl
  · rw [htext, ok_bind, if_pos (holds_iff.mpr hget)]
    rfl

theorem refreshOne_eq_set (changed : Bool) (htext : evaluateDerived p v = .ok text)
    (hleft : isAffected direct v p = false → v.get? p.key = some (.text text)) :
    ∃ changed', refreshOne direct (v, changed) p = .ok (v.set p.name (.text text), changed') := by
  by_cases hget : v.get? p.key = some (.text text)
  · exact ⟨changed, by rw [refreshOne_eq_self htext hget, FormValues.set_eq_self hget]⟩
  · have haffected : ¬ (!isAffected direct v p) = true := by
      intro hnot
      exact hget (hleft (by simpa using hnot))
    refine ⟨true, ?_⟩
    rw [refreshOne, if_neg haffected, htext, ok_bind, if_neg (fun h => hget (holds_iff.mp h))]
    rfl

/-! ## One pass -/

/-- The form has all that a form with its derived values had, and the values to come are as they were
there. Then a pass over the affected parameters does what a full pass does. -/
theorem refresh_of_pass (hv : IsResolution parameters v v)
    (horder : ∀ p ∈ order, p ∈ parameters ∧ isComputed p = true) (distinct : (keysOf order).Nodup)
    (habsent : ∀ key, w.get? key = none → v.get? key = none)
    (hsame : ∀ p ∈ order, w.get? p.key = v.get? p.key)
    (hpass : order.foldlM resolveOne w = .ok m) :
    ∃ changed', order.foldlM (refreshOne direct) (w, changed) = .ok (m, changed') := by
  induction order generalizing w changed with
  | nil =>
    cases hpass
    exact ⟨changed, rfl⟩
  | cons p order ih =>
    obtain ⟨⟨hp, hcomputed⟩, horder⟩ := List.forall_mem_cons.mp horder
    obtain ⟨hnew, distinct⟩ := List.nodup_cons.mp distinct
    obtain ⟨hsamep, hsame⟩ := List.forall_mem_cons.mp hsame
    rw [List.foldlM_cons] at hpass
    obtain ⟨w', hone, hpass⟩ := bind_eq_ok.mp hpass
    have hformula := (Bool.and_eq_true_iff.mp hcomputed).2
    obtain ⟨text, htext, rfl⟩ := (resolveOne_eq_ok hformula).mp hone
    -- What a parameter that is left out depends on is absent, and was absent before.
    have hleft : isAffected direct w p = false → w.get? p.key = some (.text text) := by
      intro hnot
      obtain ⟨old, hold, hget⟩ := hv.computed p hp hcomputed
      have hread : evaluateDerived p w = evaluateDerived p v := by
        refine evaluateDerived_congr fun key hkey => ?_
        have hnone := absent_of_not_affected hnot hkey
        rw [hnone, habsent key hnone]
      rw [hread, hold] at htext
      cases htext
      rw [hsamep, hget]
    obtain ⟨changed', hstep⟩ := refreshOne_eq_set changed htext hleft
    rw [List.foldlM_cons, hstep, ok_bind]
    refine ih horder distinct (fun key hkey => ?_) (fun q hq => ?_) hpass
    · exact habsent key (FormValues.absent_of_set hkey)
    · have hne : q.key ≠ p.name.key := fun heq => hnew (List.mem_map.mpr ⟨q, hq, heq⟩)
      rw [FormValues.get?_set, if_neg hne]
      exact hsame q hq

theorem refresh_eq_self (hm : IsResolution parameters v m)
    (horder : ∀ p ∈ order, p ∈ parameters ∧ isComputed p = true) :
    refresh direct order m = .ok (m, false) := by
  refine foldlM_eq_self fun p hp => ?_
  obtain ⟨text, htext, hget⟩ := hm.computed p (horder p hp).1 (horder p hp).2
  exact refreshOne_eq_self htext hget

theorem refreshAll_of_refresh {limit : Nat} (hlimit : 1 ≤ limit)
    (hfirst : refresh direct order v = .ok (m, changed))
    (hagain : refresh direct order m = .ok (m, false)) :
    refreshAll direct order limit v = .ok m := by
  obtain ⟨limit, rfl⟩ := Nat.exists_eq_add_of_le' hlimit
  rw [refreshAll, hfirst, ok_bind]
  cases changed with
  | false => rfl
  | true =>
    cases limit with
    | zero => rfl
    | succ limit =>
      simp only [if_true, refreshAll, hagain, ok_bind]
      rfl

/-- In a form that holds its derived values, working out what follows from a change of an answer comes
to the same form as working out everything. -/
theorem update_eq_resolve {name value : Value} {limit : Nat} (distinct : (keysOf parameters).Nodup)
    (acyclic : cycles parameters = .ok []) (pass : resolve parameters v = .ok r)
    (resolved : r.sameAs v = true) (hname : name.isName = true)
    (answer : ∀ p ∈ parameters, isComputed p → p.key ≠ name.key) (hlimit : 1 ≤ limit)
    (hv : v.InRange) (hvalue : value.InRange) :
    ∃ m, update name value parameters v limit = .ok m ∧
      resolve parameters (v.set name value) = .ok m := by
  have hdistinct := nodup_derivedOf distinct
  have horder := topological_dependencyOrder hdistinct (acyclic_of_cycles acyclic)
  obtain ⟨hnames, hpass⟩ := resolve_eq_ok.mp pass
  have hr := isResolution_of_pass horder hdistinct hpass
  have hself := hr.of_within (Bool.and_eq_true_iff.mp resolved).1
  -- The full pass after the change.
  obtain ⟨m, hresolve, -⟩ := resolve_total (hv.set hvalue name) hnames
  have hfull := (resolve_eq_ok.mp hresolve).2
  have hm := isResolution_of_pass horder hdistinct hfull
  have hcomputed : ∀ p ∈ (dependencyOrder parameters).filter (·.givenFormula.isSome),
      p ∈ parameters ∧ isComputed p = true :=
    fun p hp => horder.computed_iff.mpr (List.mem_filter.mp hp)
  have hsame : ∀ p ∈ (dependencyOrder parameters).filter (·.givenFormula.isSome),
      (v.set name value).get? p.key = v.get? p.key := by
    intro p hp
    rw [FormValues.get?_set, if_neg (answer p (hcomputed p hp).1 (hcomputed p hp).2)]
  -- The first pass over the affected ones does the same, and the next one nothing.
  obtain ⟨changed, hfirst⟩ := refresh_of_pass hself hcomputed
    (horder.distinct.sublist (List.filter_sublist.map _))
    (fun _ => FormValues.absent_of_set) hsame ((pass_filter _ _).trans hfull)
  refine ⟨m, ?_, hresolve⟩
  rw [update, FormValues.write, if_pos hname, ok_bind, schedule_eq_ok.mpr ⟨hnames, rfl⟩, ok_bind]
  exact refreshAll_of_refresh hlimit hfirst (refresh_eq_self hm hcomputed)

def sheetResolved : FormValues :=
  ⟨[⟨"w", .int 3⟩, ⟨"h", .text "2.5"⟩, ⟨"note", .text "as agreed"⟩, ⟨"area", .text "7.5"⟩,
    ⟨"ratio", .text "0"⟩, ⟨"cost", .text "15"⟩]⟩

theorem sheet_update : ∃ m, update "w" (.int 5) sheet sheetResolved 1 = .ok m ∧
    resolve sheet (sheetResolved.set "w" (.int 5)) = .ok m := by
  have hresolved : (resolve sheet sheetResolved).toOption.any (·.sameAs sheetResolved) = true := by
    decide +kernel
  obtain ⟨r, hpass, hresolved⟩ := ok_of_any hresolved
  exact update_eq_resolve (by decide) rfl hpass hresolved rfl (by decide) (Nat.le_refl 1)
    (FormValues.inRange_of_entries (by decide +kernel)) (by decide +kernel)

end Derived

end Quotation
