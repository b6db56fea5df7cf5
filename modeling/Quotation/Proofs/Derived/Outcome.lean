import Quotation.Proofs.Derived.Refresh

/-!
# What an update comes to

An update works out a computed parameter if anything that it depends on is there in the end, and
leaves it alone otherwise. Over given answers there is one form of that kind. What a first update
has worked out does not matter to a second one: both together come to what the second would come to
over the answers of both.
-/

namespace Quotation.Derived

def HasInput (p : Parameter) (v : FormValues) : Prop := ∃ key ∈ p.dependsOn, v.get? key ≠ none

/-- A computed parameter holds what it comes to in `m` if it has an input there, and what it held in
`v` if not. All other keys hold what they held in `v`. -/
structure IsOutcome (parameters : List Parameter) (v m : FormValues) : Prop where
  kept : ∀ key, (∀ p ∈ parameters, isComputed p → p.key ≠ key) → m.get? key = v.get? key
  computed : ∀ p ∈ parameters, isComputed p → HasInput p m →
    ∃ text, evaluateDerived p m = .ok text ∧ m.get? p.key = some (.text text)
  left : ∀ p ∈ parameters, isComputed p → ¬ HasInput p m → m.get? p.key = v.get? p.key

variable {parameters order : List Parameter} {p : Parameter} {v w m r : FormValues}

theorem absent_of_no_input (h : ¬ HasInput p v) {key : Key} (hkey : key ∈ p.dependsOn) :
    v.get? key = none := by
  by_contra hthere
  exact h ⟨key, hkey, hthere⟩

theorem hasInput_congr (h : ∀ key ∈ p.dependsOn, v.get? key = w.get? key) :
    HasInput p v ↔ HasInput p w := by
  refine exists_congr fun key => and_congr_right fun hkey => ?_
  rw [h key hkey]

/-! ## One outcome -/

namespace IsOutcome

theorem congr (h : IsOutcome parameters v m) (hsame : ∀ key, v.get? key = w.get? key) :
    IsOutcome parameters w m :=
  ⟨fun key hkey => (h.kept key hkey).trans (hsame key), h.computed,
    fun p hp hcomputed hnone => (h.left p hp hcomputed hnone).trans (hsame p.key)⟩

theorem absent (h : IsOutcome parameters v m) {key : Key} (hkey : m.get? key = none) :
    v.get? key = none := by
  by_cases hcomputed : ∃ p ∈ parameters, isComputed p ∧ p.key = key
  · obtain ⟨p, hp, hcomputed, rfl⟩ := hcomputed
    by_cases hinput : HasInput p m
    · obtain ⟨text, -, hget⟩ := h.computed p hp hcomputed hinput
      rw [hkey] at hget
      cases hget
    · rw [← h.left p hp hcomputed hinput, hkey]
  · rw [← h.kept key fun p hp hp' hsame => hcomputed ⟨p, hp, hp', hsame⟩, hkey]

/-- Computed parameters are followed along what feeds them: where that is the same, they have an
input in both forms or in none. -/
theorem unique (distinct : (keysOf parameters).Nodup) (acyclic : Acyclic (derivedOf parameters))
    (hm : IsOutcome parameters v m) (hr : IsOutcome parameters v r) (key : Key) :
    m.get? key = r.get? key := by
  induction key using acyclic.induction with
  | _ key ih =>
    by_cases hcomputed : ∃ p ∈ parameters, isComputed p ∧ p.key = key
    · obtain ⟨p, hp, hcomputed, rfl⟩ := hcomputed
      have hderived : p ∈ derivedOf parameters :=
        mem_derivedOf.mpr ⟨hp, (Bool.and_eq_true_iff.mp hcomputed).1⟩
      have hreads : ∀ other ∈ p.dependsOn, m.get? other = r.get? other := by
        intro other hother
        by_cases hfeeds : other ∈ keysOf (derivedOf parameters)
        · exact ih other (.of_dependsOn (nodup_derivedOf distinct) hderived hfeeds hother)
        · have hanswer : ∀ q ∈ parameters, isComputed q → q.key ≠ other := by
            rintro q hq hq' rfl
            exact hfeeds (key_mem (mem_derivedOf.mpr ⟨hq, (Bool.and_eq_true_iff.mp hq').1⟩))
          rw [hm.kept other hanswer, hr.kept other hanswer]
      by_cases hinput : HasInput p m
      · obtain ⟨text, htext, hget⟩ := hm.computed p hp hcomputed hinput
        obtain ⟨text', htext', hget'⟩ :=
          hr.computed p hp hcomputed ((hasInput_congr hreads).mp hinput)
        rw [evaluateDerived_congr hreads, htext'] at htext
        cases htext
        rw [hget, hget']
      · have hinput' : ¬ HasInput p r := fun h => hinput ((hasInput_congr hreads).mpr h)
        rw [hm.left p hp hcomputed hinput, hr.left p hp hcomputed hinput']
    · have hanswer : ∀ p ∈ parameters, isComputed p → p.key ≠ key :=
        fun p hp hp' hsame => hcomputed ⟨p, hp, hp', hsame⟩
      rw [hm.kept key hanswer, hr.kept key hanswer]

theorem set (h : IsOutcome parameters v w) {name value : Value}
    (hm : IsOutcome parameters (w.set name value) m) :
    IsOutcome parameters (v.set name value) m := by
  refine ⟨fun key hkey => ?_, hm.computed, fun p hp hcomputed hinput => ?_⟩
  · rw [hm.kept key hkey, FormValues.get?_set, FormValues.get?_set, h.kept key hkey]
  · -- What it depends on was absent in `w` already.
    have hbefore : ¬ HasInput p w := by
      rintro ⟨key, hkey, hthere⟩
      exact hthere (FormValues.absent_of_set (hm.absent (absent_of_no_input hinput hkey)))
    rw [hm.left p hp hcomputed hinput, FormValues.get?_set, FormValues.get?_set,
      h.left p hp hcomputed hbefore]

end IsOutcome

/-! ## The outcome of an update -/

variable {direct : List Key} {changed changed' : Bool} {name value : Value} {limit : Nat}

theorem refresh_left_out (hsequential : Sequential order)
    (h : order.foldlM (refreshOne direct) (v, changed) = .ok (m, changed')) :
    ∀ p ∈ order, isAffected direct m p = false → m.get? p.key = v.get? p.key := by
  induction order generalizing v changed with
  | nil => exact fun p hp => nomatch hp
  | cons p order ih =>
    obtain ⟨honward, -⟩ := List.pairwise_cons.mp hsequential.onward
    have hpass := h
    rw [List.foldlM_cons] at h
    obtain ⟨⟨w, changed⟩, hone, hrest⟩ := bind_eq_ok.mp h
    refine List.forall_mem_cons.mpr ⟨fun hleft => ?_, fun q hq hleft => ?_⟩
    · have hkey : m.get? p.key = w.get? p.key :=
        refresh_get? hrest fun q hq => (honward q hq).2
      have hbefore : isAffected direct v p = false := by
        obtain ⟨hdirect, -⟩ := Bool.or_eq_false_iff.mp hleft
        refine Bool.or_eq_false_iff.mpr ⟨hdirect, List.any_eq_false.mpr fun key hdepends => ?_⟩
        simp [FormValues.contains, refresh_absent hpass (absent_of_not_affected hleft hdepends)]
      rw [refreshOne, hbefore] at hone
      cases hone
      exact hkey
    · rw [ih (hsequential.sublist (List.sublist_cons_self ..)) hrest q hq hleft]
      exact refreshOne_get? hone (honward q hq).2.symm

/-- While the field that was set is there, a parameter is affected just if it has an input. -/
theorem isAffected_iff (distinct : (keysOf order).Nodup) (hp : p ∈ order) {key : Key}
    (hset : v.get? key ≠ none) : isAffected (dependents key order) v p = true ↔ HasInput p v := by
  have hany : p.dependsOn.any v.contains = true ↔ HasInput p v := by
    simp [HasInput, FormValues.contains, Option.isSome_iff_ne_none]
  rw [isAffected, Bool.or_eq_true, hany, List.contains_iff_mem]
  refine ⟨fun h => h.elim (fun hdirect => ?_) id, .inr⟩
  obtain ⟨q, hq, hkey⟩ := mem_keysOf.mp hdirect
  obtain ⟨hq, hdepends⟩ := List.mem_filter.mp hq
  obtain rfl := eq_of_key_eq distinct hq hp hkey
  exact ⟨key, List.contains_iff_mem.mp hdepends, hset⟩

theorem isOutcome_of_update (distinct : (keysOf parameters).Nodup)
    (acyclic : Acyclic (derivedOf parameters)) (hlimit : 1 ≤ limit)
    (h : update name value parameters v limit = .ok m) :
    IsOutcome parameters (v.set name value) m := by
  have hdistinct := nodup_derivedOf distinct
  have horder := topological_dependencyOrder hdistinct acyclic
  have hsublist := List.filter_sublist (p := fun p => p.givenFormula.isSome)
    (l := dependencyOrder parameters)
  have hsequential := sequential_computed distinct acyclic
  obtain ⟨changed, hpass⟩ := refreshAll_first hlimit hsequential (update_eq_ok.mp h).2.2
  have hset : m.get? name.key ≠ none := by
    intro hnone
    have hgone := refresh_absent hpass hnone
    rw [FormValues.get?_set_self] at hgone
    cases hgone
  have hmem : ∀ p ∈ parameters, isComputed p →
      p ∈ (dependencyOrder parameters).filter (·.givenFormula.isSome) := fun p hp hcomputed =>
    List.mem_filter.mpr (horder.computed_iff.mp ⟨hp, hcomputed⟩)
  have haffected : ∀ p ∈ parameters, isComputed p →
      (isAffected (dependents name.key
        ((dependencyOrder parameters).filter (·.givenFormula.isSome))) m p = true ↔
          HasInput p m) := fun p hp hcomputed =>
    isAffected_iff (horder.distinct.sublist (hsublist.map _)) (hmem p hp hcomputed) hset
  refine ⟨fun key => update_kept h, fun p hp hcomputed hinput => ?_,
    fun p hp hcomputed hinput => ?_⟩
  · rcases refreshed_of_refresh hsequential hpass p (hmem p hp hcomputed) with hholds | ⟨hleft, -⟩
    · exact hholds
    · rw [(haffected p hp hcomputed).mpr hinput] at hleft
      cases hleft
  · refine refresh_left_out hsequential hpass p (hmem p hp hcomputed) ?_
    exact Bool.eq_false_iff.mpr fun htrue => hinput ((haffected p hp hcomputed).mp htrue)

/-! ## Updates of forms within range -/

theorem refreshOne_total (h : v.InRange) (hnames : ∀ name ∈ p.dependencies, name.isName = true)
    (changed : Bool) :
    ∃ w changed', refreshOne direct (v, changed) p = .ok (w, changed') ∧ w.InRange := by
  obtain ⟨text, htext⟩ := evaluateDerived_total h hnames
  have hrange : (Value.text text).InRange := trivial
  rw [refreshOne]
  split
  · exact ⟨v, changed, rfl, h⟩
  · rw [htext, ok_bind]
    split
    · exact ⟨v, changed, rfl, h⟩
    · exact ⟨_, true, rfl, h.set hrange p.name⟩

theorem refresh_total (h : v.InRange)
    (hnames : ∀ p ∈ order, ∀ name ∈ p.dependencies, name.isName = true) (changed : Bool) :
    ∃ m changed', order.foldlM (refreshOne direct) (v, changed) = .ok (m, changed') ∧
      m.InRange := by
  have hstep : ∀ p ∈ order, ∀ state : FormValues × Bool, state.1.InRange →
      ∃ state', refreshOne direct state p = .ok state' ∧ state'.1.InRange := by
    intro p hp (w, changed) hw
    obtain ⟨w', changed', hone, hw'⟩ := refreshOne_total hw (hnames p hp) changed
    exact ⟨(w', changed'), hone, hw'⟩
  obtain ⟨⟨m, changed'⟩, hpass, hm⟩ := foldlM_total hstep (b := (v, changed)) h
  exact ⟨m, changed', hpass, hm⟩

theorem refreshAll_total (h : v.InRange)
    (hnames : ∀ p ∈ order, ∀ name ∈ p.dependencies, name.isName = true) (limit : Nat) :
    ∃ m, refreshAll direct order limit v = .ok m ∧ m.InRange := by
  induction limit generalizing v with
  | zero => exact ⟨v, rfl, h⟩
  | succ limit ih =>
    obtain ⟨w, changed, hpass, hw⟩ : ∃ w changed,
        order.foldlM (refreshOne direct) (v, false) = .ok (w, changed) ∧ w.InRange :=
      refresh_total h hnames false
    rw [refreshAll, refresh, hpass, ok_bind]
    cases changed with
    | false => exact ⟨w, rfl, hw⟩
    | true => exact ih hw

theorem update_total (h : v.InRange) (hname : name.isName = true) (hvalue : value.InRange)
    (hnames : ∀ name ∈ namesOf (derivedOf parameters), name.isName = true) (limit : Nat) :
    ∃ m, update name value parameters v limit = .ok m ∧ m.InRange := by
  have hdependencies : ∀ p ∈ (dependencyOrder parameters).filter (·.givenFormula.isSome),
      ∀ name ∈ p.dependencies, name.isName = true := by
    intro p hp name hname
    have hmem := dependencyOrder_subset parameters (List.mem_filter.mp hp).1
    exact hnames name (dependency_mem_namesOf hmem hname)
  obtain ⟨m, hpass, hm⟩ := refreshAll_total (h.set hvalue name) hdependencies limit
  exact ⟨m, update_eq_ok.mpr ⟨hname, hnames, hpass⟩, hm⟩

theorem update_has_outcome (distinct : (keysOf parameters).Nodup)
    (acyclic : Acyclic (derivedOf parameters))
    (hnames : ∀ name ∈ namesOf (derivedOf parameters), name.isName = true) (hlimit : 1 ≤ limit)
    (h : v.InRange) (hname : name.isName = true) (hvalue : value.InRange) :
    ∃ m, update name value parameters v limit = .ok m ∧ m.InRange ∧
      IsOutcome parameters (v.set name value) m := by
  obtain ⟨m, hm, hrange⟩ := update_total h hname hvalue hnames limit
  exact ⟨m, hm, hrange, isOutcome_of_update distinct acyclic hlimit hm⟩

theorem isName_of_cycles (distinct : (keysOf parameters).Nodup) {found : List (List Value)}
    (h : cycles parameters = .ok found) :
    ∀ name ∈ namesOf (derivedOf parameters), name.isName = true :=
  ((cycles_eq_ok distinct).mp h).1

/-! ## The limit of passes -/

/-- However many passes an update of an acyclic schema may make, it comes to the same form, and there
each computed parameter with an input holds what its formula comes to. -/
theorem update_settles {more : Nat} (distinct : (keysOf parameters).Nodup)
    (acyclic : cycles parameters = .ok []) (hv : v.InRange) (hname : name.isName = true)
    (hvalue : value.InRange) (hlimit : 1 ≤ limit) (hmore : 1 ≤ more) :
    ∃ r, update name value parameters v limit = .ok r ∧
      update name value parameters v more = .ok r ∧
      ∀ p ∈ parameters, isComputed p → HasInput p r →
        ∃ text, evaluateDerived p r = .ok text ∧ r.get? p.key = some (.text text) := by
  have hacyclic := acyclic_of_cycles acyclic
  obtain ⟨r, hr, -, houtcome⟩ := update_has_outcome distinct hacyclic
    (isName_of_cycles distinct acyclic) hlimit hv hname hvalue
  obtain ⟨-, hnames, hpasses⟩ := update_eq_ok.mp hr
  have hsame := refreshAll_any_limit hlimit hmore (sequential_computed distinct hacyclic) hpasses
  exact ⟨r, hr, update_eq_ok.mpr ⟨hname, hnames, hsame⟩, houtcome.computed⟩

/-- A value put in the place of one that is worked out does not last, after one pass or ten. -/
theorem sheet_settles : ∃ r, update "area" (.int 1) sheet sheetAnswers 1 = .ok r ∧
    update "area" (.int 1) sheet sheetAnswers 10 = .ok r ∧
    (holds r "area" "7.5" && holds r "cost" "15") = true ∧
    ∀ p ∈ sheet, isComputed p → HasInput p r →
      ∃ text, evaluateDerived p r = .ok text ∧ r.get? p.key = some (.text text) := by
  have hvalues : (update "area" (.int 1) sheet sheetAnswers 1).toOption.any (fun r =>
      holds r "area" "7.5" && holds r "cost" "15") = true := by
    decide +kernel
  obtain ⟨r, hr, hvalues⟩ := ok_of_any hvalues
  obtain ⟨r', hone, hten, hcomputed⟩ :=
    update_settles (by decide) (rfl : cycles sheet = .ok [])
      (FormValues.inRange_of_entries (by decide +kernel) : sheetAnswers.InRange)
      (rfl : ("area" : Value).isName = true) (by decide +kernel : (Value.int 1).InRange)
      (Nat.le_refl 1) (by decide : 1 ≤ 10)
  obtain rfl : r = r' := Except.ok.inj (hr.symm.trans hone)
  exact ⟨r, hone, hten, hvalues, hcomputed⟩

end Quotation.Derived
