import Quotation.Proofs.Derived.Update

/-!
# What an update leaves

An update starts from any form, one that holds its derived values or not. When it is done, a
computed parameter holds what its formula comes to, or nothing that it depends on is there and it
holds what it held before. One pass is enough for that: the second one finds nothing to do.
-/

namespace Quotation.Derived

/-- Each computed parameter holds what it comes to in `m`, or nothing that it depends on is there and
it holds what it held in `v`. All other keys hold what they held in `v`. -/
structure IsRefresh (parameters : List Parameter) (v m : FormValues) : Prop where
  kept : ∀ key, (∀ p ∈ parameters, isComputed p → p.key ≠ key) → m.get? key = v.get? key
  present : ∀ key, m.get? key = none → v.get? key = none
  computed : ∀ p ∈ parameters, isComputed p →
    (∃ text, evaluateDerived p m = .ok text ∧ m.get? p.key = some (.text text)) ∨
      ((∀ key ∈ p.dependsOn, m.get? key = none) ∧ m.get? p.key = v.get? p.key)

/-- Parameters in a row with different keys, none of which reads itself or one further on. -/
structure Sequential (order : List Parameter) : Prop where
  self : ∀ p ∈ order, p.key ∉ p.dependsOn
  onward : order.Pairwise fun p q => q.key ∉ p.dependsOn ∧ q.key ≠ p.key

theorem Sequential.sublist {order row : List Parameter} (h : Sequential order)
    (hrow : row.Sublist order) : Sequential row :=
  ⟨fun p hp => h.self p (hrow.subset hp), h.onward.sublist hrow⟩

section

variable {parameters order back : List Parameter} {p : Parameter}

theorem Topological.sequential (h : Topological (derivedOf parameters) order)
    (distinct : (keysOf (derivedOf parameters)).Nodup) : Sequential order := by
  refine ⟨fun p hp hself => ?_, ?_⟩
  · obtain ⟨front, back, heq⟩ := List.append_of_mem hp
    exact h.ne_key distinct heq hself (List.mem_cons_self ..) rfl
  · -- Whatever stands in front, the rest of the order is in sequence.
    suffices hrest : ∀ back front, order = front ++ back →
        back.Pairwise fun p q => q.key ∉ p.dependsOn ∧ q.key ≠ p.key from hrest order [] rfl
    intro back
    induction back with
    | nil => exact fun _ _ => List.Pairwise.nil
    | cons p back ih =>
      intro front heq
      refine List.pairwise_cons.mpr ⟨fun q hq => ⟨fun hread => ?_, fun hkey => ?_⟩, ?_⟩
      · exact h.ne_key distinct heq hread (List.mem_cons_of_mem _ hq) rfl
      · have hdistinct := h.distinct
        rw [heq, keysOf_append] at hdistinct
        have hnew := (List.nodup_cons.mp (List.nodup_append.mp hdistinct).2.1).1
        exact hnew (mem_keysOf.mpr ⟨q, hq, hkey⟩)
      · exact ih (front ++ [p]) (by simpa using heq)

theorem sequential_computed (distinct : (keysOf parameters).Nodup)
    (acyclic : Acyclic (derivedOf parameters)) :
    Sequential ((dependencyOrder parameters).filter (·.givenFormula.isSome)) := by
  have hdistinct := nodup_derivedOf distinct
  exact ((topological_dependencyOrder hdistinct acyclic).sequential hdistinct).sublist
    List.filter_sublist

/-! ## One pass -/

variable {direct : List Key} {v w m : FormValues} {changed changed' : Bool}

/-- In `m` the parameter holds what it comes to, or it is left out and holds what it held in `v`. -/
def Refreshed (direct : List Key) (v m : FormValues) (p : Parameter) : Prop :=
  (∃ text, evaluateDerived p m = .ok text ∧ m.get? p.key = some (.text text)) ∨
    (isAffected direct m p = false ∧ m.get? p.key = v.get? p.key)

theorem refreshOne_cases (h : refreshOne direct (v, changed) p = .ok (w, changed')) :
    (isAffected direct v p = false ∧ w = v) ∨
      ∃ text, evaluateDerived p v = .ok text ∧ w = v.set p.name (.text text) := by
  rw [refreshOne] at h
  split at h
  · rename_i hnot
    cases h
    exact .inl ⟨by simpa using hnot, rfl⟩
  · obtain ⟨text, htext, h⟩ := bind_eq_ok.mp h
    refine .inr ⟨text, htext, ?_⟩
    split at h
    · rename_i hholds
      cases h
      exact (FormValues.set_eq_self (holds_iff.mp hholds)).symm
    · cases h
      rfl

theorem refreshOne_get? (h : refreshOne direct (v, changed) p = .ok (w, changed')) {key : Key}
    (hkey : p.key ≠ key) : w.get? key = v.get? key := by
  obtain ⟨-, rfl⟩ | ⟨text, -, rfl⟩ := refreshOne_cases h
  · rfl
  · have hne : key ≠ p.name.key := hkey.symm
    rw [FormValues.get?_set, if_neg hne]

theorem refreshOne_absent (h : refreshOne direct (v, changed) p = .ok (w, changed')) {key : Key}
    (hkey : w.get? key = none) : v.get? key = none := by
  obtain ⟨-, rfl⟩ | ⟨text, -, rfl⟩ := refreshOne_cases h
  · exact hkey
  · exact FormValues.absent_of_set hkey

theorem refresh_get? (h : order.foldlM (refreshOne direct) (v, changed) = .ok (m, changed'))
    {key : Key} (hkey : ∀ p ∈ order, p.key ≠ key) : m.get? key = v.get? key := by
  induction order generalizing v changed with
  | nil =>
    cases h
    rfl
  | cons p order ih =>
    rw [List.foldlM_cons] at h
    obtain ⟨⟨w, _⟩, hone, hrest⟩ := bind_eq_ok.mp h
    rw [ih hrest fun q hq => hkey q (List.mem_cons_of_mem _ hq)]
    exact refreshOne_get? hone (hkey p (List.mem_cons_self ..))

theorem refresh_absent (h : order.foldlM (refreshOne direct) (v, changed) = .ok (m, changed'))
    {key : Key} (hkey : m.get? key = none) : v.get? key = none := by
  induction order generalizing v changed with
  | nil =>
    cases h
    exact hkey
  | cons p order ih =>
    rw [List.foldlM_cons] at h
    obtain ⟨⟨w, _⟩, hone, hrest⟩ := bind_eq_ok.mp h
    exact refreshOne_absent hone (ih hrest)

theorem isAffected_congr (h : ∀ key ∈ p.dependsOn, v.get? key = w.get? key) :
    isAffected direct v p = isAffected direct w p := by
  have hany : p.dependsOn.any v.contains = p.dependsOn.any w.contains := by
    rw [Bool.eq_iff_iff, List.any_eq_true, List.any_eq_true]
    refine exists_congr fun key => and_congr_right fun hkey => ?_
    rw [FormValues.contains, FormValues.contains, h key hkey]
  rw [isAffected, isAffected, hany]

theorem refreshed_of_refresh (hsequential : Sequential order)
    (h : order.foldlM (refreshOne direct) (v, changed) = .ok (m, changed')) :
    ∀ p ∈ order, Refreshed direct v m p := by
  induction order generalizing v changed with
  | nil => exact fun p hp => nomatch hp
  | cons p order ih =>
    obtain ⟨hself, -⟩ := List.forall_mem_cons.mp hsequential.self
    obtain ⟨honward, -⟩ := List.pairwise_cons.mp hsequential.onward
    rw [List.foldlM_cons] at h
    obtain ⟨⟨w, changed⟩, hone, hrest⟩ := bind_eq_ok.mp h
    have hkeyp : m.get? p.key = w.get? p.key :=
      refresh_get? hrest fun q hq => (honward q hq).2
    -- What `p` reads is not written from its place on.
    have hreads : ∀ key ∈ p.dependsOn, m.get? key = w.get? key ∧ w.get? key = v.get? key := by
      intro key hkey
      constructor
      · exact refresh_get? hrest fun q hq heq => (honward q hq).1 (heq ▸ hkey)
      · exact refreshOne_get? hone fun heq => hself (heq ▸ hkey)
    have hsame : ∀ key ∈ p.dependsOn, m.get? key = v.get? key :=
      fun key hkey => (hreads key hkey).1.trans (hreads key hkey).2
    refine List.forall_mem_cons.mpr ⟨?_, fun q hq => ?_⟩
    · obtain ⟨hleft, rfl⟩ | ⟨text, htext, rfl⟩ := refreshOne_cases hone
      · exact .inr ⟨(isAffected_congr hsame).trans hleft, hkeyp⟩
      · refine .inl ⟨text, (evaluateDerived_congr hsame).trans htext, hkeyp.trans ?_⟩
        exact FormValues.get?_set_self v p.name _
    · rcases ih (hsequential.sublist (List.sublist_cons_self ..)) hrest q hq with hq' | hq'
      · exact .inl hq'
      · exact .inr ⟨hq'.1, hq'.2.trans (refreshOne_get? hone (honward q hq).2.symm)⟩

theorem refresh_eq_self_of_refreshed (h : ∀ p ∈ order, Refreshed direct v m p) :
    refresh direct order m = .ok (m, false) := by
  refine foldlM_eq_self fun p hp => ?_
  rcases h p hp with ⟨text, htext, hget⟩ | ⟨hleft, -⟩
  · exact refreshOne_eq_self htext hget
  · rw [refreshOne, hleft]
    rfl

/-! ## The update -/

theorem update_eq_ok {name value : Value} {limit : Nat} :
    update name value parameters v limit = .ok m ↔
      name.isName = true ∧ (∀ name ∈ namesOf (derivedOf parameters), name.isName = true) ∧
        refreshAll
          (dependents name.key ((dependencyOrder parameters).filter (·.givenFormula.isSome)))
          ((dependencyOrder parameters).filter (·.givenFormula.isSome)) limit
          (v.set name value) = .ok m := by
  rw [update, FormValues.write]
  split
  · rename_i hname
    rw [ok_bind, bind_eq_ok]
    simp only [schedule_eq_ok, hname, true_and]
    constructor
    · rintro ⟨_, ⟨hnames, rfl⟩, h⟩
      exact ⟨hnames, h⟩
    · rintro ⟨hnames, h⟩
      exact ⟨_, ⟨hnames, rfl⟩, h⟩
  · rename_i hname
    simp [hname]

theorem refreshAll_get? {limit : Nat} (h : refreshAll direct order limit v = .ok m) {key : Key}
    (hkey : ∀ p ∈ order, p.key ≠ key) : m.get? key = v.get? key := by
  induction limit generalizing v with
  | zero =>
    cases h
    rfl
  | succ limit ih =>
    rw [refreshAll] at h
    obtain ⟨⟨w, changed⟩, hpass, h⟩ := bind_eq_ok.mp h
    have hfirst := refresh_get? hpass hkey
    cases changed with
    | true => rw [ih h, hfirst]
    | false =>
      cases h
      exact hfirst

theorem update_kept {name value : Value} {limit : Nat}
    (h : update name value parameters v limit = .ok m) {key : Key}
    (hkey : ∀ p ∈ parameters, isComputed p → p.key ≠ key) :
    m.get? key = (v.set name value).get? key := by
  refine refreshAll_get? (update_eq_ok.mp h).2.2 fun p hp => ?_
  obtain ⟨hp, hformula⟩ := List.mem_filter.mp hp
  obtain ⟨hmem, hcomputed⟩ := computed_of_dependencyOrder hp hformula
  exact hkey p hmem hcomputed

theorem refreshAll_first {limit : Nat} (hlimit : 1 ≤ limit) (hsequential : Sequential order)
    (h : refreshAll direct order limit v = .ok m) :
    ∃ changed, refresh direct order v = .ok (m, changed) := by
  obtain ⟨limit, rfl⟩ := Nat.exists_eq_add_of_le' hlimit
  have hfirst := h
  rw [refreshAll, bind_eq_ok] at hfirst
  obtain ⟨⟨w, changed⟩, hfirst, -⟩ := hfirst
  have hagain := refresh_eq_self_of_refreshed (refreshed_of_refresh hsequential hfirst)
  rw [refreshAll_of_refresh hlimit hfirst hagain] at h
  cases h
  exact ⟨changed, hfirst⟩

theorem refreshAll_any_limit {limit more : Nat} (hlimit : 1 ≤ limit) (hmore : 1 ≤ more)
    (hsequential : Sequential order) (h : refreshAll direct order limit v = .ok m) :
    refreshAll direct order more v = .ok m := by
  obtain ⟨changed, hfirst⟩ := refreshAll_first hlimit hsequential h
  exact refreshAll_of_refresh hmore hfirst
    (refresh_eq_self_of_refreshed (refreshed_of_refresh hsequential hfirst))

theorem isRefresh_of_update {name value : Value} {limit : Nat}
    (distinct : (keysOf parameters).Nodup) (acyclic : Acyclic (derivedOf parameters))
    (hlimit : 1 ≤ limit)
    (h : update name value parameters v limit = .ok m) :
    IsRefresh parameters (v.set name value) m := by
  have hdistinct := nodup_derivedOf distinct
  have horder := topological_dependencyOrder hdistinct acyclic
  have hsequential := sequential_computed distinct acyclic
  obtain ⟨changed, hpass⟩ := refreshAll_first hlimit hsequential (update_eq_ok.mp h).2.2
  have hrefreshed := refreshed_of_refresh hsequential hpass
  refine ⟨fun key => update_kept h, fun key => refresh_absent hpass, fun p hp hcomputed => ?_⟩
  have hmem : p ∈ (dependencyOrder parameters).filter (·.givenFormula.isSome) :=
    List.mem_filter.mpr (horder.computed_iff.mp ⟨hp, hcomputed⟩)
  rcases hrefreshed p hmem with hholds | ⟨hleft, hget⟩
  · exact .inl hholds
  · exact .inr ⟨fun key => absent_of_not_affected hleft, hget⟩

end

end Quotation.Derived
