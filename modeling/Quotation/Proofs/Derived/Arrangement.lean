import Quotation.Proofs.Derived.Circle
import Quotation.Proofs.Derived.Resolution

/-!
# The order of any schema

Placed are exactly the derived parameters whose dependencies lead to no circle, each after those that
it depends on. The others follow in schema order. So some parameter stands before one that it depends
on just if there is a circle.
-/

namespace Quotation.Derived

variable {derived placed order parameters : List Parameter} {p : Parameter} {key : Key}

/-! ## What is placed -/

/-- By induction on the front of the row: what a parameter waits for stands before it. -/
theorem Placed.acc (h : Placed derived placed) (hkey : key ∈ keysOf placed) :
    Acc (Precedes derived) key := by
  suffices hfront : ∀ front back, placed = front ++ back →
      ∀ key ∈ keysOf front, Acc (Precedes derived) key from
    hfront placed [] (List.append_nil placed).symm key hkey
  intro front
  induction front using List.reverseRecOn with
  | nil => exact fun _ _ _ hkey => nomatch hkey
  | append_singleton front p ih =>
    intro back heq key hkey
    have heq' : placed = front ++ p :: back := by simpa using heq
    rw [keysOf_concat] at hkey
    rcases List.mem_append.mp hkey with hkey | hkey
    · exact ih (p :: back) heq' key hkey
    · obtain rfl := List.mem_singleton.mp hkey
      exact ⟨_, fun other hother => ih (p :: back) heq' other (h.after front p back heq' other hother)⟩

theorem mem_ordered_iff (distinct : (keysOf derived).Nodup) :
    p ∈ ordered derived ↔ p ∈ derived ∧ ¬ ReachesCircle derived p.key := by
  have hplaced := (placed_ordered derived).1
  constructor
  · intro hp
    have hderived := hplaced.subset hp
    exact ⟨hderived, (acc_precedes_iff (key_mem hderived)).mp (hplaced.acc (key_mem hp))⟩
  · rintro ⟨hp, hnone⟩
    have hends := (acc_precedes_iff (key_mem hp)).mpr hnone
    exact mem_of_key_mem distinct hplaced.subset hp (key_mem_ordered hends (key_mem hp))

/-! ## What is left -/

def unplaced (derived : List Parameter) : List Parameter :=
  derived.filter fun p => !(keysOf (ordered derived)).contains p.key

theorem mem_unplaced_iff (distinct : (keysOf derived).Nodup) :
    p ∈ unplaced derived ↔ p ∈ derived ∧ p ∉ ordered derived := by
  simp only [unplaced, List.mem_filter, Bool.not_eq_true', List.contains_eq_mem, decide_eq_false_iff_not]
  refine and_congr_right fun hp => not_congr ⟨?_, key_mem⟩
  exact mem_of_key_mem distinct (placed_ordered derived).1.subset hp

theorem perm_dependencyOrder (distinct : (keysOf (derivedOf parameters)).Nodup) :
    (dependencyOrder parameters).Perm (derivedOf parameters) := by
  have hplaced := (placed_ordered (derivedOf parameters)).1
  have hnodup : (dependencyOrder parameters).Nodup := by
    refine List.nodup_append.mpr ⟨hplaced.distinct.of_map _, ?_, ?_⟩
    · exact (distinct.of_map _).filter _
    · rintro p hp q hq rfl
      exact ((mem_unplaced_iff distinct).mp hq).2 hp
  refine (List.perm_ext_iff_of_nodup hnodup (distinct.of_map _)).mpr fun p => ?_
  have hmem : p ∈ dependencyOrder parameters ↔
      p ∈ ordered (derivedOf parameters) ∨ p ∈ unplaced (derivedOf parameters) := List.mem_append
  rw [hmem, mem_unplaced_iff distinct]
  constructor
  · rintro (hp | hp)
    · exact hplaced.subset hp
    · exact hp.1
  · intro hp
    by_cases hplace : p ∈ ordered (derivedOf parameters)
    · exact .inl hplace
    · exact .inr ⟨hp, hplace⟩

/-- The derived parameters are put in a row of two parts. First stand those whose dependencies lead to
no circle, each after all others that it depends on; then the others, in schema order. -/
theorem schedule_in_two_parts (distinct : (keysOf parameters).Nodup)
    (names : ∀ name ∈ namesOf (derivedOf parameters), name.isName = true) :
    ∃ front back, schedule parameters = .ok (front ++ back) ∧
      (front ++ back).Perm (derivedOf parameters) ∧
      (∀ p, p ∈ front ↔ p ∈ derivedOf parameters ∧ ¬ ReachesCircle (derivedOf parameters) p.key) ∧
      (∀ before p after, front = before ++ p :: after →
        ∀ q ∈ derivedOf parameters, q.key ∈ p.dependsOn → q ≠ p → q ∈ before) ∧
      (∀ p, p ∈ back ↔ p ∈ derivedOf parameters ∧ ReachesCircle (derivedOf parameters) p.key) ∧
      back.Sublist parameters := by
  have hdistinct := nodup_derivedOf distinct
  have hplaced := (placed_ordered (derivedOf parameters)).1
  refine ⟨ordered (derivedOf parameters), unplaced (derivedOf parameters),
    schedule_eq_ok.mpr ⟨names, rfl⟩, perm_dependencyOrder hdistinct,
    fun p => mem_ordered_iff hdistinct, fun before p after heq q hq hdepends hne => ?_,
    fun p => ?_, List.filter_sublist.trans List.filter_sublist⟩
  · have hp : p ∈ derivedOf parameters := hplaced.subset (heq ▸ by simp)
    have hfeeds := Feeds.of_dependsOn hdistinct hp (key_mem hq) hdepends
    have hother : q.key ≠ p.key := fun hsame => hne (eq_of_key_eq hdistinct hq hp hsame)
    have hbefore := hplaced.after before p after heq q.key (mem_waitsFor.mpr ⟨hfeeds, hother⟩)
    refine mem_of_key_mem hdistinct (fun r hr => hplaced.subset ?_) hq hbefore
    rw [heq]
    exact List.mem_append_left _ hr
  · rw [mem_unplaced_iff hdistinct, mem_ordered_iff hdistinct]
    tauto

def invoice : List Parameter := [
  { id := "gross", name := "gross", kind := .derivedCalc, dependencies := ["net", "tax"] },
  { id := "offer", name := "offer", kind := .derivedCalc, dependencies := ["net"] },
  { id := "fee", name := "fee", kind := .derivedCalc, dependencies := ["fee", "tax"] },
  { id := "net", name := "net", kind := .derivedCalc, dependencies := ["gross", "fee"] },
  { id := "rate", name := "rate", kind := .numericValue },
  { id := "tax", name := "tax", kind := .derivedCalc, dependencies := ["rate"] }]

theorem invoice_in_two_parts :
    (schedule invoice).toOption.map (·.map (·.id)) = some ["tax", "fee", "gross", "offer", "net"] ∧
      ∃ front back, schedule invoice = .ok (front ++ back) ∧
        (front ++ back).Perm (derivedOf invoice) ∧
        (∀ p, p ∈ front ↔ p ∈ derivedOf invoice ∧ ¬ ReachesCircle (derivedOf invoice) p.key) ∧
        (∀ before p after, front = before ++ p :: after →
          ∀ q ∈ derivedOf invoice, q.key ∈ p.dependsOn → q ≠ p → q ∈ before) ∧
        (∀ p, p ∈ back ↔ p ∈ derivedOf invoice ∧ ReachesCircle (derivedOf invoice) p.key) ∧
        back.Sublist invoice :=
  ⟨by decide, schedule_in_two_parts (by decide) (by decide)⟩

/-! ## Reading ahead -/

/-- Some parameter in a row stands before one that it depends on. -/
def ReadsAhead (order : List Parameter) : Prop :=
  ∃ front p back, order = front ++ p :: back ∧ ∃ q ∈ back, q.key ∈ p.dependsOn

theorem placed_of_not_readsAhead (distinct : (keysOf derived).Nodup) (hperm : order.Perm derived)
    (h : ¬ ReadsAhead order) : Placed derived order := by
  have hkeys : (keysOf order).Perm (keysOf derived) := hperm.map _
  refine ⟨hperm.subset, hkeys.nodup_iff.mpr distinct, fun front p back heq other hother => ?_⟩
  obtain ⟨hfeeds, hne⟩ := mem_waitsFor.mp hother
  obtain ⟨q, hq, rfl⟩ := mem_keysOf.mp (hkeys.mem_iff.mpr hfeeds.1)
  have hp : p ∈ derived := hperm.subset (heq ▸ by simp)
  have hdepends : q.key ∈ p.dependsOn := by
    have hdeclared := hfeeds.2
    rwa [declared_key distinct hp] at hdeclared
  rw [heq] at hq
  rcases List.mem_append.mp hq with hq | hq
  · exact key_mem hq
  · rcases List.mem_cons.mp hq with rfl | hq
    · exact absurd rfl hne
    · exact absurd ⟨front, p, back, heq, q, hq, hdepends⟩ h

theorem Placed.not_readsAhead (distinct : (keysOf derived).Nodup) (h : Placed derived placed) :
    ¬ ReadsAhead placed := by
  rintro ⟨front, p, back, heq, q, hq, hdepends⟩
  have hmem : ∀ r ∈ p :: back, r ∈ derived := fun r hr =>
    h.subset (heq ▸ List.mem_append_right _ hr)
  have hnodup := h.distinct
  rw [heq, keysOf_append, List.nodup_append] at hnodup
  obtain ⟨-, hrest, happart⟩ := hnodup
  have hne : q.key ≠ p.key := fun hsame => (List.nodup_cons.mp hrest).1 (mem_keysOf.mpr ⟨q, hq, hsame⟩)
  have hfeeds := Feeds.of_dependsOn distinct (hmem p (List.mem_cons_self ..))
    (key_mem (hmem q (List.mem_cons_of_mem _ hq))) hdepends
  have hbefore := h.after front p back heq q.key (mem_waitsFor.mpr ⟨hfeeds, hne⟩)
  exact happart _ hbefore _ (key_mem (List.mem_cons_of_mem _ hq)) rfl

theorem readsAhead_iff (distinct : (keysOf (derivedOf parameters)).Nodup) :
    ReadsAhead (dependencyOrder parameters) ↔ ∃ cycle, IsCircle (derivedOf parameters) cycle := by
  constructor
  · intro hahead
    by_contra hnone
    have hends : ∀ key ∈ keysOf (derivedOf parameters), Acc (Precedes (derivedOf parameters)) key :=
      fun key hkey => (acc_precedes_iff hkey).mpr fun ⟨cycle, hcircle, _⟩ => hnone ⟨cycle, hcircle⟩
    rw [dependencyOrder_eq_ordered hends] at hahead
    exact (placed_ordered _).1.not_readsAhead distinct hahead
  · rintro ⟨cycle, hcircle⟩
    by_contra hnot
    have hperm := perm_dependencyOrder distinct
    have hplaced := placed_of_not_readsAhead distinct hperm hnot
    obtain ⟨name, hname⟩ := List.exists_mem_of_length_pos (Nat.zero_lt_of_lt hcircle.2)
    have hkey : name.key ∈ keysOf (dependencyOrder parameters) :=
      (hperm.map Parameter.key).mem_iff.mpr (hcircle.1.known hname)
    exact not_transGen_of_acc (hplaced.acc hkey) (hcircle.transGen hname)

end Quotation.Derived
