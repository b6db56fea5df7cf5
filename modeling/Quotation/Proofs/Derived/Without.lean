import Mathlib.Logic.Function.Iterate
import Quotation.Proofs.Form.Agreement

/-!
# Leaving a parameter out

A derived parameter that no other one reads does not change when the others are placed: where it is
left out the sweeps place the others in the same order. So a pass with it and a pass without it work
out the same for all other fields.
-/

namespace Quotation.Derived

def without (key : Key) (parameters : List Parameter) : List Parameter :=
  parameters.filter (·.key != key)

/-- No parameter with another key reads the field with a key. -/
def Unread (key : Key) (parameters : List Parameter) : Prop :=
  ∀ q ∈ parameters, q.key ≠ key → key ∉ q.dependsOn

section

variable {key : Key} {parameters derived placed : List Parameter} {p : Parameter}

theorem mem_without : p ∈ without key parameters ↔ p ∈ parameters ∧ p.key ≠ key := by
  simp [without]

theorem without_append (xs ys : List Parameter) :
    without key (xs ++ ys) = without key xs ++ without key ys := List.filter_append xs ys

theorem without_cons_self (p : Parameter) (parameters : List Parameter) :
    without p.key (p :: parameters) = without p.key parameters := by
  rw [without, List.filter_cons_of_neg (by simp)]
  rfl

theorem without_cons_of_ne (h : p.key ≠ key) (parameters : List Parameter) :
    without key (p :: parameters) = p :: without key parameters :=
  List.filter_cons_of_pos (by simpa using h)

theorem without_eq_self (h : ∀ q ∈ parameters, q.key ≠ key) : without key parameters = parameters :=
  List.filter_eq_self.mpr fun q hq => by simpa using h q hq

theorem without_filter (test : Parameter → Bool) (parameters : List Parameter) :
    without key (parameters.filter test) = (without key parameters).filter test := by
  rw [without, without, List.filter_filter, List.filter_filter]
  exact List.filter_congr fun q _ => Bool.and_comm ..

theorem without_derivedOf (key : Key) (parameters : List Parameter) :
    without key (derivedOf parameters) = derivedOf (without key parameters) :=
  without_filter _ parameters

theorem mem_keysOf_without {other : Key} :
    other ∈ keysOf (without key parameters) ↔ other ∈ keysOf parameters ∧ other ≠ key := by
  simp only [mem_keysOf, mem_without]
  constructor
  · rintro ⟨q, ⟨hq, hne⟩, rfl⟩
    exact ⟨⟨q, hq, rfl⟩, hne⟩
  · rintro ⟨⟨q, hq, rfl⟩, hne⟩
    exact ⟨q, ⟨hq, hne⟩, rfl⟩

/-! ## What the others wait for -/

theorem mem_of_mem_declared {name : Value} (h : name ∈ declared derived key) :
    ∃ q ∈ derived, q.key = key ∧ name ∈ q.dependencies := by
  unfold declared at h
  split at h
  · rename_i q hfind
    refine ⟨q, List.mem_reverse.mp (List.mem_of_find?_eq_some hfind), ?_, h⟩
    simpa using List.find?_some hfind
  · cases h

theorem declared_without {other : Key} (h : other ≠ key) :
    declared (without key derived) other = declared derived other := by
  unfold declared without
  rw [← List.filter_reverse, List.find?_filter]
  have hsame : (fun q : Parameter => decide ((q.key != key) = true ∧ (q.key == other) = true)) =
      fun q => q.key == other := by
    funext q
    by_cases hq : q.key = other
    · simp [hq, h]
    · simp [hq]
  rw [hsame]

theorem contains_without {other : Key} (h : other ≠ key) :
    (keysOf (without key parameters)).contains other = (keysOf parameters).contains other := by
  rw [Bool.eq_iff_iff, List.contains_iff_mem, List.contains_iff_mem, mem_keysOf_without]
  exact and_iff_left h

theorem ne_of_declared (unread : Unread key derived) {fed other : Key} (h : other ≠ key)
    (hfed : fed ∈ (declared derived other).map Value.key) : fed ≠ key := by
  obtain ⟨name, hname, rfl⟩ := List.mem_map.mp hfed
  obtain ⟨q, hq, rfl, hdepends⟩ := mem_of_mem_declared hname
  exact fun heq => unread q hq h (heq ▸ List.mem_map_of_mem hdepends)

theorem waitsFor_without (unread : Unread key derived) {other : Key} (h : other ≠ key) :
    waitsFor (without key derived) other = waitsFor derived other := by
  unfold waitsFor
  rw [declared_without h]
  refine List.filter_congr fun fed hfed => ?_
  rw [contains_without (ne_of_declared unread h hfed)]

/-! ## Sweeps -/

theorem place_without (unread : Unread key derived) (placed : List Parameter)
    (h : p.key ≠ key) :
    without key (place derived placed p) =
      place (without key derived) (without key placed) p := by
  have hready : (waitsFor derived p.key).all (keysOf (without key placed)).contains =
      (waitsFor derived p.key).all (keysOf placed).contains := by
    rw [Bool.eq_iff_iff, List.all_eq_true, List.all_eq_true]
    refine forall₂_congr fun fed hfed => ?_
    rw [contains_without (ne_of_declared unread h (mem_waitsFor.mp hfed).1.2)]
  unfold place
  rw [contains_without h, waitsFor_without unread h, hready]
  split
  · rfl
  · split
    · rw [without_append, without_cons_of_ne h]
      rfl
    · rfl

theorem place_left_out (derived placed : List Parameter) (p : Parameter) :
    without p.key (place derived placed p) = without p.key placed := by
  rcases place_cases derived placed p with ⟨heq, -⟩ | ⟨heq, -⟩
  · rw [heq]
  · rw [heq, without_append, without_cons_self]
    exact List.append_nil _

theorem foldl_place_without (unread : Unread key derived) (row placed : List Parameter) :
    without key (row.foldl (place derived) placed) =
      (without key row).foldl (place (without key derived)) (without key placed) := by
  induction row generalizing placed with
  | nil => rfl
  | cons p row ih =>
    rw [List.foldl_cons, ih]
    by_cases h : p.key = key
    · subst h
      rw [place_left_out, without_cons_self]
    · rw [place_without unread placed h, without_cons_of_ne h, List.foldl_cons]

theorem sweep_without (unread : Unread key derived) :
    Function.Semiconj (without key) (sweep derived) (sweep (without key derived)) :=
  foldl_place_without unread derived

theorem sweeps_eq_iterate (derived : List Parameter) (count : Nat) (placed : List Parameter) :
    sweeps derived count placed = (sweep derived)^[count] placed := by
  induction count generalizing placed with
  | zero => rfl
  | succ count ih =>
    rw [sweeps, Function.iterate_succ_apply]
    split
    · rename_i hlength
      have hfixed : sweep derived placed = placed :=
        ((prefix_foldl_place derived placed derived).eq_of_length hlength.symm).symm
      rw [hfixed, Function.iterate_fixed hfixed]
    · exact ih _

theorem place_eq_self (h : Waits derived placed p) : place derived placed p = placed := by
  rcases place_cases derived placed p with ⟨heq, -⟩ | ⟨-, hnew, hready⟩
  · exact heq
  · rcases h with hplaced | ⟨other, hother, hleft⟩
    · exact absurd hplaced hnew
    · exact absurd (hready other hother) hleft

theorem foldl_place_eq_self {row : List Parameter} (h : ∀ p ∈ row, Waits derived placed p) :
    row.foldl (place derived) placed = placed := by
  induction row with
  | nil => rfl
  | cons p row ih =>
    obtain ⟨hp, hrow⟩ := List.forall_mem_cons.mp h
    rw [List.foldl_cons, place_eq_self hp, ih hrow]

theorem sweep_ordered (derived : List Parameter) : sweep derived (ordered derived) = ordered derived :=
  foldl_place_eq_self (placed_ordered derived).2

theorem ordered_without (unread : Unread key derived) :
    without key (ordered derived) = ordered (without key derived) := by
  have hle : (without key derived).length ≤ derived.length := List.length_filter_le _ _
  have hfixed := sweep_ordered (without key derived)
  -- The sweeps of the longer list are at least as many, and the last ones find nothing to place.
  rw [ordered, sweeps_eq_iterate, (sweep_without unread).iterate_right _ |>.eq,
    ← Nat.sub_add_cancel hle, Function.iterate_add_apply]
  rw [ordered, sweeps_eq_iterate] at hfixed ⊢
  exact Function.iterate_fixed hfixed _

theorem dependencyOrder_without (unread : Unread key (derivedOf parameters)) :
    without key (dependencyOrder parameters) = dependencyOrder (without key parameters) := by
  unfold dependencyOrder
  dsimp only
  rw [without_append, ordered_without unread, without_filter, without_derivedOf,
    ← without_derivedOf, ← ordered_without unread]
  congr 1
  refine List.filter_congr fun q hq => ?_
  rw [contains_without (mem_without.mp hq).2]

end

/-! ## Passes -/

section

variable {key : Key} {parameters order : List Parameter} {p : Parameter} {v w m : FormValues}

theorem pass_without (unread : Unread key order) (h : FormValues.AgreeOff [key] v w)
    (hpass : order.foldlM resolveOne v = .ok m) :
    ∃ r, (without key order).foldlM resolveOne w = .ok r ∧ FormValues.AgreeOff [key] m r := by
  induction order generalizing v w with
  | nil =>
    cases hpass
    exact ⟨w, rfl, h⟩
  | cons p order ih =>
    obtain ⟨hp, unread⟩ := List.forall_mem_cons.mp unread
    rw [List.foldlM_cons] at hpass
    obtain ⟨v', hone, hrest⟩ := bind_eq_ok.mp hpass
    by_cases hkey : p.key = key
    · subst hkey
      rw [without_cons_self]
      refine ih unread (fun other hother => ?_) hrest
      rw [resolveOne_kept hone fun _ => Ne.symm (by simpa using hother), h other hother]
    · have hreads : ∀ other ∈ p.dependsOn, other ∉ [key] := fun other hother hmem =>
        hp hkey (List.mem_singleton.mp hmem ▸ hother)
      obtain ⟨w', hone', h'⟩ := resolveOne_agree hreads h hone
      obtain ⟨r, hrest', hr⟩ := ih unread h' hrest
      exact ⟨r, by rw [without_cons_of_ne hkey, List.foldlM_cons, hone', ok_bind, hrest'], hr⟩

theorem namesOf_subset {derived listed : List Parameter} (h : listed ⊆ derived) :
    namesOf listed ⊆ namesOf derived := by
  refine List.append_subset.mpr ⟨fun name hname => ?_, fun name hname => ?_⟩
  · exact List.mem_append_left _ (List.map_subset _ h hname)
  · obtain ⟨p, hp, hdependency⟩ := List.mem_flatMap.mp hname
    exact dependency_mem_namesOf (h hp) hdependency

/-- A full pass works out the same for all other fields where the parameter is left out. -/
theorem resolve_without (unread : Unread key (derivedOf parameters))
    (hresolve : resolve parameters v = .ok m) :
    ∃ r, resolve (without key parameters) v = .ok r ∧ FormValues.AgreeOff [key] m r := by
  obtain ⟨hnames, hpass⟩ := resolve_eq_ok.mp hresolve
  have hunread : Unread key (dependencyOrder parameters) :=
    fun q hq => unread q (dependencyOrder_subset parameters hq)
  obtain ⟨r, hpass', hr⟩ := pass_without hunread (fun _ _ => rfl) hpass
  rw [dependencyOrder_without unread] at hpass'
  have hsubset : derivedOf (without key parameters) ⊆ derivedOf parameters := by
    rw [← without_derivedOf]
    exact List.filter_sublist.subset
  exact ⟨r, resolve_eq_ok.mpr ⟨fun name hname => hnames name (namesOf_subset hsubset hname), hpass'⟩,
    hr⟩

end

end Quotation.Derived
