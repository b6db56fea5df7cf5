import Mathlib.Data.List.Perm.Subperm
import Quotation.Proofs.Derived.Dependency

/-!
# The order of an acyclic schema

What is placed comes after all that it waits for, and the sweeps stop only where each parameter that
is left waits for another one that is left. So the derived parameters of an acyclic schema are all
placed, each after the parameters that feed it.
-/

namespace Quotation.Derived

/-! ## What is placed -/

/-- A row of derived parameters with different keys, each after all that it waits for. -/
structure Placed (derived placed : List Parameter) : Prop where
  subset : placed ⊆ derived
  distinct : (keysOf placed).Nodup
  after : ∀ front p back, placed = front ++ p :: back →
    ∀ other ∈ waitsFor derived p.key, other ∈ keysOf front

/-- A parameter cannot be placed: it is, or it waits for one that is not. -/
def Waits (derived placed : List Parameter) (p : Parameter) : Prop :=
  p.key ∈ keysOf placed ∨ ∃ other ∈ waitsFor derived p.key, other ∉ keysOf placed

theorem keysOf_append (xs ys : List Parameter) : keysOf (xs ++ ys) = keysOf xs ++ keysOf ys :=
  List.map_append

theorem keysOf_concat (placed : List Parameter) (p : Parameter) :
    keysOf (placed ++ [p]) = keysOf placed ++ [p.key] := keysOf_append placed [p]

section

variable {derived placed : List Parameter} {p : Parameter}

theorem place_cases (derived placed : List Parameter) (p : Parameter) :
    (place derived placed p = placed ∧ Waits derived placed p) ∨
      (place derived placed p = placed ++ [p] ∧ p.key ∉ keysOf placed ∧
        ∀ other ∈ waitsFor derived p.key, other ∈ keysOf placed) := by
  unfold place
  split
  · rename_i hplaced
    exact .inl ⟨rfl, .inl (List.contains_iff_mem.mp hplaced)⟩
  · rename_i hplaced
    rw [List.contains_iff_mem] at hplaced
    split
    · rename_i hready
      refine .inr ⟨rfl, hplaced, fun other hother => ?_⟩
      exact List.contains_iff_mem.mp (List.all_eq_true.mp hready other hother)
    · rename_i hready
      have hleft : ∃ other ∈ waitsFor derived p.key, other ∉ keysOf placed := by simpa using hready
      exact .inl ⟨rfl, .inr hleft⟩

theorem Placed.nil (derived : List Parameter) : Placed derived [] :=
  ⟨List.nil_subset _, List.nodup_nil, fun front p back h => by simp at h⟩

theorem Placed.concat (h : Placed derived placed) (hp : p ∈ derived) (hnew : p.key ∉ keysOf placed)
    (hready : ∀ other ∈ waitsFor derived p.key, other ∈ keysOf placed) :
    Placed derived (placed ++ [p]) := by
  refine ⟨?_, ?_, ?_⟩
  · simpa using ⟨h.subset, hp⟩
  · rw [keysOf_concat, ← List.concat_eq_append]
    exact h.distinct.concat hnew
  · intro front q back heq
    rcases List.eq_nil_or_concat back with rfl | ⟨back, last, rfl⟩
    · obtain ⟨rfl, hq⟩ := List.append_inj' heq rfl
      obtain rfl : p = q := by simpa using hq
      exact hready
    · have heq' : placed ++ [p] = (front ++ q :: back) ++ [last] := by simpa using heq
      exact h.after front q back (List.append_inj' heq' rfl).1

theorem Placed.place (h : Placed derived placed) (hp : p ∈ derived) :
    Placed derived (place derived placed p) := by
  rcases place_cases derived placed p with ⟨heq, -⟩ | ⟨heq, hnew, hready⟩
  · rwa [heq]
  · rw [heq]
    exact h.concat hp hnew hready

theorem Placed.foldl (h : Placed derived placed) {row : List Parameter} (hrow : row ⊆ derived) :
    Placed derived (row.foldl (Derived.place derived) placed) := by
  induction row generalizing placed with
  | nil => exact h
  | cons p row ih =>
    rw [List.cons_subset] at hrow
    exact ih (h.place hrow.1) hrow.2

/-! ## Where the sweeps stop -/

theorem prefix_place (derived placed : List Parameter) (p : Parameter) :
    placed <+: place derived placed p := by
  rcases place_cases derived placed p with ⟨heq, -⟩ | ⟨heq, -⟩
  · exact ⟨[], by rw [heq, List.append_nil]⟩
  · exact ⟨[p], heq.symm⟩

theorem prefix_foldl_place (derived placed row : List Parameter) :
    placed <+: row.foldl (place derived) placed := by
  induction row generalizing placed with
  | nil => exact List.prefix_refl _
  | cons p row ih => exact (prefix_place derived placed p).trans (ih _)

theorem foldl_place_length (derived placed row : List Parameter) :
    placed.length ≤ (row.foldl (place derived) placed).length :=
  (prefix_foldl_place derived placed row).length_le

theorem waits_of_foldl_place {row : List Parameter}
    (h : (row.foldl (place derived) placed).length = placed.length) :
    ∀ p ∈ row, Waits derived placed p := by
  induction row generalizing placed with
  | nil => exact fun p hp => nomatch hp
  | cons p row ih =>
    rw [List.foldl_cons] at h
    rcases place_cases derived placed p with ⟨heq, hwaits⟩ | ⟨heq, -⟩
    · rw [heq] at h
      exact List.forall_mem_cons.mpr ⟨hwaits, ih h⟩
    · have hle := foldl_place_length derived (place derived placed p) row
      rw [h, heq, List.length_append, List.length_singleton] at hle
      omega

theorem Placed.length_le (h : Placed derived placed) : placed.length ≤ derived.length := by
  have hsubperm := h.distinct.subperm (List.map_subset Parameter.key h.subset)
  simpa [keysOf] using hsubperm.length_le

theorem Placed.sweeps (h : Placed derived placed) {count : Nat}
    (hcount : derived.length ≤ placed.length + count) :
    Placed derived (sweeps derived count placed) ∧
      ∀ p ∈ derived, Waits derived (sweeps derived count placed) p := by
  induction count generalizing placed with
  | zero =>
    -- As many are placed as there are.
    have hsubperm := h.distinct.subperm (List.map_subset Parameter.key h.subset)
    have hperm := hsubperm.perm_of_length_le (by simpa [keysOf] using hcount)
    exact ⟨h, fun p hp => .inl (hperm.mem_iff.mpr (key_mem hp))⟩
  | succ count ih =>
    have hsweep : Placed derived (sweep derived placed) := h.foldl (List.Subset.refl _)
    have hle := foldl_place_length derived placed derived
    simp only [Derived.sweeps]
    split
    · rename_i hlength
      exact ⟨h, waits_of_foldl_place hlength⟩
    · rename_i hlength
      exact ih hsweep (by unfold sweep at hlength ⊢; omega)

theorem placed_ordered (derived : List Parameter) :
    Placed derived (ordered derived) ∧ ∀ p ∈ derived, Waits derived (ordered derived) p :=
  (Placed.nil derived).sweeps (by simp)

theorem dependencyOrder_subset (parameters : List Parameter) :
    dependencyOrder parameters ⊆ derivedOf parameters :=
  List.append_subset.mpr ⟨(placed_ordered _).1.subset, List.filter_sublist.subset⟩

/-! ## Acyclic schemas -/

theorem acc_of_acyclic (acyclic : Acyclic derived) (key : Key) : Acc (Precedes derived) key :=
  Subrelation.accessible (fun h => (mem_waitsFor.mp h).1) (acyclic.apply key)

theorem key_mem_ordered {key : Key} (h : Acc (Precedes derived) key) (hkey : key ∈ keysOf derived) :
    key ∈ keysOf (ordered derived) := by
  induction h with
  | intro key _ ih =>
    obtain ⟨p, hp, rfl⟩ := mem_keysOf.mp hkey
    rcases (placed_ordered derived).2 p hp with hplaced | ⟨other, hother, hleft⟩
    · exact hplaced
    · exact absurd (ih other hother (mem_waitsFor.mp hother).1.1) hleft

end

theorem dependencyOrder_eq_ordered {parameters : List Parameter}
    (h : ∀ key ∈ keysOf (derivedOf parameters), Acc (Precedes (derivedOf parameters)) key) :
    dependencyOrder parameters = ordered (derivedOf parameters) := by
  unfold dependencyOrder
  rw [List.append_right_eq_self, List.filter_eq_nil_iff]
  intro p hp
  simpa using key_mem_ordered (h p.key (key_mem hp)) (key_mem hp)

theorem mem_of_key_mem {derived row : List Parameter} (distinct : (keysOf derived).Nodup)
    (hsubset : row ⊆ derived) {p : Parameter} (hp : p ∈ derived) (hkey : p.key ∈ keysOf row) :
    p ∈ row := by
  obtain ⟨q, hq, hsame⟩ := mem_keysOf.mp hkey
  rwa [← eq_of_key_eq distinct (hsubset hq) hp hsame]

/-- All derived parameters, each once and after those that feed it. -/
structure Topological (derived order : List Parameter) : Prop where
  mem : ∀ p, p ∈ order ↔ p ∈ derived
  distinct : (keysOf order).Nodup
  after : ∀ front p back, order = front ++ p :: back →
    ∀ other, Feeds derived other p.key → other ∈ keysOf front

theorem topological_dependencyOrder {parameters : List Parameter}
    (distinct : (keysOf (derivedOf parameters)).Nodup) (acyclic : Acyclic (derivedOf parameters)) :
    Topological (derivedOf parameters) (dependencyOrder parameters) := by
  have hplaced := (placed_ordered (derivedOf parameters)).1
  have hends := acc_of_acyclic acyclic
  rw [dependencyOrder_eq_ordered fun key _ => hends key]
  refine ⟨fun p => ⟨fun hp => hplaced.subset hp, fun hp => ?_⟩, hplaced.distinct, ?_⟩
  · exact mem_of_key_mem distinct hplaced.subset hp
      (key_mem_ordered (hends p.key) (key_mem hp))
  · intro front p back heq other hfeeds
    refine hplaced.after front p back heq other (mem_waitsFor.mpr ⟨hfeeds, ?_⟩)
    rintro rfl
    exact acyclic.irrefl _ hfeeds

end Quotation.Derived
