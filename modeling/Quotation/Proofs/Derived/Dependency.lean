import Mathlib.Data.List.Nodup
import Mathlib.Order.WellFounded
import Mathlib.Tactic.Tauto
import Quotation.Derived.Order

/-!
# What derived parameters depend on

A derived parameter is fed by the derived parameters among its dependencies, by itself too if it is
one of them. Whether parameters feed each other in circles does not depend on the order in which a
schema lists them.
-/

namespace Quotation.Derived

/-- The parameter with the second key depends on the derived parameter with the first. -/
def Feeds (derived : List Parameter) (other key : Key) : Prop :=
  other ∈ keysOf derived ∧ other ∈ (declared derived key).map Value.key

def Acyclic (derived : List Parameter) : Prop := WellFounded (Feeds derived)

theorem mem_waitsFor {derived : List Parameter} {other key : Key} :
    other ∈ waitsFor derived key ↔ Feeds derived other key ∧ other ≠ key := by
  simp only [waitsFor, Feeds, List.mem_filter, Bool.and_eq_true, bne_iff_ne, List.contains_iff_mem]
  tauto

/-- The parameter with the second key waits for the one with the first. -/
def Precedes (derived : List Parameter) (other key : Key) : Prop := other ∈ waitsFor derived key

theorem mem_keysOf {parameters : List Parameter} {key : Key} :
    key ∈ keysOf parameters ↔ ∃ p ∈ parameters, p.key = key := List.mem_map

theorem key_mem {parameters : List Parameter} {p : Parameter} (h : p ∈ parameters) :
    p.key ∈ keysOf parameters := List.mem_map_of_mem h

theorem eq_of_key_eq {parameters : List Parameter} (distinct : (keysOf parameters).Nodup)
    {p q : Parameter} (hp : p ∈ parameters) (hq : q ∈ parameters) (h : p.key = q.key) : p = q :=
  List.inj_on_of_nodup_map distinct hp hq h

theorem declared_eq_nil {derived : List Parameter} {key : Key} (h : key ∉ keysOf derived) :
    declared derived key = [] := by
  unfold declared
  split
  · rename_i p hfind
    have hkey := List.find?_some hfind
    have hmem := List.mem_reverse.mp (List.mem_of_find?_eq_some hfind)
    exact absurd (mem_keysOf.mpr ⟨p, hmem, by simpa using hkey⟩) h
  · rfl

theorem declared_key {derived : List Parameter} (distinct : (keysOf derived).Nodup) {p : Parameter}
    (h : p ∈ derived) : declared derived p.key = p.dependencies := by
  unfold declared
  split
  · rename_i q hfind
    have hkey := List.find?_some hfind
    have hmem := List.mem_reverse.mp (List.mem_of_find?_eq_some hfind)
    rw [eq_of_key_eq distinct hmem h (by simpa using hkey)]
  · rename_i hfind
    have hnone := List.find?_eq_none.mp hfind p (List.mem_reverse.mpr h)
    simp at hnone

theorem Feeds.of_dependsOn {derived : List Parameter} (distinct : (keysOf derived).Nodup)
    {p : Parameter} (h : p ∈ derived) {other : Key} (hother : other ∈ keysOf derived)
    (hdepends : other ∈ p.dependsOn) : Feeds derived other p.key := by
  refine ⟨hother, ?_⟩
  rw [declared_key distinct h]
  exact hdepends

theorem Acyclic.irrefl {derived : List Parameter} (acyclic : Acyclic derived) (key : Key) :
    ¬ Feeds derived key key := fun h => acyclic.asymmetric _ _ h h

/-! ## Listing the parameters in another order -/

theorem declared_perm {derived listed : List Parameter} (distinct : (keysOf derived).Nodup)
    (h : listed.Perm derived) (key : Key) : declared listed key = declared derived key := by
  have hkeys : (keysOf listed).Perm (keysOf derived) := h.map _
  by_cases hkey : key ∈ keysOf derived
  · obtain ⟨p, hp, rfl⟩ := mem_keysOf.mp hkey
    rw [declared_key distinct hp, declared_key (hkeys.nodup_iff.mpr distinct) (h.mem_iff.mpr hp)]
  · rw [declared_eq_nil hkey, declared_eq_nil (fun hlisted => hkey (hkeys.mem_iff.mp hlisted))]

theorem Acyclic.perm {derived listed : List Parameter} (distinct : (keysOf derived).Nodup)
    (acyclic : Acyclic derived) (h : listed.Perm derived) : Acyclic listed := by
  have hkeys : (keysOf listed).Perm (keysOf derived) := h.map _
  have hfeeds : Feeds listed = Feeds derived := by
    funext other key
    rw [Feeds, Feeds, declared_perm distinct h, hkeys.mem_iff]
  rw [Acyclic, hfeeds]
  exact acyclic

end Quotation.Derived
