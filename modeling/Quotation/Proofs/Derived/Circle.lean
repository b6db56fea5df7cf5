import Mathlib.Logic.Relation
import Quotation.Proofs.Derived.Search

/-!
# Circles

A cycle of two parameters or more is a circle: each of its parameters waits for another one, and in
the end for itself. From a derived parameter dependencies lead to a circle just if its waiting has no
end: a trail of parameters that wait without end comes back to itself.
-/

namespace Quotation.Derived

variable {derived : List Parameter} {cycle : List Value} {key other : Key}

/-- A cycle through two parameters at least. The first one is named twice. -/
def IsCircle (derived : List Parameter) (cycle : List Value) : Prop :=
  IsCycle derived cycle ∧ 2 < cycle.length

/-- Dependencies lead from the parameter with a key to one on a circle. -/
def ReachesCircle (derived : List Parameter) (key : Key) : Prop :=
  ∃ cycle, IsCircle derived cycle ∧
    ∃ name ∈ cycle, Relation.ReflTransGen (Feeds derived) name.key key

/-! ## Round a cycle -/

theorem rel_of_step {α : Type} {R : α → α → Prop} {row : List α} (h : row.IsChain R) {a b : α}
    (hstep : [a, b] <:+: row) : R a b := by
  obtain ⟨front, back, rfl⟩ := hstep
  exact List.isChain_pair.mp h.left_of_append.right_of_append

namespace IsCycle

variable {name next : Value}

theorem known (h : IsCycle derived cycle) (hname : name ∈ cycle) : name.key ∈ keysOf derived := by
  obtain ⟨first, rest, last, rfl, hlast, -, hknown, -⟩ := h
  rcases List.mem_append.mp hname with hname | hname
  · exact hknown name hname
  · rw [List.mem_singleton.mp hname, hlast]
    exact hknown first (List.mem_cons_self ..)

theorem feeds (h : IsCycle derived cycle) (hstep : [name, next] <:+: cycle) :
    Feeds derived next.key name.key := by
  refine ⟨h.known (hstep.subset (by simp)), ?_⟩
  obtain ⟨-, -, -, -, -, -, -, hchain⟩ := h
  exact List.mem_map_of_mem (rel_of_step hchain hstep)

theorem transGen {R : Key → Key → Prop} (h : IsCycle derived cycle)
    (hsteps : ∀ name next, [name, next] <:+: cycle → R next.key name.key) (hname : name ∈ cycle) :
    Relation.TransGen R name.key name.key := by
  have hchain := (List.isChain_isInfix cycle).imp hsteps
  obtain ⟨first, rest, last, rfl, hlast, -⟩ := h
  have hkeys : ((first :: rest ++ [last]).map Value.key).IsChain (Function.swap R) :=
    (List.isChain_map _).mpr hchain
  have hpairs := (hkeys.imp fun _ _ => Relation.TransGen.single).pairwise
  rw [List.map_append, List.pairwise_append] at hpairs
  obtain ⟨hfront, -, hround⟩ := hpairs
  have hback : ∀ name ∈ first :: rest,
      Relation.TransGen (Function.swap R) name.key first.key := fun name hname =>
    hlast ▸ hround _ (List.mem_map_of_mem hname) _ (List.mem_singleton_self _)
  have hself := hback first (List.mem_cons_self ..)
  rw [← Relation.transGen_swap]
  rcases List.mem_append.mp hname with hname | hname
  · rcases List.mem_cons.mp hname with rfl | hrest
    · exact hself
    · have hto := (List.pairwise_cons.mp hfront).1 _ (List.mem_map_of_mem hrest)
      exact (hback _ hname).trans hto
  · rw [List.mem_singleton.mp hname, hlast]
    exact hself

theorem isCircle (h : IsCycle derived cycle) (hkey : key ∈ cycle.map Value.key)
    (hother : other ∈ cycle.map Value.key) (hne : other ≠ key) : IsCircle derived cycle := by
  refine ⟨h, ?_⟩
  obtain ⟨first, rest, last, rfl, hlast, -⟩ := h
  cases rest with
  | nil =>
    have hsame : ∀ key ∈ ([first] ++ [last]).map Value.key, key = first.key := by simp [hlast]
    exact absurd ((hsame other hother).trans (hsame key hkey).symm) hne
  | cons next rest => simp

end IsCycle

namespace IsCircle

variable {name next : Value}

theorem ne (h : IsCircle derived cycle) (hstep : [name, next] <:+: cycle) :
    next.key ≠ name.key := by
  obtain ⟨⟨first, rest, last, rfl, hlast, hdistinct, -⟩, hlength⟩ := h
  have hchain : ((first :: rest ++ [last]).map Value.key).IsChain (· ≠ ·) := by
    rw [List.map_append]
    refine (List.Pairwise.isChain hdistinct).append (List.isChain_singleton _) ?_
    intro key hkey other hother
    obtain rfl : last.key = other := by simpa using hother
    cases rest with
    | nil => simp at hlength
    | cons second rest =>
      rw [hlast]
      have hmem : key ∈ (second :: rest).map Value.key :=
        List.mem_of_getLast? (by simpa using hkey)
      rintro rfl
      exact (List.nodup_cons.mp hdistinct).1 hmem
  exact (rel_of_step hchain (hstep.map Value.key)).symm

theorem precedes (h : IsCircle derived cycle) (hstep : [name, next] <:+: cycle) :
    Precedes derived next.key name.key := mem_waitsFor.mpr ⟨h.1.feeds hstep, h.ne hstep⟩

theorem transGen (h : IsCircle derived cycle) (hname : name ∈ cycle) :
    Relation.TransGen (Precedes derived) name.key name.key :=
  h.1.transGen (fun _ _ => h.precedes) hname

end IsCircle

/-! ## Where trails lead -/

theorem Trail.length_le {path names : List Value} (h : Trail derived path names) :
    path.length ≤ derived.length := by
  have hsubset : path.map Value.key ⊆ keysOf derived := by
    intro key hkey
    obtain ⟨name, hname, rfl⟩ := List.mem_map.mp hkey
    exact h.known name hname
  simpa [keysOf] using (h.distinct.subperm hsubset).length_le

/-- A trail goes on through parameters of a kind, each of which waits for another one, until it comes
back to itself. -/
theorem Trail.reachesCircle {P : Key → Prop}
    (hnext : ∀ key, P key → ∃ other, Precedes derived other key ∧ P other)
    {path : List Value} {name : Value}
    (h : Trail derived (path ++ [name]) (declared derived name.key)) (hname : P name.key) :
    ReachesCircle derived name.key := by
  obtain ⟨other, hprecedes, hother⟩ := hnext name.key hname
  obtain ⟨hfeeds, hne⟩ := mem_waitsFor.mp hprecedes
  obtain ⟨next, hmem, rfl⟩ := List.mem_map.mp hfeeds.2
  have honly : Trail derived (path ++ [name]) [next] := h.of_subset (by simpa using hmem)
  by_cases hpath : next.key ∈ (path ++ [name]).map Value.key
  · obtain ⟨hon, hclosed⟩ := mem_cycleAt hpath
    refine ⟨cycleAt (path ++ [name]) next, (honly.isCycle hpath).isCircle hon hclosed hne, next, ?_,
      .single hfeeds⟩
    exact List.mem_append_right _ (List.mem_singleton_self _)
  · have henter := honly.enter hfeeds.1 hpath
    have hlength := henter.length_le
    obtain ⟨cycle, hcircle, on, hon, hleads⟩ := henter.reachesCircle hnext hother
    exact ⟨cycle, hcircle, on, hon, hleads.tail hfeeds⟩
termination_by derived.length - path.length
decreasing_by simp at hlength ⊢; omega

theorem not_transGen_of_acc {α : Type} {R : α → α → Prop} {a : α} (h : Acc R a) :
    ¬ Relation.TransGen R a a := by
  have hacc := h.transGen
  clear h
  induction hacc with
  | intro a _ ih => exact fun hself => ih a hself hself

theorem acc_of_feeds (h : Acc (Precedes derived) key) (hfeeds : Feeds derived other key) :
    Acc (Precedes derived) other := by
  by_cases hself : other = key
  · exact hself ▸ h
  · exact h.inv (mem_waitsFor.mpr ⟨hfeeds, hself⟩)

theorem acc_of_leads (h : Acc (Precedes derived) key)
    (hleads : Relation.ReflTransGen (Feeds derived) other key) : Acc (Precedes derived) other := by
  induction hleads using Relation.ReflTransGen.head_induction_on with
  | refl => exact h
  | head hfeeds _ ih => exact acc_of_feeds ih hfeeds

/-- The waiting of a derived parameter has an end just if its dependencies lead to no circle. -/
theorem acc_precedes_iff (hkey : key ∈ keysOf derived) :
    Acc (Precedes derived) key ↔ ¬ ReachesCircle derived key := by
  constructor
  · rintro hacc ⟨cycle, hcircle, name, hname, hleads⟩
    exact not_transGen_of_acc (acc_of_leads hacc hleads) (hcircle.transGen hname)
  · intro hnone
    by_contra hendless
    obtain ⟨p, hp, rfl⟩ := mem_keysOf.mp hkey
    have hstart := (Trail.nil derived [p.name]).enter hkey List.not_mem_nil
    -- What waits without end waits for something that does.
    refine hnone (hstart.reachesCircle (P := fun key => ¬ Acc (Precedes derived) key) ?_ hendless)
    intro key hkey
    obtain ⟨other, hother, hprecedes⟩ := exists_not_acc_lt_of_not_acc hkey
    exact ⟨other, hprecedes, hother⟩

end Quotation.Derived
