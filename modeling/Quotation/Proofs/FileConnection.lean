import Quotation.FileConnection
import Quotation.Proofs.Derived.Outcome

/-!
# Filling in a form from a file

Each connection fills in one field and has the derived values follow. Two connections to different
fields come to the same one after the other, whichever is first, so connections to different fields
may stand in any order.
-/

namespace Quotation.FileConnection

open Derived

variable {parameters : List Parameter} {file v w m : FormValues} {limit : Nat}
  {c d : FileConnection} {connections other : List FileConnection}

/-! ## What a connection fills in -/

def HasNames (c : FileConnection) : Prop := c.property.isName = true ∧ c.parameter.isName = true

def given? (file : FormValues) (c : FileConnection) : Option String :=
  match file.get c.property.key with
  | .null => none
  | value => some value.shown

theorem fill_eq_self (hc : c.HasNames) (h : given? file c = none) :
    fill file parameters limit v c = .ok v := by
  rw [fill, FormValues.read, if_pos hc.1, ok_bind]
  unfold given? at h
  cases hvalue : file.get c.property.key with
  | null => rfl
  | _ =>
    rw [hvalue] at h
    cases h

theorem fill_eq_update {s : String} (hc : c.HasNames) (h : given? file c = some s) :
    fill file parameters limit v c = update c.parameter (.text s) parameters v limit := by
  rw [fill, FormValues.read, if_pos hc.1, ok_bind]
  unfold given? at h
  cases hvalue : file.get c.property.key with
  | null =>
    rw [hvalue] at h
    cases h
  | _ =>
    rw [hvalue] at h
    cases h
    rfl

theorem fillAll_cons (h : fill file parameters limit v c = .ok w)
    (hrest : fillAll file connections parameters w limit = .ok m) :
    fillAll file (c :: connections) parameters v limit = .ok m := by
  rw [fillAll, List.foldlM_cons, h, ok_bind]
  exact hrest

/-! ## Forms with the same answers -/

/-- Two forms within range that hold the same under all keys. -/
structure Alike (v w : FormValues) : Prop where
  left : v.InRange
  right : w.InRange
  same : ∀ key, v.get? key = w.get? key

theorem Alike.refl (h : v.InRange) : Alike v v := ⟨h, h, fun _ => rfl⟩

theorem Alike.trans {u : FormValues} (h : Alike u v) (h' : Alike v w) : Alike u w :=
  ⟨h.left, h'.right, fun key => (h.same key).trans (h'.same key)⟩

theorem Alike.of_outcome {written written' : FormValues} (distinct : (keysOf parameters).Nodup)
    (acyclic : Acyclic (derivedOf parameters)) (hm : m.InRange) (hw : w.InRange)
    (hout : IsOutcome parameters written m) (hout' : IsOutcome parameters written' w)
    (hsame : ∀ key, written.get? key = written'.get? key) : Alike m w :=
  ⟨hm, hw, (hout.congr hsame).unique distinct acyclic hout'⟩

theorem get?_set_comm {name name' : Value} (h : name.key ≠ name'.key) (value value' : Value)
    (hsame : ∀ key, v.get? key = w.get? key) (key : Key) :
    ((v.set name value).set name' value').get? key =
      ((w.set name' value').set name value).get? key := by
  simp only [FormValues.get?_set, hsame]
  split
  · rename_i hkey
    rw [if_neg (hkey ▸ h.symm)]
  · rfl

section

variable (file) (distinct : (keysOf parameters).Nodup) (acyclic : Acyclic (derivedOf parameters))
  (hnames : ∀ name ∈ namesOf (derivedOf parameters), name.isName = true) (hlimit : 1 ≤ limit)

include distinct acyclic hnames hlimit

theorem fill_alike (hc : c.HasNames) (h : Alike v w) :
    ∃ m r, fill file parameters limit v c = .ok m ∧ fill file parameters limit w c = .ok r ∧
      Alike m r := by
  cases hgiven : given? file c with
  | none => exact ⟨v, w, fill_eq_self hc hgiven, fill_eq_self hc hgiven, h⟩
  | some s =>
    have htext : (Value.text s).InRange := trivial
    obtain ⟨m, hm, hmrange, hmout⟩ :=
      update_has_outcome distinct acyclic hnames hlimit h.left hc.2 htext
    obtain ⟨r, hr, hrrange, hrout⟩ :=
      update_has_outcome distinct acyclic hnames hlimit h.right hc.2 htext
    refine ⟨m, r, by rw [fill_eq_update hc hgiven, hm], by rw [fill_eq_update hc hgiven, hr], ?_⟩
    refine .of_outcome distinct acyclic hmrange hrrange hmout hrout fun key => ?_
    rw [FormValues.get?_set, FormValues.get?_set, h.same]

theorem fill_swap (hc : c.HasNames) (hd : d.HasNames) (hne : c.parameter.key ≠ d.parameter.key)
    (h : Alike v w) :
    ∃ m r, (do fill file parameters limit (← fill file parameters limit v c) d) = .ok m ∧
      (do fill file parameters limit (← fill file parameters limit w d) c) = .ok r ∧
      Alike m r := by
  cases hgiven : given? file c with
  | none =>
    obtain ⟨m, r, hm, hr, halike⟩ := fill_alike file distinct acyclic hnames hlimit hd h
    refine ⟨m, r, by rw [fill_eq_self hc hgiven, ok_bind, hm], ?_, halike⟩
    rw [hr, ok_bind, fill_eq_self hc hgiven]
  | some s =>
    cases hgiven' : given? file d with
    | none =>
      obtain ⟨m, r, hm, hr, halike⟩ := fill_alike file distinct acyclic hnames hlimit hc h
      refine ⟨m, r, ?_, by rw [fill_eq_self hd hgiven', ok_bind, hr], halike⟩
      rw [hm, ok_bind, fill_eq_self hd hgiven']
    | some t =>
      have houtcome := fun (v : FormValues) (name : Value) (s : String) (hv : v.InRange)
          (hname : name.isName = true) =>
        have htext : (Value.text s).InRange := trivial
        update_has_outcome distinct acyclic hnames hlimit hv hname htext
      obtain ⟨v₁, hv₁, hrange₁, hout₁⟩ := houtcome v c.parameter s h.left hc.2
      obtain ⟨m, hm, hmrange, hmout⟩ := houtcome v₁ d.parameter t hrange₁ hd.2
      obtain ⟨w₁, hw₁, hrange₁', hout₁'⟩ := houtcome w d.parameter t h.right hd.2
      obtain ⟨r, hr, hrrange, hrout⟩ := houtcome w₁ c.parameter s hrange₁' hc.2
      refine ⟨m, r, ?_, ?_, ?_⟩
      · rw [fill_eq_update hc hgiven, hv₁, ok_bind, fill_eq_update hd hgiven', hm]
      · rw [fill_eq_update hd hgiven', hw₁, ok_bind, fill_eq_update hc hgiven, hr]
      · exact .of_outcome distinct acyclic hmrange hrrange (hout₁.set hmout) (hout₁'.set hrout)
          (get?_set_comm hne _ _ h.same)

/-! ## All connections -/

theorem fillAll_alike (hconnections : ∀ c ∈ connections, c.HasNames) (h : Alike v w) :
    ∃ m r, fillAll file connections parameters v limit = .ok m ∧
      fillAll file connections parameters w limit = .ok r ∧ Alike m r := by
  induction connections generalizing v w with
  | nil => exact ⟨v, w, rfl, rfl, h⟩
  | cons c connections ih =>
    obtain ⟨hc, hconnections⟩ := List.forall_mem_cons.mp hconnections
    obtain ⟨v₁, w₁, hv₁, hw₁, h₁⟩ := fill_alike file distinct acyclic hnames hlimit hc h
    obtain ⟨m, r, hm, hr, halike⟩ := ih hconnections h₁
    exact ⟨m, r, fillAll_cons hv₁ hm, fillAll_cons hw₁ hr, halike⟩

/-- A permutation is made of swaps of neighbours, and what stands behind a swap starts from forms
with the same answers. -/
theorem fillAll_perm (hperm : other.Perm connections)
    (hconnections : ∀ c ∈ connections, c.HasNames)
    (hfields : (connections.map (·.parameter.key)).Nodup) (h : Alike v w) :
    ∃ m r, fillAll file other parameters v limit = .ok m ∧
      fillAll file connections parameters w limit = .ok r ∧ Alike m r := by
  induction hperm generalizing v w with
  | nil => exact ⟨v, w, rfl, rfl, h⟩
  | cons c hperm ih =>
    obtain ⟨hc, hconnections⟩ := List.forall_mem_cons.mp hconnections
    obtain ⟨v₁, w₁, hv₁, hw₁, h₁⟩ := fill_alike file distinct acyclic hnames hlimit hc h
    obtain ⟨m, r, hm, hr, halike⟩ := ih hconnections (List.nodup_cons.mp hfields).2 h₁
    exact ⟨m, r, fillAll_cons hv₁ hm, fillAll_cons hw₁ hr, halike⟩
  | swap c d rest =>
    obtain ⟨hc, hd, hrest⟩ : c.HasNames ∧ d.HasNames ∧ ∀ c ∈ rest, c.HasNames := by
      simpa using hconnections
    have hne : d.parameter.key ≠ c.parameter.key := by
      intro heq
      simp [heq] at hfields
    obtain ⟨v₂, w₂, hv₂, hw₂, h₂⟩ :=
      fill_swap file distinct acyclic hnames hlimit hd hc hne h
    obtain ⟨m, r, hm, hr, halike⟩ := fillAll_alike file distinct acyclic hnames hlimit hrest h₂
    refine ⟨m, r, ?_, ?_, halike⟩
    · rw [fillAll, List.foldlM_cons]
      simp only [List.foldlM_cons, ← bind_assoc, hv₂, ok_bind]
      exact hm
    · rw [fillAll, List.foldlM_cons]
      simp only [List.foldlM_cons, ← bind_assoc, hw₂, ok_bind]
      exact hr
  | trans hfirst hsecond ihfirst ihsecond =>
    have hmiddle := fun c hc => hconnections c (hsecond.mem_iff.mp hc)
    have hfields' := (hsecond.map (·.parameter.key)).nodup_iff.mpr hfields
    obtain ⟨m, u, hm, hu, hleft⟩ := ihfirst hmiddle hfields' (.refl h.left)
    obtain ⟨u', r, hu', hr, hright⟩ := ihsecond hconnections hfields h
    rw [hu] at hu'
    cases hu'
    exact ⟨m, r, hm, hr, hleft.trans hright⟩

end

/-- In an acyclic schema, connections to different fields fill in a form within range the same in
whatever order they stand, also where they fill in derived fields. -/
theorem fills_in_any_order (distinct : (keysOf parameters).Nodup)
    (acyclic : cycles parameters = .ok []) (hlimit : 1 ≤ limit) (hv : v.InRange)
    (hconnections : ∀ c ∈ connections, c.HasNames)
    (hfields : (connections.map (·.parameter.key)).Nodup) (hperm : other.Perm connections) :
    ∃ m r, fillAll file connections parameters v limit = .ok m ∧
      fillAll file other parameters v limit = .ok r ∧ ∀ key, r.get? key = m.get? key := by
  obtain ⟨r, m, hr, hm, halike⟩ := fillAll_perm file distinct (acyclic_of_cycles acyclic)
    (isName_of_cycles distinct acyclic) hlimit hperm hconnections hfields (.refl hv)
  exact ⟨m, r, hm, hr, halike.same⟩

def drawing : FormValues :=
  ⟨[⟨"width", .float 2.5⟩, ⟨"surface", .int 12⟩, ⟨"title", .bool true⟩, ⟨"depth", .null⟩]⟩

/-- The surface goes to a field that is worked out itself once the width is there. -/
def drawingConnections : List FileConnection := [
  { id := "1", property := "surface", parameter := "area" },
  { id := "2", property := "width", parameter := "w" },
  { id := "3", property := "depth", parameter := "depth" },
  { id := "4", property := "title", parameter := "note" }]

theorem drawing_fills_sheet : ∃ m r,
    fillAll drawing drawingConnections sheet (FormValues.empty.set "h" (.int 2)) 1 = .ok m ∧
    fillAll drawing drawingConnections.reverse sheet (FormValues.empty.set "h" (.int 2)) 1 =
      .ok r ∧
    (∀ key, r.get? key = m.get? key) ∧
    (holds r "area" "5" && holds r "cost" "10" && holds r "note" "True") = true := by
  obtain ⟨m, r, hm, hr, hsame⟩ : ∃ m r,
      fillAll drawing drawingConnections sheet (FormValues.empty.set "h" (.int 2)) 1 = .ok m ∧
      fillAll drawing drawingConnections.reverse sheet (FormValues.empty.set "h" (.int 2)) 1 =
        .ok r ∧ ∀ key, r.get? key = m.get? key :=
    fills_in_any_order (by decide) rfl (Nat.le_refl 1)
      (FormValues.inRange_of_entries (by decide +kernel))
      (by simp [drawingConnections, HasNames, Value.isName, Value.key]) (by decide)
      (List.reverse_perm _)
  have hvalues : (fillAll drawing drawingConnections.reverse sheet
      (FormValues.empty.set "h" (.int 2)) 1).toOption.any (fun r =>
        holds r "area" "5" && holds r "cost" "10" && holds r "note" "True") = true := by
    decide +kernel
  rw [hr] at hvalues
  exact ⟨m, r, hm, hr, hsame, hvalues⟩

end Quotation.FileConnection
