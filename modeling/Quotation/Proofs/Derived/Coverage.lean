import Quotation.Proofs.Derived.Arrangement
import Quotation.Proofs.Derived.Return

/-!
# What the reported cycles cover

Each cycle has two neighbours that a reported cycle names. So something is reported as soon as
there is a cycle, and a circle as soon as there is a circle, which is just when the order of the
parameters has to read ahead. A parameter is left out only where each cycle through it shares two
neighbours with a cycle that avoids it.
-/

namespace Quotation.Derived

variable {parameters : List Parameter} {cycle : List Value} {key other : Key}

def NamesBoth (cycles : List (List Value)) (key other : Key) : Prop :=
  ∃ reported ∈ cycles, key ∈ reported.map Value.key ∧ other ∈ reported.map Value.key

/-! ## Neighbours -/

/-- Otherwise one could go round the cycle along dependencies that no reported cycle names. -/
theorem IsCycle.namesBoth (h : IsCycle (derivedOf parameters) cycle) :
    ∃ name next, [name, next] <:+: cycle ∧
      NamesBoth (findCycles parameters) name.key next.key := by
  by_contra hnone
  have hsteps : ∀ name next, [name, next] <:+: cycle →
      FeedsOff (derivedOf parameters) (findCycles parameters) next.key name.key :=
    fun name next hstep => ⟨h.feeds hstep, fun reported hmem hname hnext =>
      hnone ⟨name, next, hstep, reported, hmem, hname, hnext⟩⟩
  obtain ⟨name, hname⟩ := List.exists_mem_of_ne_nil cycle (by
    obtain ⟨first, rest, last, rfl, -⟩ := h
    simp)
  exact not_transGen_of_acc ((wellFounded_feedsOff parameters).apply _) (h.transGen hsteps hname)

theorem exists_circle_iff :
    (∃ reported ∈ findCycles parameters, 2 < reported.length) ↔
      ∃ cycle, IsCircle (derivedOf parameters) cycle := by
  constructor
  · rintro ⟨reported, hmem, hlength⟩
    exact ⟨reported, isCycle_of_mem_findCycles hmem, hlength⟩
  · rintro ⟨cycle, hcircle⟩
    obtain ⟨name, next, hstep, reported, hmem, hname, hnext⟩ := hcircle.1.namesBoth
    have hreported := (isCycle_of_mem_findCycles hmem).isCircle hname hnext (hcircle.ne hstep)
    exact ⟨reported, hmem, hreported.2⟩

theorem findCycles_eq_nil_iff :
    findCycles parameters = [] ↔
      ∀ key, ¬ Relation.TransGen (Feeds (derivedOf parameters)) key key := by
  constructor
  · exact fun h key => not_transGen_of_acc ((acyclic_of_findCycles h).apply key)
  · intro hnone
    by_contra hsome
    obtain ⟨cycle, hmem⟩ := List.exists_mem_of_ne_nil _ hsome
    have hcycle := isCycle_of_mem_findCycles hmem
    obtain ⟨first, rest, last, heq, -⟩ := id hcycle
    exact hnone first.key (hcycle.transGen (fun _ _ => hcycle.feeds) (heq ▸ by simp))

/-- The search reports cycles, each once, and as many as it takes to tell whether there is one; and a
circle among them, just if the order of the parameters reads ahead. -/
theorem cycles_and_order_agree (distinct : (keysOf parameters).Nodup)
    (names : ∀ name ∈ namesOf (derivedOf parameters), name.isName = true) :
    ∃ found order, cycles parameters = .ok found ∧ schedule parameters = .ok order ∧
      (∀ cycle ∈ found, IsCycle (derivedOf parameters) cycle) ∧ Unlike found ∧
      (found = [] ↔ ∀ key, ¬ Relation.TransGen (Feeds (derivedOf parameters)) key key) ∧
      ((∃ cycle ∈ found, 2 < cycle.length) ↔ ReadsAhead order) :=
  ⟨findCycles parameters, dependencyOrder parameters, (cycles_eq_ok distinct).mpr ⟨names, rfl⟩,
    schedule_eq_ok.mpr ⟨names, rfl⟩, fun _ => isCycle_of_mem_findCycles,
    unlike_findCycles parameters, findCycles_eq_nil_iff,
    exists_circle_iff.trans (readsAhead_iff (nodup_derivedOf distinct)).symm⟩

theorem invoice_cycles_and_order :
    cycles invoice = .ok [["gross", "net", "gross"], ["fee", "fee"]] ∧
      ∃ found order, cycles invoice = .ok found ∧ schedule invoice = .ok order ∧
        (∀ cycle ∈ found, IsCycle (derivedOf invoice) cycle) ∧ Unlike found ∧
        (found = [] ↔ ∀ key, ¬ Relation.TransGen (Feeds (derivedOf invoice)) key key) ∧
        ((∃ cycle ∈ found, 2 < cycle.length) ↔ ReadsAhead order) :=
  ⟨rfl, cycles_and_order_agree (by decide) (by decide)⟩

/-! ## Parameters on cycles -/

/-- A cycle that a parameter holds together: every cycle through two neighbours on it goes through the
parameter, too. -/
def HeldBy (derived : List Parameter) (key : Key) (cycle : List Value) : Prop :=
  IsCycle derived cycle ∧ key ∈ cycle.map Value.key ∧
    ∀ name next, [name, next] <:+: cycle → ∀ other, IsCycle derived other →
      name.key ∈ other.map Value.key → next.key ∈ other.map Value.key → key ∈ other.map Value.key

theorem named_of_heldBy (h : ∃ cycle, HeldBy (derivedOf parameters) key cycle) :
    Named (findCycles parameters) key := by
  obtain ⟨cycle, hcycle, -, hheld⟩ := h
  obtain ⟨name, next, hstep, reported, hmem, hname, hnext⟩ := hcycle.namesBoth
  exact ⟨reported, hmem, hheld name next hstep reported (isCycle_of_mem_findCycles hmem) hname hnext⟩

/-- The search for the cycles of a schema enters a parameter at the end of a trail, when some others
are finished. -/
def Entered (derived : List Parameter) (trail : List Value) (finished : List Key) (key : Key) : Prop :=
  ∃ path name s, Enters derived [] (derived.map (·.name)) {} path name s ∧ name.key = key ∧
    path ++ [name] = trail ∧ s.finished = finished

theorem exists_entered {p : Parameter} (hp : p ∈ derivedOf parameters) :
    ∃ trail finished, Entered (derivedOf parameters) trail finished p.key := by
  obtain ⟨t, ht, -⟩ := follows_findCycles parameters
  have hfinished : p.key ∈ t.finished :=
    (ht.finishes (List.mem_map_of_mem hp) (key_mem hp)).resolve_left List.not_mem_nil
  obtain ⟨path, name, s, hname, henters⟩ := ht.enters_finished hfinished List.not_mem_nil
  exact ⟨path ++ [name], s.finished, path, name, s, henters, hname, rfl, rfl⟩

theorem Entered.named_iff {trail : List Value} {finished : List Key}
    (h : Entered (derivedOf parameters) trail finished key) :
    Named (findCycles parameters) key ↔
      Returns (derivedOf parameters) (trail.map Value.key) finished key := by
  obtain ⟨path, name, s, henters, rfl, rfl, rfl⟩ := h
  obtain ⟨t, ht, heq⟩ := follows_findCycles parameters
  have hstart : Coherent [] ({} : Search) :=
    ⟨List.nodup_nil, nofun, fun _ ⟨_, hnone, _⟩ => nomatch hnone⟩
  rw [heq]
  exact (henters.named_iff ht hstart).2.2

/-- Each cycle has two neighbours that are reported together, so that a parameter that holds some
cycle together is reported, whatever the order of the schema. In the order that there is, a parameter
is reported just if dependencies lead from it back to the trail that the search enters it by, through
none that was finished then. -/
theorem reported_just_if_way_back_is_open (distinct : (keysOf parameters).Nodup)
    (names : ∀ name ∈ namesOf (derivedOf parameters), name.isName = true) :
    ∃ found, cycles parameters = .ok found ∧
      (∀ cycle, IsCycle (derivedOf parameters) cycle →
        ∃ name next, [name, next] <:+: cycle ∧ NamesBoth found name.key next.key) ∧
      ∀ p ∈ derivedOf parameters,
        ((∃ cycle, HeldBy (derivedOf parameters) p.key cycle) → Named found p.key) ∧
        (∃ trail finished, Entered (derivedOf parameters) trail finished p.key) ∧
        ∀ trail finished, Entered (derivedOf parameters) trail finished p.key →
          (Named found p.key ↔
            Returns (derivedOf parameters) (trail.map Value.key) finished p.key) :=
  ⟨findCycles parameters, (cycles_eq_ok distinct).mpr ⟨names, rfl⟩, fun _ => IsCycle.namesBoth,
    fun _ hp => ⟨named_of_heldBy, exists_entered hp, fun _ _ => Entered.named_iff⟩⟩

/-- The search goes from the set to the base and back, and then to the lid, which depends on the base
alone. -/
def boxes : List Parameter := [
  { id := "set", name := "set", kind := .derivedCalc, formula := some "base + lid",
    dependencies := ["base", "lid"] },
  { id := "base", name := "base", kind := .derivedCalc, formula := some "set / 2",
    dependencies := ["set"] },
  { id := "lid", name := "lid", kind := .derivedCalc, formula := some "base / 4",
    dependencies := ["base"] }]

/-- The base was finished by then, so that the cycle through the lid is not seen. -/
theorem lid_is_not_reported :
    (keysOf boxes).Nodup ∧ cycles boxes = .ok [["set", "base", "set"]] ∧
      (∃ p ∈ derivedOf boxes, p.key = "lid") ∧
      IsCycle (derivedOf boxes) ["set", "lid", "base", "set"] ∧
      ¬ Named [["set", "base", "set"]] "lid" := by
  have hset : declared (derivedOf boxes) "set" = ["base", "lid"] := rfl
  have hbase : declared (derivedOf boxes) "base" = ["set"] := rfl
  have hlid : declared (derivedOf boxes) "lid" = ["base"] := rfl
  refine ⟨by decide, rfl, by decide, ?_, by simp [Named, Value.key]⟩
  refine ⟨"set", ["lid", "base"], "set", rfl, rfl, by decide, by decide, ?_⟩
  simp [Leads, Value.key, hset, hbase, hlid]

theorem set_is_reported :
    (keysOf boxes).Nodup ∧ (∀ name ∈ namesOf (derivedOf boxes), name.isName = true) ∧
      (∃ cycle, HeldBy (derivedOf boxes) "set" cycle) ∧
      ∃ found, cycles boxes = .ok found ∧
        (∀ cycle, IsCycle (derivedOf boxes) cycle →
          ∃ name next, [name, next] <:+: cycle ∧ NamesBoth found name.key next.key) ∧
        ∀ p ∈ derivedOf boxes,
          ((∃ cycle, HeldBy (derivedOf boxes) p.key cycle) → Named found p.key) ∧
          (∃ trail finished, Entered (derivedOf boxes) trail finished p.key) ∧
          ∀ trail finished, Entered (derivedOf boxes) trail finished p.key →
            (Named found p.key ↔
              Returns (derivedOf boxes) (trail.map Value.key) finished p.key) := by
  refine ⟨by decide, by decide, ⟨["set", "base", "set"], ?_, by decide, ?_⟩,
    reported_just_if_way_back_is_open (by decide) (by decide)⟩
  · have hfound : (["set", "base", "set"] : List Value) ∈ findCycles boxes := .head _
    exact isCycle_of_mem_findCycles hfound
  · intro name next hstep other _ hname hnext
    have hends : (["set", "base", "set"] : List Value).IsChain
        fun (name next : Value) => name.key = "set" ∨ next.key = "set" := by
      simp [Value.key]
    rcases rel_of_step hends hstep with hset | hset
    · exact hset ▸ hname
    · exact hset ▸ hnext

end Quotation.Derived
