import Quotation.Proofs.Derived.Range
import Quotation.Proofs.Formula.Evaluation
import Quotation.Schema.Check

/-!
# What a valid schema promises

The parameters of a valid schema have different names, and each derived one has a formula that can be
read, in terms of other parameters that it lists. Derived parameters do not go round in circles.
Such a schema can be worked out: a pass comes to each derived parameter after those that it reads, and
its formula fails for arithmetic alone.
-/

namespace Quotation

theorem Value.key_eq_text {value : Value} {s : String} : value.key = .text s ↔ value = .text s := by
  cases value with
  | float x =>
    simp only [Value.key]
    split <;> simp
  | _ => simp [Value.key]

namespace Schema

open Derived

/-- The names are usable and different, formulas can be read and list what they read, dependencies
are other parameters, and no derived parameter waits for itself. -/
structure Sound (parameters : List Parameter) : Prop where
  names : ∀ name ∈ namesOf (derivedOf parameters), name.isName = true
  distinct : (keysOf parameters).Nodup
  formula : ∀ p ∈ parameters, p.isDerived → ∃ formula tree, p.givenFormula = some formula ∧
    Formula.parseFormula formula.shown = .ok tree ∧ ∀ name ∈ tree.names, .text name ∈ p.dependsOn
  known : ∀ p ∈ parameters, p.isDerived → ∀ key ∈ p.dependsOn, key ∈ keysOf parameters
  acyclic : Acyclic (derivedOf parameters)

/-! ## The single checks -/

theorem nodup_of_takenAgain {seen : List Key} {names : List Value}
    (h : takenAgain seen names = []) :
    (names.map Value.key).Nodup ∧ ∀ key ∈ names.map Value.key, key ∉ seen := by
  induction names generalizing seen with
  | nil => exact ⟨List.nodup_nil, nofun⟩
  | cons name names ih =>
    rw [takenAgain] at h
    split at h
    · cases h
    · rename_i hnew
      rw [List.contains_iff_mem] at hnew
      obtain ⟨hnodup, hfresh⟩ := ih h
      refine ⟨List.nodup_cons.mpr ⟨fun hmem => hfresh _ hmem (List.mem_cons_self ..), hnodup⟩, ?_⟩
      rintro key hkey
      rcases List.mem_cons.mp hkey with rfl | hkey
      · exact hnew
      · exact fun hseen => hfresh key hkey (List.mem_cons_of_mem _ hseen)

theorem readable_of_formulaErrors {p : Parameter} (h : formulaErrors p = []) :
    ∃ formula tree, p.givenFormula = some formula ∧
      Formula.parseFormula formula.shown = .ok tree ∧
      ∀ name ∈ tree.names, .text name ∈ p.dependsOn := by
  unfold formulaErrors at h
  cases hformula : p.givenFormula with
  | none =>
    rw [hformula] at h
    cases h
  | some formula =>
    rw [hformula] at h
    obtain ⟨hread, hdeclared⟩ := List.append_eq_nil_iff.mp h
    cases hparse : Formula.parseFormula formula.shown with
    | error cause =>
      rw [hparse] at hread
      cases hread
    | ok tree =>
      refine ⟨formula, tree, rfl, hparse, fun name hname => ?_⟩
      have hall := List.filter_eq_nil_iff.mp (List.map_eq_nil_iff.mp hdeclared) name
        ((Formula.mem_namesIn hparse).mpr hname)
      simpa using hall

theorem dependency_of_dependencyErrors {keys : List Key} {p : Parameter} {name : Value}
    (h : dependencyErrors keys p name = []) : name.key ∈ keys ∧ name.key ≠ p.key := by
  unfold dependencyErrors at h
  split at h
  · cases h
  · rename_i hknown
    split at h
    · cases h
    · rename_i hother
      exact ⟨by simpa using hknown, hother⟩

theorem length_of_isCycle {derived : List Parameter} {cycle : List Value}
    (h : IsCycle derived cycle) (hself : ∀ key, ¬ Feeds derived key key) : 2 < cycle.length := by
  obtain ⟨first, rest, last, rfl, hlast, -, hknown, hchain⟩ := h
  cases rest with
  | nil =>
    have hleads : Leads derived first last := by simpa using hchain
    have hfeeds : last.key ∈ (declared derived first.key).map Value.key :=
      List.mem_map_of_mem hleads
    rw [hlast] at hfeeds
    exact absurd ⟨hknown first (List.mem_cons_self ..), hfeeds⟩ (hself first.key)
  | cons second rest =>
    simp only [List.length_append, List.length_cons]
    omega

theorem namesOf_subset_namesUsed (parameters : List Parameter) :
    namesOf (derivedOf parameters) ⊆ namesUsed parameters := by
  refine List.append_subset.mpr ⟨fun name hname => ?_, fun name hname => ?_⟩
  · obtain ⟨p, hp, rfl⟩ := List.mem_map.mp hname
    have hmem : p.name ∈ parameters.map (·.name) := List.mem_map_of_mem (mem_derivedOf.mp hp).1
    exact List.mem_append_left _ (List.mem_append_left _ hmem)
  · exact List.mem_append_left _ (List.mem_append_right _ hname)

/-! ## Valid schemas -/

section

variable {parameters : List Parameter} {report : Report}

theorem errors_of_valid (h : check parameters = .ok report) (valid : report.valid = true) :
    requireNames (namesUsed parameters) = .ok () ∧ errors parameters = [] := by
  rw [check, bind_eq_ok] at h
  obtain ⟨⟨⟩, hnames, h⟩ := h
  obtain ⟨-, -, h⟩ := bind_eq_ok.mp h
  cases h
  exact ⟨hnames, List.isEmpty_iff.mp valid⟩

theorem derivedErrors_of_errors {p : Parameter} (h : errors parameters = []) (hp : p ∈ parameters)
    (hderived : p.isDerived = true) : formulaErrors p = [] ∧
      ∀ name ∈ p.dependencies, dependencyErrors (keysOf parameters) p name = [] := by
  simp only [errors, List.append_eq_nil_iff, List.flatMap_eq_nil_iff, List.map_eq_nil_iff] at h
  have hparameter := h.1.2 p hp
  simp only [parameterErrors, derivedErrors, hderived, if_true, List.append_eq_nil_iff,
    List.flatMap_eq_nil_iff] at hparameter
  exact hparameter.1.1.2

theorem parent_of_errors {p : Parameter} (h : errors parameters = []) (hp : p ∈ parameters)
    {c : Conditional} (hc : p.conditional = some c) : c.parentKey ∈ keysOf parameters := by
  simp only [errors, List.append_eq_nil_iff, List.flatMap_eq_nil_iff, List.map_eq_nil_iff] at h
  have hparameter := h.1.2 p hp
  simp only [parameterErrors, List.append_eq_nil_iff, conditionalErrors, hc] at hparameter
  by_contra hunknown
  simp [hunknown] at hparameter

theorem sound_of_valid (h : check parameters = .ok report) (valid : report.valid = true) :
    Sound parameters := by
  obtain ⟨hnames, hnone⟩ := errors_of_valid h valid
  have hderived := fun p => derivedErrors_of_errors (p := p) hnone
  simp only [errors, List.append_eq_nil_iff, List.map_eq_nil_iff] at hnone
  obtain ⟨⟨⟨htaken, -⟩, -⟩, hcycles⟩ := hnone
  have hdistinct : (keysOf parameters).Nodup := by
    have hkeys := (nodup_of_takenAgain htaken).1
    rwa [List.map_map] at hkeys
  have hself : ∀ key, ¬ Feeds (derivedOf parameters) key key := by
    rintro key ⟨hkey, hdepends⟩
    obtain ⟨p, hp, rfl⟩ := mem_keysOf.mp hkey
    rw [declared_key (nodup_derivedOf hdistinct) hp] at hdepends
    obtain ⟨name, hname, heq⟩ := List.mem_map.mp hdepends
    obtain ⟨hmem, hp⟩ := mem_derivedOf.mp hp
    exact (dependency_of_dependencyErrors ((hderived p hmem hp).2 name hname)).2 heq
  refine ⟨?_, hdistinct, fun p hp h => readable_of_formulaErrors (hderived p hp h).1, ?_, ?_⟩
  · exact fun name hname =>
      requireNames_eq_ok.mp hnames name (namesOf_subset_namesUsed parameters hname)
  · intro p hp h key hkey
    obtain ⟨name, hname, rfl⟩ := List.mem_map.mp hkey
    exact (dependency_of_dependencyErrors ((hderived p hp h).2 name hname)).1
  · refine acyclic_of_findCycles (List.eq_nil_iff_forall_not_mem.mpr fun cycle hcycle => ?_)
    have hlong := List.filter_eq_nil_iff.mp hcycles cycle hcycle
    exact hlong (by simpa using length_of_isCycle (isCycle_of_mem_findCycles hcycle) hself)

end

/-! ## Passes over a valid schema -/

/-- A pass over `order` from the form `v` comes to `p` with the form `w` and works out `text`. -/
def ComesTo (order : List Parameter) (v : FormValues) (p : Parameter) (w : FormValues)
    (text : String) : Prop :=
  ∃ front back, order = front ++ p :: back ∧ front.foldlM resolveOne v = .ok w ∧
    evaluateDerived p w = .ok text

/-- A name in a formula stands for the number in the field of a parameter, after a pass over `front`
from `v` to `w`. If that parameter is derived, the pass has worked it out and `w` holds its text. -/
def StandsFor (parameters front : List Parameter) (v w : FormValues)
    (bound : List (String × Value)) (name : String) : Prop :=
  ∃ q ∈ parameters, ∃ x, q.name = .text name ∧ (w.get q.key).numberOrZero = .ok x ∧
    bound.lookup name = some (.float x) ∧
    (q.isDerived = true → ∃ u held, ComesTo front v q u held ∧ w.get? q.key = some (.text held))

/-- A formula comes to a number, which the text shows, or fails for arithmetic alone. -/
inductive Outcome (formula : String) (bound : List (String × Value)) : String → Prop where
  | value {x} : Formula.evaluate formula bound = .ok x → Outcome formula bound (Number.plainText x)
  | failure {e} : Formula.evaluate formula bound = .error (.formula e) →
      e = .divisionByZero ∨ e = .notFinite ∨ e = .tooLong → Outcome formula bound "0"

/-- After a pass over `front` from `v` to `w` the parameter has a formula that can be read, all names
in it stand for numbers, and it comes to the text. -/
def Evaluates (parameters front : List Parameter) (v w : FormValues) (p : Parameter)
    (text : String) : Prop :=
  ∃ formula tree bound, p.givenFormula = some formula ∧
    Formula.parseFormula formula.shown = .ok tree ∧ bindings p w = .ok bound ∧
    (∀ name ∈ tree.names, StandsFor parameters front v w bound name) ∧
    evaluateDerived p w = .ok text ∧ Outcome formula.shown bound text

/-- A full pass over the derived parameters, from the form `v` to the form `m`. -/
structure FullPass (parameters order : List Parameter) (v m : FormValues) : Prop where
  scheduled : schedule parameters = .ok order
  mem : ∀ p, p ∈ order ↔ p ∈ parameters ∧ p.isDerived = true
  pass : order.foldlM resolveOne v = .ok m
  resolved : resolve parameters v = .ok m
  evaluates : ∀ front p back, order = front ++ p :: back → ∃ w text,
    front.foldlM resolveOne v = .ok w ∧ Evaluates parameters front v w p text ∧
      m.get? p.key = some (.text text)

section

variable {parameters order front back : List Parameter} {p : Parameter} {v w m : FormValues}

theorem Sound.isResolution (h : Sound parameters) (hpass : resolve parameters v = .ok m) :
    IsResolution parameters v m := by
  have hdistinct := nodup_derivedOf h.distinct
  have horder := topological_dependencyOrder hdistinct h.acyclic
  exact isResolution_of_pass horder hdistinct (resolve_eq_ok.mp hpass).2

theorem Sound.givenFormula (h : Sound parameters) (hp : p ∈ parameters) (hkind : p.isDerived = true) :
    p.givenFormula.isSome = true := by
  obtain ⟨formula, -, hformula, -⟩ := h.formula p hp hkind
  rw [hformula]
  rfl

theorem Sound.isComputed (h : Sound parameters) (hp : p ∈ parameters) (hkind : p.isDerived = true) :
    isComputed p = true := by
  rw [Derived.isComputed, hkind, h.givenFormula hp hkind]
  rfl

theorem Sound.held (h : Sound parameters) (hp : p ∈ parameters) (hkind : p.isDerived = true)
    (distinct : (keysOf order).Nodup) (hmem : p ∈ order) (hpass : order.foldlM resolveOne v = .ok w) :
    ∃ u held, ComesTo order v p u held ∧ w.get? p.key = some (.text held) := by
  obtain ⟨front, back, rfl⟩ := List.append_of_mem hmem
  obtain ⟨u, held, hfront, htext, hback⟩ := pass_at (h.givenFormula hp hkind) hpass
  exact ⟨u, held, ⟨front, back, rfl, hfront, htext⟩, held_of_pass distinct hback⟩

theorem Sound.mem_front (h : Sound parameters) (horder : Topological (derivedOf parameters) order)
    (heq : order = front ++ p :: back) {q : Parameter} (hq : q ∈ derivedOf parameters)
    (hreads : q.key ∈ p.dependsOn) : q ∈ front := by
  have hdistinct := nodup_derivedOf h.distinct
  have hp : p ∈ derivedOf parameters := (horder.mem p).mp (by simp [heq])
  have hfeeds := Feeds.of_dependsOn hdistinct hp (key_mem hq) hreads
  obtain ⟨q', hq', hsame⟩ := mem_keysOf.mp (horder.after front p back heq _ hfeeds)
  have hq'derived := (horder.mem q').mp (heq ▸ List.mem_append_left _ hq')
  rwa [eq_of_key_eq hdistinct hq'derived hq hsame] at hq'

theorem Sound.standsFor (h : Sound parameters) (horder : Topological (derivedOf parameters) order)
    (heq : order = front ++ p :: back) (hfront : front.foldlM resolveOne v = .ok w)
    {bound : List (String × Value)} (hbound : bindings p w = .ok bound) {name : String}
    (hname : Key.text name ∈ p.dependsOn) : StandsFor parameters front v w bound name := by
  obtain ⟨hp, hkind⟩ := mem_derivedOf.mp ((horder.mem p).mp (by simp [heq]))
  obtain ⟨q, hq, hkey⟩ := mem_keysOf.mp (h.known p hp hkind _ hname)
  obtain ⟨dependency, hdependency, htext⟩ := List.mem_map.mp hname
  rw [Value.key_eq_text.mp htext] at hdependency
  obtain ⟨x, hx, hlookup⟩ := lookup_bindings hbound hdependency
  refine ⟨q, hq, x, Value.key_eq_text.mp hkey, ?_, hlookup, fun hqkind => ?_⟩
  · rw [hkey]
    exact hx
  · have hdistinct := horder.distinct
    rw [heq, keysOf_append] at hdistinct
    have hmem := h.mem_front horder heq (mem_derivedOf.mpr ⟨hq, hqkind⟩) (hkey ▸ hname)
    exact h.held hq hqkind (List.nodup_append.mp hdistinct).1 hmem hfront

theorem outcome_of_evaluateDerived {formula : Value} {tree : Formula.Tree}
    {bound : List (String × Value)} {text : String} (hformula : p.givenFormula = some formula)
    (hparse : Formula.parseFormula formula.shown = .ok tree) (hbound : bindings p w = .ok bound)
    (hnames : ∀ name ∈ tree.names, StandsFor parameters front v w bound name)
    (htext : evaluateDerived p w = .ok text) : Outcome formula.shown bound text := by
  rw [evaluateDerived_eq_ok hbound, hformula] at htext
  rcases htext with ⟨x, hx, rfl⟩ | ⟨e, he, rfl⟩
  · exact .value hx
  · refine .failure he ?_
    rcases Formula.evaluate_error hparse he with h | h | h | ⟨name, hname, halt, hread, -⟩
    · exact .inr (.inl (Formula.Fault.formula.inj h))
    · exact .inr (.inr (Formula.Fault.formula.inj h))
    · exact .inl (Formula.Fault.formula.inj h)
    · obtain ⟨q, -, x, -, -, hlookup, -⟩ := hnames name hname
      rw [Formula.readBinding, hlookup] at hread
      cases hread

theorem Sound.evaluates (h : Sound parameters) (horder : Topological (derivedOf parameters) order)
    (heq : order = front ++ p :: back) (hpass : order.foldlM resolveOne v = .ok m) :
    ∃ w text, front.foldlM resolveOne v = .ok w ∧ Evaluates parameters front v w p text ∧
      m.get? p.key = some (.text text) := by
  obtain ⟨hp, hkind⟩ := mem_derivedOf.mp ((horder.mem p).mp (by simp [heq]))
  obtain ⟨formula, tree, hformula, hparse, hnames⟩ := h.formula p hp hkind
  rw [heq] at hpass
  obtain ⟨w, text, hfront, htext, hback⟩ := pass_at (h.givenFormula hp hkind) hpass
  obtain ⟨bound, hbound, -⟩ := bind_eq_ok.mp htext
  have hstands : ∀ name ∈ tree.names, StandsFor parameters front v w bound name :=
    fun name hname => h.standsFor horder heq hfront hbound (hnames name hname)
  exact ⟨w, text, hfront, ⟨formula, tree, bound, hformula, hparse, hbound, hstands, htext,
    outcome_of_evaluateDerived hformula hparse hbound hstands htext⟩,
    held_of_pass (heq ▸ horder.distinct) hback⟩

/-- A valid schema can be worked out. A pass comes to each derived parameter after those that it
reads, finds their texts and stores its own, and each formula fails for arithmetic alone. -/
theorem resolve_of_valid {report : Report} (h : check parameters = .ok report)
    (valid : report.valid = true) (hv : v.InRange) : ∃ order m, FullPass parameters order v m := by
  have hsound := sound_of_valid h valid
  have horder := topological_dependencyOrder (nodup_derivedOf hsound.distinct) hsound.acyclic
  obtain ⟨m, hresolve, -⟩ := resolve_total hv hsound.names
  have hpass := (resolve_eq_ok.mp hresolve).2
  exact ⟨dependencyOrder parameters, m,
    { scheduled := schedule_eq_ok.mpr ⟨hsound.names, rfl⟩
      mem := fun p => (horder.mem p).trans mem_derivedOf
      pass := hpass
      resolved := hresolve
      evaluates := fun front p back heq => hsound.evaluates horder heq hpass }⟩

end

/-- A square plate, priced by its area. The margin has no value for an area of nine. -/
def plate : List Parameter := [
  { id := "margin", name := "margin", kind := .derivedCalc, formula := some "1 / (area - 9)",
    dependencies := ["area"] },
  { id := "cost", name := "cost", kind := .derivedCalc, formula := some "area * 2",
    dependencies := ["area"] },
  { id := "area", name := "area", kind := .derivedCalc, formula := some "w * w",
    dependencies := ["w"] },
  { id := "w", name := "w", kind := .numericValue }]

def plateAnswers : FormValues := ⟨[⟨"w", .int 3⟩]⟩

theorem plate_resolves : ∃ order m, FullPass plate order plateAnswers m ∧
    keysOf order = ["area", "margin", "cost"] ∧
    (holds m "area" "9" && holds m "cost" "18" && holds m "margin" "0") = true := by
  have hvalid : (check plate).toOption.any (·.valid) = true := by decide +kernel
  have horder : (schedule plate).toOption.any (keysOf · = ["area", "margin", "cost"]) = true := by
    decide +kernel
  have hvalues : (resolve plate plateAnswers).toOption.any (fun m =>
      holds m "area" "9" && holds m "cost" "18" && holds m "margin" "0") = true := by
    decide +kernel
  obtain ⟨report, hcheck, hvalid⟩ := ok_of_any hvalid
  obtain ⟨order, m, hfull⟩ := resolve_of_valid hcheck hvalid
    (v := plateAnswers) (FormValues.inRange_of_entries (by decide +kernel))
  rw [hfull.scheduled] at horder
  rw [hfull.resolved] at hvalues
  exact ⟨order, m, hfull, of_decide_eq_true horder, hvalues⟩

end Schema

end Quotation
