import Quotation.Derived.Resolution
import Quotation.Proofs.Derived.Order
import Quotation.Proofs.Derived.Search
import Quotation.Proofs.Formula.Evaluation

/-!
# What a pass works out

Each derived parameter with a formula holds what its formula comes to, in the form itself. For an
acyclic schema there is one such form over given answers, and a pass finds it in whatever order the
schema lists the parameters.
-/

namespace Quotation.Derived

/-- A parameter that a pass works out. -/
def isComputed (p : Parameter) : Bool := p.isDerived && p.givenFormula.isSome

/-- `m` holds the answers of `v`, and for each computed parameter what it comes to in `m`. -/
structure IsResolution (parameters : List Parameter) (v m : FormValues) : Prop where
  kept : ∀ key, (∀ p ∈ parameters, isComputed p → p.key ≠ key) → m.get? key = v.get? key
  computed : ∀ p ∈ parameters, isComputed p →
    ∃ text, evaluateDerived p m = .ok text ∧ m.get? p.key = some (.text text)

/-! ## One parameter -/

theorem bindings_congr {p : Parameter} {v w : FormValues}
    (h : ∀ key ∈ p.dependsOn, v.get? key = w.get? key) : bindings p v = bindings p w := by
  have hbinding : ∀ name ∈ p.dependencies, binding v name = binding w name := by
    intro name hname
    simp only [binding, FormValues.read, FormValues.get, h _ (List.mem_map_of_mem hname)]
  rw [bindings, bindings, mapM_congr hbinding]

theorem binding_eq_some {v : FormValues} {dependency value : Value} {name : String}
    (h : binding v dependency = .ok (some (name, value))) :
    dependency = .text name ∧ ∃ x, (v.get name).numberOrZero = .ok x ∧ value = .float x := by
  rw [binding, bind_eq_ok] at h
  obtain ⟨held, hread, h⟩ := h
  obtain ⟨x, hx, h⟩ := bind_eq_ok.mp h
  cases dependency with
  | text s =>
    cases h
    cases hread
    exact ⟨rfl, x, hx, rfl⟩
  | _ => cases h

theorem lookup_bindings {p : Parameter} {v : FormValues} {bound : List (String × Value)}
    (h : bindings p v = .ok bound) {name : String} (hname : Value.text name ∈ p.dependencies) :
    ∃ x, (v.get name).numberOrZero = .ok x ∧ bound.lookup name = some (.float x) := by
  rw [bindings, bind_eq_ok] at h
  obtain ⟨entries, hentries, h⟩ := h
  cases h
  obtain ⟨hof, hfrom⟩ := mem_of_mapM hentries
  have hsome : ((entries.filterMap id).lookup name).isSome := by
    obtain ⟨entry, hmem, hentry⟩ := hof _ hname
    obtain ⟨held, -, hentry⟩ := bind_eq_ok.mp hentry
    obtain ⟨x, -, hentry⟩ := bind_eq_ok.mp hentry
    cases hentry
    exact List.lookup_isSome_iff.mpr
      ⟨(name, .float x), List.mem_filterMap.mpr ⟨_, hmem, rfl⟩, beq_self_eq_true name⟩
  -- Whichever entry is found, it comes from the same field.
  obtain ⟨value, hvalue⟩ := Option.isSome_iff_exists.mp hsome
  obtain ⟨before, after, hsplit, -⟩ := List.lookup_eq_some_iff.mp hvalue
  have hmem : (name, value) ∈ entries.filterMap id := by
    rw [hsplit]
    exact List.mem_append_right _ (List.mem_cons_self ..)
  obtain ⟨entry, hentry, rfl⟩ := List.mem_filterMap.mp hmem
  obtain ⟨dependency, -, hbinding⟩ := hfrom _ hentry
  obtain ⟨-, x, hx, rfl⟩ := binding_eq_some hbinding
  exact ⟨x, hx, hvalue⟩

theorem numeric_bindings {p : Parameter} {v : FormValues} {bound : List (String × Value)}
    (h : bindings p v = .ok bound) : Formula.Numeric bound := by
  rw [bindings, bind_eq_ok] at h
  obtain ⟨entries, hentries, h⟩ := h
  cases h
  intro entry hmem
  obtain ⟨found, hfound, rfl⟩ := List.mem_filterMap.mp hmem
  obtain ⟨dependency, -, hbinding⟩ := (mem_of_mapM hentries).2 _ hfound
  obtain ⟨-, x, -, hx⟩ := binding_eq_some hbinding
  exact ⟨x, congrArg Value.toFloat hx⟩

theorem evaluateDerived_eq_ok {p : Parameter} {v : FormValues} {bound : List (String × Value)}
    (h : bindings p v = .ok bound) {text : String} : evaluateDerived p v = .ok text ↔
      (∃ x, Formula.evaluate (p.givenFormula.getD (.text "")).shown bound = .ok x ∧
        text = Number.plainText x) ∨
      (∃ e, Formula.evaluate (p.givenFormula.getD (.text "")).shown bound = .error (.formula e) ∧
        text = "0") := by
  rw [evaluateDerived, h, ok_bind]
  cases Formula.evaluate (p.givenFormula.getD (.text "")).shown bound with
  | ok x => simpa [pure_eq_ok] using eq_comm
  | error fault =>
    cases fault with
    | formula cause => simpa [pure_eq_ok] using eq_comm
    | value cause => simp

theorem evaluateDerived_congr {p : Parameter} {v w : FormValues}
    (h : ∀ key ∈ p.dependsOn, v.get? key = w.get? key) :
    evaluateDerived p v = evaluateDerived p w := by
  rw [evaluateDerived, evaluateDerived, bindings_congr h]

theorem resolveOne_eq_self {p : Parameter} (h : p.givenFormula.isSome = false) (v : FormValues) :
    resolveOne v p = .ok v := by
  have hnone : p.givenFormula.isNone = true := by simpa using h
  rw [resolveOne, if_pos hnone]
  rfl

theorem resolveOne_eq_ok {p : Parameter} (h : p.givenFormula.isSome = true) {v w : FormValues} :
    resolveOne v p = .ok w ↔
      ∃ text, evaluateDerived p v = .ok text ∧ w = v.set p.name (.text text) := by
  have hsome : ¬ p.givenFormula.isNone = true := by rw [← Option.not_isSome, h]; decide
  rw [resolveOne, if_neg hsome, bind_eq_ok]
  constructor
  · rintro ⟨text, htext, hw⟩
    exact ⟨text, htext, (pure_eq_ok.mp hw).symm⟩
  · rintro ⟨text, htext, rfl⟩
    exact ⟨text, htext, rfl⟩

theorem resolveOne_kept {p : Parameter} {v w : FormValues} (h : resolveOne v p = .ok w) {key : Key}
    (hkey : p.givenFormula.isSome → p.key ≠ key) : w.get? key = v.get? key := by
  cases hformula : p.givenFormula.isSome with
  | false =>
    rw [resolveOne_eq_self hformula] at h
    cases h
    rfl
  | true =>
    obtain ⟨text, -, rfl⟩ := (resolveOne_eq_ok hformula).mp h
    have hne : key ≠ p.name.key := (hkey hformula).symm
    rw [FormValues.get?_set, if_neg hne]

theorem pass_kept {order : List Parameter} {v m : FormValues}
    (h : order.foldlM resolveOne v = .ok m) {key : Key}
    (hkey : ∀ p ∈ order, p.givenFormula.isSome → p.key ≠ key) : m.get? key = v.get? key := by
  induction order generalizing v with
  | nil =>
    cases h
    rfl
  | cons p order ih =>
    rw [List.foldlM_cons] at h
    obtain ⟨w, hone, hrest⟩ := bind_eq_ok.mp h
    rw [ih hrest fun q hq => hkey q (List.mem_cons_of_mem _ hq)]
    exact resolveOne_kept hone (hkey p (List.mem_cons_self ..))

/-! ## A pass over an acyclic schema -/

theorem nodup_derivedOf {parameters : List Parameter} (h : (keysOf parameters).Nodup) :
    (keysOf (derivedOf parameters)).Nodup := h.sublist (List.filter_sublist.map _)

theorem mem_derivedOf {parameters : List Parameter} {p : Parameter} :
    p ∈ derivedOf parameters ↔ p ∈ parameters ∧ p.isDerived = true := List.mem_filter

section

variable {parameters order front back : List Parameter} {p : Parameter} {v w m : FormValues}

theorem Topological.computed_iff (h : Topological (derivedOf parameters) order) :
    p ∈ parameters ∧ isComputed p = true ↔ p ∈ order ∧ p.givenFormula.isSome = true := by
  rw [h.mem, mem_derivedOf, isComputed, Bool.and_eq_true, and_assoc]

theorem Topological.ne_key (h : Topological (derivedOf parameters) order)
    (distinct : (keysOf (derivedOf parameters)).Nodup) (heq : order = front ++ p :: back)
    {key : Key} (hkey : key ∈ p.dependsOn) {q : Parameter} (hq : q ∈ p :: back) : q.key ≠ key := by
  rintro rfl
  have hmem : ∀ r ∈ p :: back, r ∈ derivedOf parameters := fun r hr =>
    (h.mem r).mp (heq ▸ List.mem_append_right _ hr)
  have hp := hmem p (List.mem_cons_self ..)
  have hfeeds := Feeds.of_dependsOn distinct hp (key_mem (hmem q hq)) hkey
  have hfront := h.after front p back heq _ hfeeds
  have hdistinct := h.distinct
  rw [heq, keysOf_append] at hdistinct
  exact (List.nodup_append.mp hdistinct).2.2 _ hfront _ (key_mem hq) rfl

/-- A pass over a row of parameters, where it comes to one of them. -/
theorem pass_at (hformula : p.givenFormula.isSome = true)
    (h : (front ++ p :: back).foldlM resolveOne v = .ok m) :
    ∃ w text, front.foldlM resolveOne v = .ok w ∧ evaluateDerived p w = .ok text ∧
      back.foldlM resolveOne (w.set p.name (.text text)) = .ok m := by
  rw [List.foldlM_append] at h
  obtain ⟨w, hfront, h⟩ := bind_eq_ok.mp h
  rw [List.foldlM_cons] at h
  obtain ⟨w', hone, hback⟩ := bind_eq_ok.mp h
  obtain ⟨text, htext, rfl⟩ := (resolveOne_eq_ok hformula).mp hone
  exact ⟨w, text, hfront, htext, hback⟩

theorem held_of_pass (distinct : (keysOf (front ++ p :: back)).Nodup) {value : Value}
    (h : back.foldlM resolveOne (w.set p.name value) = .ok m) : m.get? p.key = some value := by
  rw [keysOf_append] at distinct
  have hnew : p.key ∉ keysOf back := (List.nodup_cons.mp (List.nodup_append.mp distinct).2.1).1
  rw [pass_kept h fun q hq _ (hqp : q.key = p.key) => hnew (hqp ▸ key_mem hq)]
  exact FormValues.get?_set_self w p.name value

theorem isResolution_of_pass (h : Topological (derivedOf parameters) order)
    (distinct : (keysOf (derivedOf parameters)).Nodup) (hpass : order.foldlM resolveOne v = .ok m) :
    IsResolution parameters v m := by
  refine ⟨fun key hkey => pass_kept hpass fun p hp hformula => ?_, fun p hp hcomputed => ?_⟩
  · obtain ⟨hmem, hcomputed⟩ := h.computed_iff.mpr ⟨hp, hformula⟩
    exact hkey p hmem hcomputed
  · obtain ⟨horder, hformula⟩ := h.computed_iff.mp ⟨hp, hcomputed⟩
    obtain ⟨front, back, heq⟩ := List.append_of_mem horder
    rw [heq] at hpass
    obtain ⟨w, text, -, htext, hback⟩ := pass_at hformula hpass
    refine ⟨text, ?_, held_of_pass (heq ▸ h.distinct) hback⟩
    rw [← htext]
    refine evaluateDerived_congr fun key hkey => ?_
    -- What it reads is worked out neither here nor later.
    have hne := fun q => h.ne_key distinct heq hkey (q := q)
    rw [pass_kept hback fun q hq _ => hne q (List.mem_cons_of_mem _ hq)]
    exact w.get?_set_of_ne _ (hne p (List.mem_cons_self ..)).symm

/-- Where a form has what a resolution has, up to the parameters still to come, the rest of a pass
finds the resolution. -/
theorem rest_of_isResolution (h : Topological (derivedOf parameters) order)
    (distinct : (keysOf (derivedOf parameters)).Nodup) (hm : IsResolution parameters v m)
    (heq : order = front ++ back)
    (hw : ∀ key, (∀ q ∈ back, q.givenFormula.isSome → q.key ≠ key) → w.get? key = m.get? key) :
    ∃ m', back.foldlM resolveOne w = .ok m' ∧ ∀ key, m'.get? key = m.get? key := by
  induction back generalizing front w with
  | nil => exact ⟨w, rfl, fun key => hw key fun q hq => nomatch hq⟩
  | cons p back ih =>
    have heq' : order = (front ++ [p]) ++ back := by simpa using heq
    cases hformula : p.givenFormula.isSome with
    | false =>
      rw [List.foldlM_cons, resolveOne_eq_self hformula, ok_bind]
      exact ih heq' fun key hkey => hw key (List.forall_mem_cons.mpr ⟨by simp [hformula], hkey⟩)
    | true =>
      have horder : p ∈ order := by simp [heq]
      obtain ⟨hp, hcomputed⟩ := h.computed_iff.mpr ⟨horder, hformula⟩
      obtain ⟨text, htext, hget⟩ := hm.computed p hp hcomputed
      -- What it reads is not worked out from here on, so it is there already.
      have hvalue : evaluateDerived p w = .ok text := by
        rw [← htext]
        exact evaluateDerived_congr fun key hkey =>
          hw key fun q hq _ => h.ne_key distinct heq hkey hq
      rw [List.foldlM_cons, (resolveOne_eq_ok hformula).mpr ⟨text, hvalue, rfl⟩, ok_bind]
      refine ih heq' fun key hkey => ?_
      rw [FormValues.get?_set]
      split
      · rename_i hsame
        rw [hsame]
        exact hget.symm
      · rename_i hother
        exact hw key (List.forall_mem_cons.mpr ⟨fun _ => Ne.symm hother, hkey⟩)

/-- A pass over given answers finds any resolution of them. -/
theorem pass_of_isResolution (h : Topological (derivedOf parameters) order)
    (distinct : (keysOf (derivedOf parameters)).Nodup) (hm : IsResolution parameters v m) :
    ∃ m', order.foldlM resolveOne v = .ok m' ∧ ∀ key, m'.get? key = m.get? key := by
  refine rest_of_isResolution h distinct hm (List.nil_append order).symm fun key hkey => ?_
  refine (hm.kept key fun p hp hcomputed => ?_).symm
  obtain ⟨horder, hformula⟩ := h.computed_iff.mp ⟨hp, hcomputed⟩
  exact hkey p horder hformula

theorem pass_eq_self (h : Topological (derivedOf parameters) order)
    (hm : IsResolution parameters v m) : order.foldlM resolveOne m = .ok m := by
  refine foldlM_eq_self fun p hp => ?_
  cases hformula : p.givenFormula.isSome with
  | false => exact resolveOne_eq_self hformula m
  | true =>
    obtain ⟨hmem, hcomputed⟩ := h.computed_iff.mpr ⟨hp, hformula⟩
    obtain ⟨text, htext, hget⟩ := hm.computed p hmem hcomputed
    refine (resolveOne_eq_ok hformula).mpr ⟨text, htext, ?_⟩
    rw [FormValues.set_eq_self hget]

theorem IsResolution.perm (hm : IsResolution parameters v m) {listed : List Parameter}
    (h : listed.Perm parameters) : IsResolution listed v m :=
  ⟨fun key hkey => hm.kept key fun p hp => hkey p (h.mem_iff.mpr hp),
    fun p hp => hm.computed p (h.mem_iff.mp hp)⟩

/-! ## The schedule -/

theorem requireNames_eq_ok {values : List Value} :
    requireNames values = .ok () ↔ ∀ value ∈ values, value.isName = true := by
  simp [requireNames]

theorem schedule_eq_ok : schedule parameters = .ok order ↔
    (∀ name ∈ namesOf (derivedOf parameters), name.isName = true) ∧
      dependencyOrder parameters = order := by
  rw [schedule, bind_eq_ok, ← requireNames_eq_ok]
  simp only [pure_eq_ok]
  constructor
  · rintro ⟨⟨⟩, hnames, horder⟩
    exact ⟨hnames, horder⟩
  · rintro ⟨hnames, horder⟩
    exact ⟨(), hnames, horder⟩

theorem dependency_mem_namesOf {derived : List Parameter} (hp : p ∈ derived) {name : Value}
    (hname : name ∈ p.dependencies) : name ∈ namesOf derived :=
  List.mem_append_right _ (List.mem_flatMap.mpr ⟨p, hp, hname⟩)

theorem namesOf_perm {derived listed : List Parameter} (h : listed.Perm derived) :
    (namesOf listed).Perm (namesOf derived) :=
  (h.map _).append (h.flatMap_right _)

theorem resolve_eq_ok : resolve parameters v = .ok m ↔
    (∀ name ∈ namesOf (derivedOf parameters), name.isName = true) ∧
      (dependencyOrder parameters).foldlM resolveOne v = .ok m := by
  rw [resolve, bind_eq_ok]
  simp only [schedule_eq_ok]
  constructor
  · rintro ⟨order, ⟨hnames, rfl⟩, hpass⟩
    exact ⟨hnames, hpass⟩
  · rintro ⟨hnames, hpass⟩
    exact ⟨_, ⟨hnames, rfl⟩, hpass⟩

theorem computed_of_dependencyOrder (hp : p ∈ dependencyOrder parameters)
    (hformula : p.givenFormula.isSome = true) : p ∈ parameters ∧ isComputed p = true := by
  obtain ⟨hmem, hkind⟩ := mem_derivedOf.mp (dependencyOrder_subset parameters hp)
  exact ⟨hmem, Bool.and_eq_true_iff.mpr ⟨hkind, hformula⟩⟩

theorem resolve_kept (h : resolve parameters v = .ok m) {key : Key}
    (hkey : ∀ p ∈ parameters, isComputed p → p.key ≠ key) : m.get? key = v.get? key := by
  refine pass_kept (resolve_eq_ok.mp h).2 fun p hp hformula => ?_
  obtain ⟨hmem, hcomputed⟩ := computed_of_dependencyOrder hp hformula
  exact hkey p hmem hcomputed

theorem cycles_eq_ok (distinct : (keysOf parameters).Nodup) {found : List (List Value)} :
    cycles parameters = .ok found ↔
      (∀ name ∈ namesOf (derivedOf parameters), name.isName = true) ∧
        findCycles parameters = found := by
  have hdeclared : ((derivedOf parameters).flatMap fun p =>
      declared (derivedOf parameters) p.key) = (derivedOf parameters).flatMap (·.dependencies) :=
    List.flatMap_congr fun p hp => declared_key (nodup_derivedOf distinct) hp
  rw [cycles, hdeclared, bind_eq_ok, ← requireNames_eq_ok]
  simp only [pure_eq_ok]
  constructor
  · rintro ⟨⟨⟩, hnames, hfound⟩
    exact ⟨hnames, hfound⟩
  · rintro ⟨hnames, hfound⟩
    exact ⟨(), hnames, hfound⟩

theorem acyclic_of_cycles (h : cycles parameters = .ok []) : Acyclic (derivedOf parameters) := by
  rw [cycles, bind_eq_ok] at h
  obtain ⟨-, -, hfound⟩ := h
  exact acyclic_of_findCycles (pure_eq_ok.mp hfound)

/-- A full pass finds the one resolution of the given answers, whatever order the schema lists its
parameters in, and another pass changes nothing. -/
theorem resolve_finds_resolution (distinct : (keysOf parameters).Nodup)
    (acyclic : cycles parameters = .ok []) (pass : resolve parameters v = .ok m) :
    IsResolution parameters v m ∧
      (∀ other, IsResolution parameters v other → ∀ key, other.get? key = m.get? key) ∧
      (∀ listed, listed.Perm parameters →
        ∃ other, resolve listed v = .ok other ∧ ∀ key, other.get? key = m.get? key) ∧
      resolve parameters m = .ok m := by
  have hacyclic := acyclic_of_cycles acyclic
  have hdistinct := nodup_derivedOf distinct
  have horder := topological_dependencyOrder hdistinct hacyclic
  obtain ⟨hnames, hpass⟩ := resolve_eq_ok.mp pass
  have hm := isResolution_of_pass horder hdistinct hpass
  refine ⟨hm, fun other hother => ?_, fun listed hperm => ?_, resolve_eq_ok.mpr ⟨hnames, ?_⟩⟩
  · obtain ⟨m', hpass', hsame⟩ := pass_of_isResolution horder hdistinct hother
    cases hpass.symm.trans hpass'
    exact fun key => (hsame key).symm
  · have hderived : (derivedOf listed).Perm (derivedOf parameters) := hperm.filter _
    have hdistinct' : (keysOf (derivedOf listed)).Nodup := (hderived.map _).nodup_iff.mpr hdistinct
    have hlisted := topological_dependencyOrder hdistinct' (hacyclic.perm hdistinct hderived)
    obtain ⟨other, hpass', hsame⟩ := pass_of_isResolution hlisted hdistinct' (hm.perm hperm)
    refine ⟨other, resolve_eq_ok.mpr ⟨fun name hname => ?_, hpass'⟩, hsame⟩
    exact hnames name ((namesOf_perm hderived).mem_iff.mp hname)
  · exact pass_eq_self horder hm

end

/-- A sheet is priced by its area, which is worked out first. The ratio divides by what is not there,
and the note has no formula. -/
def sheet : List Parameter := [
  { id := "cost", name := "cost", kind := .derivedCalc, formula := some "area * 2",
    dependencies := ["area"] },
  { id := "area", name := "area", kind := .derivedCalc, formula := some "w * h",
    dependencies := ["w", "h"] },
  { id := "ratio", name := "ratio", kind := .derivedCalc, formula := some "area / depth",
    dependencies := ["area", "depth"] },
  { id := "note", name := "note", kind := .derivedCalc },
  { id := "w", name := "w", kind := .numericValue },
  { id := "h", name := "h", kind := .numericValue }]

def sheetAnswers : FormValues :=
  ⟨[⟨"w", .int 3⟩, ⟨"h", .text "2.5"⟩, ⟨"note", .text "as agreed"⟩]⟩

theorem sheet_resolution : ∃ m, resolve sheet sheetAnswers = .ok m ∧
    (holds m "cost" "15" && holds m "ratio" "0" && holds m "note" "as agreed") = true ∧
    IsResolution sheet sheetAnswers m ∧
    (∀ other, IsResolution sheet sheetAnswers other → ∀ key, other.get? key = m.get? key) ∧
    (∀ listed, listed.Perm sheet →
      ∃ other, resolve listed sheetAnswers = .ok other ∧ ∀ key, other.get? key = m.get? key) ∧
    resolve sheet m = .ok m := by
  have hvalues : (resolve sheet sheetAnswers).toOption.any (fun m =>
      holds m "cost" "15" && holds m "ratio" "0" && holds m "note" "as agreed") = true := by
    decide +kernel
  obtain ⟨m, hpass, hvalues⟩ := ok_of_any hvalues
  exact ⟨m, hpass, hvalues, resolve_finds_resolution (by decide) rfl hpass⟩

end Quotation.Derived
