import Mathlib.Data.List.Chain
import Mathlib.Data.List.Perm.Subperm
import Quotation.Derived.Cycle
import Quotation.Proofs.Derived.Dependency

/-!
# The search for cycles

The search as a relation between what was found before and after a row of names is followed, without
a bound on the length of paths. What it reports are cycles, no two of them through the same
parameters, and a dependency that lies on no reported cycle leads to a parameter that was finished
before. So such dependencies go round in no cycle, and where nothing is reported the derived
parameters are acyclic.
-/

namespace Quotation.Derived

/-! ## What the search does -/

def cycleAt (path : List Value) (name : Value) : List Value :=
  path.dropWhile (·.key != name.key) ++ [name]

theorem cycleAt_eq {path : List Value} {name : Value} (h : name.key ∈ path.map Value.key) :
    ∃ front first rest, path = front ++ first :: rest ∧ first.key = name.key ∧
      cycleAt path name = first :: rest ++ [name] := by
  induction path with
  | nil => cases h
  | cons other path ih =>
    by_cases hother : other.key = name.key
    · exact ⟨[], other, path, rfl, hother, by simp [cycleAt, hother]⟩
    · rw [List.map_cons, List.mem_cons] at h
      obtain ⟨front, first, rest, rfl, hfirst, hcycle⟩ := ih (h.resolve_left (Ne.symm hother))
      refine ⟨other :: front, first, rest, rfl, hfirst, ?_⟩
      rw [← hcycle, cycleAt, cycleAt, List.dropWhile_cons_of_pos (by simpa using hother)]

/-- `Follows derived path names s t`: from the end of a path the search follows a row of names, and
comes from `s` to `t`. -/
inductive Follows (derived : List Parameter) :
    List Value → List Value → Search → Search → Prop where
  | done (path : List Value) (s : Search) : Follows derived path [] s s
  | outside {path name names s t} :
      name.key ∉ keysOf derived →
      Follows derived path names s t → Follows derived path (name :: names) s t
  | closes {path name names s t} :
      name.key ∈ keysOf derived → name.key ∈ path.map Value.key →
      Follows derived path names (s.record (cycleAt path name)) t →
      Follows derived path (name :: names) s t
  | known {path name names s t} :
      name.key ∈ keysOf derived → name.key ∉ path.map Value.key → name.key ∈ s.finished →
      Follows derived path names s t → Follows derived path (name :: names) s t
  | enters {path name names s r t} :
      name.key ∈ keysOf derived → name.key ∉ path.map Value.key → name.key ∉ s.finished →
      Follows derived (path ++ [name]) (declared derived name.key) s r →
      Follows derived path names { r with finished := name.key :: r.finished } t →
      Follows derived path (name :: names) s t

def follow (derived : List Parameter) (count : Nat) (path : List Value) (s : Search)
    (name : Value) : Search :=
  if !(keysOf derived).contains name.key then s
  else if (path.map Value.key).contains name.key then s.record (cycleAt path name)
  else if s.finished.contains name.key then s
  else visit derived count path name s

theorem visit_succ (derived : List Parameter) (count : Nat) (path : List Value) (name : Value)
    (s : Search) :
    visit derived (count + 1) path name s =
      let t := (declared derived name.key).foldl (follow derived count (path ++ [name])) s
      { t with finished := name.key :: t.finished } := rfl

theorem contains_eq_false {keys : List Key} {key : Key} (h : key ∉ keys) :
    keys.contains key = false := by simpa using h

theorem nodup_keys_append {path : List Value} {name : Value} (h : (path.map Value.key).Nodup)
    (hname : name.key ∉ path.map Value.key) : ((path ++ [name]).map Value.key).Nodup := by
  rw [List.map_append, List.map_singleton, ← List.concat_eq_append]
  exact h.concat hname

theorem Follows.cons {derived : List Parameter} {count : Nat} {path names : List Value}
    {name : Value} {s : Search}
    (hvisit : name.key ∈ keysOf derived → name.key ∉ path.map Value.key →
      ∃ r, Follows derived (path ++ [name]) (declared derived name.key) s r ∧
        visit derived count path name s = { r with finished := name.key :: r.finished })
    (hnames : ∀ s, Follows derived path names s (names.foldl (follow derived count path) s)) :
    Follows derived path (name :: names) s
      ((name :: names).foldl (follow derived count path) s) := by
  rw [List.foldl_cons, follow]
  by_cases hkey : name.key ∈ keysOf derived
  · by_cases hpath : name.key ∈ path.map Value.key
    · rw [List.contains_iff_mem.mpr hkey, List.contains_iff_mem.mpr hpath]
      exact .closes hkey hpath (hnames _)
    · rw [List.contains_iff_mem.mpr hkey, contains_eq_false hpath]
      by_cases hfinished : name.key ∈ s.finished
      · rw [List.contains_iff_mem.mpr hfinished]
        exact .known hkey hpath hfinished (hnames _)
      · obtain ⟨r, hr, heq⟩ := hvisit hkey hpath
        rw [contains_eq_false hfinished, heq]
        exact .enters hkey hpath hfinished hr (hnames _)
  · rw [contains_eq_false hkey]
    exact .outside hkey (hnames s)

/-- The count is enough: a path goes through each derived parameter once at most. -/
theorem follows_foldl (derived : List Parameter) (count : Nat) (path : List Value)
    (hdistinct : (path.map Value.key).Nodup) (hknown : path.map Value.key ⊆ keysOf derived)
    (hcount : derived.length ≤ path.length + count) (names : List Value) (s : Search) :
    Follows derived path names s (names.foldl (follow derived count path) s) := by
  induction count generalizing path names s with
  | zero =>
    -- The path is full, so that every derived parameter is on it.
    have hfull : (path.map Value.key).Perm (keysOf derived) :=
      (hdistinct.subperm hknown).perm_of_length_le (by simpa [keysOf] using hcount)
    induction names generalizing s with
    | nil => exact .done path s
    | cons name names ih =>
      exact .cons (fun hkey hpath => absurd (hfull.mem_iff.mpr hkey) hpath) ih
  | succ count ihcount =>
    induction names generalizing s with
    | nil => exact .done path s
    | cons name names ih =>
      refine .cons (fun hkey hpath => ?_) ih
      have hdistinct' := nodup_keys_append hdistinct hpath
      have hknown' : (path ++ [name]).map Value.key ⊆ keysOf derived := by
        simpa using ⟨hknown, hkey⟩
      have hcount' : derived.length ≤ (path ++ [name]).length + count := by simp; omega
      exact ⟨_, ihcount _ hdistinct' hknown' hcount' _ s, visit_succ derived count path name s⟩

theorem follows_findCycles (parameters : List Parameter) :
    ∃ t, Follows (derivedOf parameters) [] ((derivedOf parameters).map (·.name)) {} t ∧
      findCycles parameters = t.cycles := by
  have h := follows_foldl (derivedOf parameters) (derivedOf parameters).length [] List.nodup_nil
    (List.nil_subset _) (by simp) ((derivedOf parameters).map (·.name)) {}
  refine ⟨_, h, ?_⟩
  refine congrArg Search.cycles (List.foldl_ext _ _ _ ?_)
  intro s name hname
  obtain ⟨p, hp, rfl⟩ := List.mem_map.mp hname
  have hkey : p.name.key ∈ keysOf (derivedOf parameters) := key_mem hp
  rw [follow, List.contains_iff_mem.mpr hkey]
  simp

/-! ## What is found stays found -/

theorem sameKeys_iff {xs ys : List Value} :
    sameKeys xs ys = true ↔ ∀ key, key ∈ xs.map Value.key ↔ key ∈ ys.map Value.key := by
  simp only [sameKeys, Bool.and_eq_true, List.all_eq_true, List.contains_iff_mem]
  exact ⟨fun h key => ⟨h.1 key, h.2 key⟩, fun h => ⟨fun key => (h key).mp, fun key => (h key).mpr⟩⟩

theorem record_finished (s : Search) (cycle : List Value) :
    (s.record cycle).finished = s.finished := by
  unfold Search.record
  split <;> rfl

theorem subset_record (s : Search) (cycle : List Value) : s.cycles ⊆ (s.record cycle).cycles := by
  unfold Search.record
  split
  · exact List.Subset.refl _
  · exact List.subset_append_left _ _

theorem mem_record {s : Search} {cycle other : List Value} (h : other ∈ (s.record cycle).cycles) :
    other ∈ s.cycles ∨ other = cycle := by
  unfold Search.record at h
  split at h
  · exact .inl h
  · simpa using h

theorem exists_sameKeys_record (s : Search) (cycle : List Value) :
    ∃ other ∈ (s.record cycle).cycles, sameKeys cycle other = true := by
  unfold Search.record
  split
  · rename_i hany
    exact List.any_eq_true.mp hany
  · exact ⟨cycle, by simp, sameKeys_iff.mpr fun _ => Iff.rfl⟩

def Unlike (cycles : List (List Value)) : Prop :=
  cycles.Pairwise fun xs ys => ¬ ∀ key, key ∈ xs.map Value.key ↔ key ∈ ys.map Value.key

theorem Unlike.record {s : Search} (h : Unlike s.cycles) (cycle : List Value) :
    Unlike (s.record cycle).cycles := by
  unfold Search.record
  split
  · exact h
  · rename_i hany
    refine List.pairwise_append.mpr ⟨h, List.pairwise_singleton .., fun xs hxs ys hys hsame => ?_⟩
    obtain rfl := List.mem_singleton.mp hys
    exact hany (List.any_eq_true.mpr ⟨xs, hxs, sameKeys_iff.mpr fun key => (hsame key).symm⟩)

section

variable {derived : List Parameter} {path names : List Value} {s t : Search}

theorem Follows.unlike (h : Follows derived path names s t) (hs : Unlike s.cycles) :
    Unlike t.cycles := by
  induction h with
  | done => exact hs
  | outside _ _ ih | known _ _ _ _ ih => exact ih hs
  | closes _ _ _ ih => exact ih (hs.record _)
  | enters _ _ _ _ _ ihinner ih => exact ih (ihinner hs)

theorem Follows.subset (h : Follows derived path names s t) :
    s.cycles ⊆ t.cycles ∧ s.finished ⊆ t.finished := by
  induction h with
  | done => exact ⟨List.Subset.refl _, List.Subset.refl _⟩
  | outside _ _ ih | known _ _ _ _ ih => exact ih
  | closes _ _ _ ih =>
    rw [record_finished] at ih
    exact ⟨List.Subset.trans (subset_record _ _) ih.1, ih.2⟩
  | enters _ _ _ _ _ ihinner ih =>
    have hfinished := List.Subset.trans (List.subset_cons_self _ _) ih.2
    exact ⟨List.Subset.trans ihinner.1 ih.1, List.Subset.trans ihinner.2 hfinished⟩

theorem Follows.reports (h : Follows derived path names s t) {name : Value} (hname : name ∈ names)
    (hkey : name.key ∈ keysOf derived) (hpath : name.key ∈ path.map Value.key) :
    ∃ cycle ∈ t.cycles, sameKeys (cycleAt path name) cycle = true := by
  induction h with
  | done => cases hname
  | outside hout _ ih =>
    rcases List.mem_cons.mp hname with rfl | hname
    · exact absurd hkey hout
    · exact ih hname hpath
  | closes _ _ hrest ih =>
    rcases List.mem_cons.mp hname with rfl | hname
    · obtain ⟨cycle, hcycle, hsame⟩ := exists_sameKeys_record _ (cycleAt _ name)
      exact ⟨cycle, hrest.subset.1 hcycle, hsame⟩
    · exact ih hname hpath
  | known _ hnew _ _ ih | enters _ hnew _ _ _ _ ih =>
    rcases List.mem_cons.mp hname with rfl | hname
    · exact absurd hpath hnew
    · exact ih hname hpath

theorem Follows.finishes (h : Follows derived path names s t) {name : Value} (hname : name ∈ names)
    (hkey : name.key ∈ keysOf derived) : name.key ∈ path.map Value.key ∨ name.key ∈ t.finished := by
  induction h with
  | done => cases hname
  | outside hout _ ih =>
    rcases List.mem_cons.mp hname with rfl | hname
    · exact absurd hkey hout
    · exact ih hname
  | closes _ hpath _ ih =>
    rcases List.mem_cons.mp hname with rfl | hname
    · exact .inl hpath
    · exact ih hname
  | known _ _ hfinished hrest ih =>
    rcases List.mem_cons.mp hname with rfl | hname
    · exact .inr (hrest.subset.2 hfinished)
    · exact ih hname
  | enters _ _ _ _ hrest _ ih =>
    rcases List.mem_cons.mp hname with rfl | hname
    · exact .inr (hrest.subset.2 (List.mem_cons_self ..))
    · exact ih hname

end

/-! ## What is reported is a cycle -/

def Leads (derived : List Parameter) (name next : Value) : Prop := next ∈ declared derived name.key

/-- A row of derived parameters, each of which depends on the next, with the first at the end again. -/
def IsCycle (derived : List Parameter) (cycle : List Value) : Prop :=
  ∃ first rest last, cycle = first :: rest ++ [last] ∧ last.key = first.key ∧
    ((first :: rest).map Value.key).Nodup ∧ (∀ name ∈ first :: rest, name.key ∈ keysOf derived) ∧
    cycle.IsChain (Leads derived)

/-- A path of the search, with the names that it may be followed by. -/
structure Trail (derived : List Parameter) (path names : List Value) : Prop where
  chain : path.IsChain (Leads derived)
  distinct : (path.map Value.key).Nodup
  known : ∀ name ∈ path, name.key ∈ keysOf derived
  leads : ∀ last ∈ path.getLast?, ∀ name ∈ names, Leads derived last name

section

variable {derived : List Parameter} {path names : List Value} {name : Value}

theorem Trail.nil (derived : List Parameter) (names : List Value) : Trail derived [] names :=
  ⟨.nil, List.nodup_nil, nofun, nofun⟩

theorem Trail.of_subset (h : Trail derived path names) {others : List Value}
    (hsubset : others ⊆ names) : Trail derived path others :=
  ⟨h.chain, h.distinct, h.known, fun last hlast next hnext =>
    h.leads last hlast next (hsubset hnext)⟩

theorem Trail.tail (h : Trail derived path (name :: names)) : Trail derived path names :=
  h.of_subset (List.subset_cons_self ..)

theorem Trail.chain_append (h : Trail derived path (name :: names)) :
    (path ++ [name]).IsChain (Leads derived) := by
  refine h.chain.append (List.isChain_singleton name) ?_
  rintro last hlast next ⟨⟩
  exact h.leads last hlast name (List.mem_cons_self ..)

theorem Trail.enter (h : Trail derived path (name :: names)) (hkey : name.key ∈ keysOf derived)
    (hnew : name.key ∉ path.map Value.key) :
    Trail derived (path ++ [name]) (declared derived name.key) := by
  refine ⟨h.chain_append, nodup_keys_append h.distinct hnew, ?_, ?_⟩
  · intro other hother
    rcases List.mem_append.mp hother with hother | hother
    · exact h.known other hother
    · rw [List.mem_singleton.mp hother]
      exact hkey
  · intro last hlast next hnext
    obtain rfl : name = last := by simpa using hlast
    exact hnext

theorem Trail.isCycle (h : Trail derived path (name :: names))
    (hpath : name.key ∈ path.map Value.key) : IsCycle derived (cycleAt path name) := by
  obtain ⟨front, first, rest, rfl, hfirst, hcycle⟩ := cycleAt_eq hpath
  have hdistinct := h.distinct
  have hchain := h.chain_append
  rw [List.map_append] at hdistinct
  rw [List.append_assoc] at hchain
  refine ⟨first, rest, name, hcycle, hfirst.symm, hdistinct.of_append_right, ?_, ?_⟩
  · exact fun other hother => h.known other (List.mem_append_right _ hother)
  · rw [hcycle]
    exact hchain.right_of_append

theorem Follows.isCycle {s t : Search} (h : Follows derived path names s t)
    (htrail : Trail derived path names) (hs : ∀ cycle ∈ s.cycles, IsCycle derived cycle) :
    ∀ cycle ∈ t.cycles, IsCycle derived cycle := by
  induction h with
  | done => exact hs
  | outside _ _ ih | known _ _ _ _ ih => exact ih htrail.tail hs
  | closes _ hpath _ ih =>
    refine ih htrail.tail fun cycle hcycle => ?_
    rcases mem_record hcycle with hcycle | rfl
    · exact hs cycle hcycle
    · exact htrail.isCycle hpath
  | enters hkey hnew _ _ _ ihinner ih => exact ih htrail.tail (ihinner (htrail.enter hkey hnew) hs)

end

theorem isCycle_of_mem_findCycles {parameters : List Parameter} {cycle : List Value}
    (h : cycle ∈ findCycles parameters) : IsCycle (derivedOf parameters) cycle := by
  obtain ⟨t, ht, heq⟩ := follows_findCycles parameters
  rw [heq] at h
  exact ht.isCycle (Trail.nil _ _) nofun cycle h

theorem unlike_findCycles (parameters : List Parameter) : Unlike (findCycles parameters) := by
  obtain ⟨t, ht, heq⟩ := follows_findCycles parameters
  rw [heq]
  exact ht.unlike List.Pairwise.nil

/-! ## What is not reported is acyclic -/

/-- In a row of finished keys, the last one first, each dependency was finished before or lies on a
reported cycle. -/
def Settled (derived : List Parameter) (cycles : List (List Value)) : List Key → Prop
  | [] => True
  | key :: finished =>
    (∀ other, Feeds derived other key → other ∈ finished ∨
      ∃ cycle ∈ cycles, key ∈ cycle.map Value.key ∧ other ∈ cycle.map Value.key) ∧
    Settled derived cycles finished

theorem Settled.mono {derived : List Parameter} {cycles more : List (List Value)}
    (hsubset : cycles ⊆ more) {finished : List Key} (h : Settled derived cycles finished) :
    Settled derived more finished := by
  induction finished with
  | nil => trivial
  | cons key finished ih =>
    refine ⟨fun other hother => ?_, ih h.2⟩
    rcases h.1 other hother with hother | ⟨cycle, hcycle, hon⟩
    · exact .inl hother
    · exact .inr ⟨cycle, hsubset hcycle, hon⟩

theorem mem_cycleAt {path : List Value} {name dep : Value}
    (h : dep.key ∈ (path ++ [name]).map Value.key) :
    name.key ∈ (cycleAt (path ++ [name]) dep).map Value.key ∧
      dep.key ∈ (cycleAt (path ++ [name]) dep).map Value.key := by
  obtain ⟨front, first, rest, hpath, -, hcycle⟩ := cycleAt_eq h
  have hlast : name ∈ first :: rest := by
    apply List.mem_of_getLast?
    simpa using (congrArg List.getLast? hpath).symm
  rw [hcycle]
  exact ⟨List.mem_map_of_mem (List.mem_append_left _ hlast), by simp⟩

theorem Follows.settled {derived : List Parameter} {path names : List Value} {s t : Search}
    (h : Follows derived path names s t) (hs : Settled derived s.cycles s.finished) :
    Settled derived t.cycles t.finished := by
  induction h with
  | done => exact hs
  | outside _ _ ih | known _ _ _ _ ih => exact ih hs
  | closes _ _ _ ih =>
    refine ih ?_
    rw [record_finished]
    exact hs.mono (subset_record _ _)
  | enters _ _ _ hinner _ ihinner ih =>
    refine ih ⟨?_, ihinner hs⟩
    rintro other ⟨hother, hdepends⟩
    obtain ⟨dep, hdep, rfl⟩ := List.mem_map.mp hdepends
    rcases hinner.finishes hdep hother with hpath | hfinished
    · obtain ⟨cycle, hcycle, hsame⟩ := hinner.reports hdep hother hpath
      have hon := mem_cycleAt hpath
      rw [sameKeys_iff] at hsame
      exact .inr ⟨cycle, hcycle, (hsame _).mp hon.1, (hsame _).mp hon.2⟩
    · exact .inl hfinished

/-- A derived parameter feeds another one, and no cycle of a row names both. -/
def FeedsOff (derived : List Parameter) (cycles : List (List Value)) (other key : Key) : Prop :=
  Feeds derived other key ∧
    ∀ cycle ∈ cycles, key ∈ cycle.map Value.key → other ∉ cycle.map Value.key

theorem acc_of_settled {derived : List Parameter} {cycles : List (List Value)} {finished : List Key}
    (h : Settled derived cycles finished) : ∀ key ∈ finished, Acc (FeedsOff derived cycles) key := by
  induction finished with
  | nil => exact nofun
  | cons key finished ih =>
    intro other hother
    rcases List.mem_cons.mp hother with rfl | hother
    · refine ⟨_, fun fed hfed => ?_⟩
      rcases h.1 fed hfed.1 with hfinished | ⟨cycle, hcycle, hkey, hon⟩
      · exact ih h.2 fed hfinished
      · exact absurd hon (hfed.2 cycle hcycle hkey)
    · exact ih h.2 other hother

theorem wellFounded_feedsOff (parameters : List Parameter) :
    WellFounded (FeedsOff (derivedOf parameters) (findCycles parameters)) := by
  obtain ⟨t, ht, heq⟩ := follows_findCycles parameters
  rw [heq]
  have hsettled := ht.settled trivial
  refine ⟨fun key => ⟨_, fun other hother => ?_⟩⟩
  obtain ⟨p, hp, rfl⟩ := mem_keysOf.mp hother.1.1
  rcases ht.finishes (List.mem_map_of_mem hp) hother.1.1 with hpath | hfinished
  · cases hpath
  · exact acc_of_settled hsettled _ hfinished

theorem acyclic_of_findCycles {parameters : List Parameter} (h : findCycles parameters = []) :
    Acyclic (derivedOf parameters) := by
  refine Subrelation.wf (fun {other key} hfeeds => ?_) (wellFounded_feedsOff parameters)
  rw [h]
  exact ⟨hfeeds, nofun⟩

end Quotation.Derived
