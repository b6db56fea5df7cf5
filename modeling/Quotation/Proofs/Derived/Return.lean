import Quotation.Proofs.Derived.Search

/-!
# Ways back

When the search enters a parameter, some parameters are on its path and some are finished. The
parameter will be on a reported cycle just if dependencies lead from it back to the path, or to itself,
through none that was finished before.
-/

namespace Quotation.Derived

/-- Dependencies lead from the parameter with a key to one on a trail, through none to be avoided. -/
inductive Returns (derived : List Parameter) (trail avoided : List Key) : Key → Prop where
  | closes {key other} : Feeds derived other key → other ∈ trail → Returns derived trail avoided key
  | onward {key other} : Feeds derived other key → other ∉ avoided →
      Returns derived trail avoided other → Returns derived trail avoided key

/-- One of some names is on a trail or leads back to it. -/
def LeadsBack (derived : List Parameter) (trail avoided : List Key) (names : List Value) : Prop :=
  ∃ name ∈ names, name.key ∈ keysOf derived ∧
    (name.key ∈ trail ∨ name.key ∉ avoided ∧ Returns derived trail avoided name.key)

def Named (cycles : List (List Value)) (key : Key) : Prop :=
  ∃ cycle ∈ cycles, key ∈ cycle.map Value.key

/-- `Enters derived path names s trail name r`: while it follows a row of names from the end of a path
and from what was found in `s`, the search enters a name at the end of a trail, and what was found by
then is `r`. -/
inductive Enters (derived : List Parameter) :
    List Value → List Value → Search → List Value → Value → Search → Prop where
  | here {path name names s} :
      name.key ∈ keysOf derived → name.key ∉ path.map Value.key → name.key ∉ s.finished →
      Enters derived path (name :: names) s path name s
  | within {path name names s trail entered r} :
      name.key ∈ keysOf derived → name.key ∉ path.map Value.key → name.key ∉ s.finished →
      Enters derived (path ++ [name]) (declared derived name.key) s trail entered r →
      Enters derived path (name :: names) s trail entered r
  | later {path name names s t trail entered r} :
      Follows derived path [name] s t → Enters derived path names t trail entered r →
      Enters derived path (name :: names) s trail entered r

/-! ## Leading back -/

section

variable {derived : List Parameter} {trail avoided more : List Key} {key other : Key}
  {names : List Value}

theorem returns_iff :
    Returns derived trail avoided key ↔ LeadsBack derived trail avoided (declared derived key) := by
  constructor
  · rintro (⟨hfeeds, htrail⟩ | ⟨hfeeds, hnew, hreturns⟩)
    · obtain ⟨name, hname, rfl⟩ := List.mem_map.mp hfeeds.2
      exact ⟨name, hname, hfeeds.1, .inl htrail⟩
    · obtain ⟨name, hname, rfl⟩ := List.mem_map.mp hfeeds.2
      exact ⟨name, hname, hfeeds.1, .inr ⟨hnew, hreturns⟩⟩
  · rintro ⟨name, hname, hknown, htrail | ⟨hnew, hreturns⟩⟩
    · exact .closes ⟨hknown, List.mem_map_of_mem hname⟩ htrail
    · exact .onward ⟨hknown, List.mem_map_of_mem hname⟩ hnew hreturns

theorem Returns.mono (hsubset : avoided ⊆ more) (h : Returns derived trail more key) :
    Returns derived trail avoided key := by
  induction h with
  | closes hfeeds htrail => exact .closes hfeeds htrail
  | onward hfeeds hnew _ ih => exact .onward hfeeds (fun hmem => hnew (hsubset hmem)) ih

theorem LeadsBack.mono (hsubset : avoided ⊆ more) (h : LeadsBack derived trail more names) :
    LeadsBack derived trail avoided names := by
  obtain ⟨name, hname, hknown, htrail | ⟨hnew, hreturns⟩⟩ := h
  · exact ⟨name, hname, hknown, .inl htrail⟩
  · exact ⟨name, hname, hknown, .inr ⟨fun hmem => hnew (hsubset hmem), hreturns.mono hsubset⟩⟩

theorem leadsBack_cons {name : Value} :
    LeadsBack derived trail avoided (name :: names) ↔
      (name.key ∈ keysOf derived ∧
        (name.key ∈ trail ∨ name.key ∉ avoided ∧ Returns derived trail avoided name.key)) ∨
      LeadsBack derived trail avoided names := by
  simp only [LeadsBack, List.exists_mem_cons_iff]

theorem LeadsBack.cons (name : Value) (h : LeadsBack derived trail avoided names) :
    LeadsBack derived trail avoided (name :: names) := leadsBack_cons.mpr (.inr h)

theorem Returns.avoids (more : List Key) (h : Returns derived trail avoided key) :
    Returns derived trail (more ++ avoided) key ∨
      ∃ other ∈ more, other ∉ avoided ∧ Returns derived trail avoided other := by
  induction h with
  | closes hfeeds htrail => exact .inl (.closes hfeeds htrail)
  | @onward key other hfeeds hnew hreturns ih =>
    by_cases hmore : other ∈ more
    · exact .inr ⟨other, hmore, hnew, hreturns⟩
    · rcases ih with ih | ih
      · exact .inl (.onward hfeeds (by simp [hmore, hnew]) ih)
      · exact .inr ih

theorem Returns.once (key : Key) (h : Returns derived trail avoided other) :
    Returns derived trail (key :: avoided) other ∨ Returns derived trail (key :: avoided) key := by
  induction h with
  | closes hfeeds htrail => exact .inl (.closes hfeeds htrail)
  | @onward _ next hfeeds hnew _ ih =>
    rcases ih with ih | ih
    · by_cases hnext : next = key
      · exact .inr (hnext ▸ ih)
      · exact .inl (.onward hfeeds (by simp [hnext, hnew]) ih)
    · exact .inr ih

theorem Returns.direct (h : Returns derived trail avoided key) :
    Returns derived trail (key :: avoided) key := (h.once key).elim id id

end

/-! ## What the search has seen -/

section

variable {derived : List Parameter} {path names : List Value} {s t : Search} {key : Key}

theorem Follows.finished_off_path (h : Follows derived path names s t) (hkey : key ∈ t.finished) :
    key ∈ s.finished ∨ key ∉ path.map Value.key := by
  induction h with
  | done => exact .inl hkey
  | outside _ _ ih | known _ _ _ _ ih => exact ih hkey
  | closes _ _ _ ih =>
    rw [record_finished] at ih
    exact ih hkey
  | @enters path name _ _ _ _ _ hnew _ _ _ ihinner ih =>
    rcases ih hkey with hmem | hoff
    · rcases List.mem_cons.mp hmem with rfl | hmem
      · exact .inr hnew
      · rcases ihinner hmem with hbefore | hoff
        · exact .inl hbefore
        · exact .inr fun hpath => hoff (by simp only [List.map_append, List.mem_append, hpath, true_or])
    · exact .inr hoff

theorem named_mono {cycles more : List (List Value)} (hsubset : cycles ⊆ more)
    (h : Named cycles key) : Named more key := by
  obtain ⟨cycle, hcycle, hkey⟩ := h
  exact ⟨cycle, hsubset hcycle, hkey⟩

theorem named_record {cycle : List Value} :
    Named (s.record cycle).cycles key ↔ Named s.cycles key ∨ key ∈ cycle.map Value.key := by
  constructor
  · rintro ⟨other, hother, hkey⟩
    rcases mem_record hother with hother | rfl
    · exact .inl ⟨other, hother, hkey⟩
    · exact .inr hkey
  · rintro (h | hkey)
    · exact named_mono (subset_record s cycle) h
    · obtain ⟨other, hother, hsame⟩ := exists_sameKeys_record s cycle
      exact ⟨other, hother, (sameKeys_iff.mp hsame key).mp hkey⟩

theorem cycleAt_subset {name : Value} (h : name.key ∈ path.map Value.key) :
    (cycleAt path name).map Value.key ⊆ path.map Value.key := by
  rw [cycleAt, List.map_append]
  exact List.append_subset.mpr ⟨((List.dropWhile_sublist _).map _).subset, by simpa using h⟩

theorem Follows.named_cases (h : Follows derived path names s t) (hkey : Named t.cycles key) :
    Named s.cycles key ∨ key ∈ path.map Value.key ∨ (key ∈ t.finished ∧ key ∉ s.finished) := by
  induction h with
  | done => exact .inl hkey
  | outside _ _ ih | known _ _ _ _ ih => exact ih hkey
  | closes _ hpath _ ih =>
    rw [record_finished] at ih
    rcases ih hkey with hnamed | hrest
    · rcases named_record.mp hnamed with hnamed | hon
      · exact .inl hnamed
      · exact .inr (.inl (cycleAt_subset hpath hon))
    · exact .inr hrest
  | @enters path name _ s r t _ _ hnew hinner hrest ihinner ih =>
    have hlater : name.key :: r.finished ⊆ t.finished := hrest.subset.2
    rcases ih hkey with hnamed | hpath | ⟨hfinished, hbefore⟩
    · rcases ihinner hnamed with hnamed | hpath | ⟨hfinished, hbefore⟩
      · exact .inl hnamed
      · rw [List.map_append, List.mem_append, List.map_singleton, List.mem_singleton] at hpath
        rcases hpath with hpath | rfl
        · exact .inr (.inl hpath)
        · exact .inr (.inr ⟨hlater (List.mem_cons_self ..), hnew⟩)
      · exact .inr (.inr ⟨hlater (List.mem_cons_of_mem _ hfinished), hbefore⟩)
    · exact .inr (.inl hpath)
    · refine .inr (.inr ⟨hfinished, fun hmem => hbefore ?_⟩)
      exact List.mem_cons_of_mem _ (hinner.subset.2 hmem)

theorem Follows.named_iff (h : Follows derived path names s t) (hfinished : key ∈ s.finished)
    (hoff : key ∉ path.map Value.key) : Named t.cycles key ↔ Named s.cycles key := by
  refine ⟨fun hnamed => ?_, named_mono h.subset.1⟩
  rcases h.named_cases hnamed with hbefore | hpath | ⟨-, hnew⟩
  · exact hbefore
  · exact absurd hpath hoff
  · exact absurd hfinished hnew

/-- A path goes through unfinished parameters, each once, and what is named is on it or finished. -/
structure Coherent (path : List Value) (s : Search) : Prop where
  distinct : (path.map Value.key).Nodup
  unfinished : ∀ key ∈ path.map Value.key, key ∉ s.finished
  named : ∀ key, Named s.cycles key → key ∈ path.map Value.key ∨ key ∈ s.finished

variable {name : Value}

theorem mem_keys_append : key ∈ (path ++ [name]).map Value.key ↔
    key ∈ path.map Value.key ∨ key = name.key := by
  rw [List.map_append, List.mem_append, List.map_singleton, List.mem_singleton]

theorem Coherent.record (h : Coherent path s) (hpath : name.key ∈ path.map Value.key) :
    Coherent path (s.record (cycleAt path name)) := by
  refine ⟨h.distinct, ?_, fun key hkey => ?_⟩
  · rw [record_finished]
    exact h.unfinished
  · rw [record_finished]
    rcases named_record.mp hkey with hkey | hkey
    · exact h.named key hkey
    · exact .inl (cycleAt_subset hpath hkey)

theorem Coherent.enter (h : Coherent path s) (hoff : name.key ∉ path.map Value.key)
    (hnew : name.key ∉ s.finished) : Coherent (path ++ [name]) s := by
  refine ⟨nodup_keys_append h.distinct hoff, fun key hkey => ?_, fun key hkey => ?_⟩
  · rcases mem_keys_append.mp hkey with hkey | rfl
    · exact h.unfinished key hkey
    · exact hnew
  · exact (h.named key hkey).imp_left fun hpath => mem_keys_append.mpr (.inl hpath)

theorem Coherent.leave (h : Coherent path s) (hoff : name.key ∉ path.map Value.key)
    (hinner : Follows derived (path ++ [name]) names s t) :
    Coherent path { t with finished := name.key :: t.finished } := by
  refine ⟨h.distinct, fun key hkey hmem => ?_, fun key hkey => ?_⟩
  · rcases List.mem_cons.mp hmem with rfl | hmem
    · exact hoff hkey
    · rcases hinner.finished_off_path hmem with hbefore | hoff'
      · exact h.unfinished key hkey hbefore
      · exact hoff' (mem_keys_append.mpr (.inl hkey))
  · rcases hinner.named_cases hkey with hbefore | hpath | ⟨hfinished, -⟩
    · exact (h.named key hbefore).imp_right fun hfinished =>
        List.mem_cons_of_mem _ (hinner.subset.2 hfinished)
    · rcases mem_keys_append.mp hpath with hpath | rfl
      · exact .inl hpath
      · exact .inr (List.mem_cons_self ..)
    · exact .inr (List.mem_cons_of_mem _ hfinished)

end

/-! ## What gets named -/

theorem cycleAt_subset_append (trail back : List Value) (name : Value) :
    cycleAt trail name ⊆ cycleAt (trail ++ back) name := by
  rw [cycleAt, cycleAt, List.dropWhile_append]
  split
  · rename_i hempty
    rw [List.isEmpty_iff.mp hempty]
    exact List.subset_append_right _ _
  · rw [List.append_assoc]
    refine List.append_subset.mpr ⟨List.subset_append_left _ _, ?_⟩
    exact List.subset_append_of_subset_right _ (List.subset_append_right _ _)

theorem mem_cycleAt_iff {front back : List Value} {on name : Value}
    (hdistinct : ((front ++ [on] ++ back).map Value.key).Nodup)
    (hname : name.key ∈ (front ++ [on] ++ back).map Value.key) :
    on.key ∈ (cycleAt (front ++ [on] ++ back) name).map Value.key ↔
      name.key ∈ (front ++ [on]).map Value.key := by
  constructor
  · intro hon
    by_contra htrail
    have hskip : ∀ other ∈ front ++ [on], (other.key != name.key) = true := fun other hother =>
      bne_iff_ne.mpr fun hsame => htrail (hsame ▸ List.mem_map_of_mem hother)
    rw [cycleAt, List.dropWhile_append_of_pos hskip] at hon
    rw [List.map_append, List.nodup_append] at hdistinct
    rw [List.map_append, List.mem_append] at hname
    have hback : on.key ∈ back.map Value.key :=
      cycleAt_subset (hname.resolve_left htrail) hon
    exact hdistinct.2.2 on.key (by simp) on.key hback rfl
  · intro htrail
    exact List.map_subset _ (cycleAt_subset_append _ back name) (mem_cycleAt htrail).1

section

variable {derived : List Parameter} {path front names : List Value} {on : Value} {s t : Search}

theorem trail_subset {back : List Value} (hpath : path = front ++ [on] ++ back) :
    (front ++ [on]).map Value.key ⊆ path.map Value.key := by
  rw [hpath]
  exact List.map_subset _ (List.subset_append_left _ _)

theorem Follows.leadsBack (h : Follows derived path names s t) {back : List Value}
    (hpath : path = front ++ [on] ++ back) (hdistinct : (path.map Value.key).Nodup)
    (hnamed : Named t.cycles on.key) :
    Named s.cycles on.key ∨
      LeadsBack derived ((front ++ [on]).map Value.key) s.finished names := by
  induction h generalizing back with
  | done => exact .inl hnamed
  | outside _ _ ih | known _ _ _ _ ih =>
    exact (ih hpath hdistinct hnamed).imp_right (LeadsBack.cons _)
  | @closes path name names s t hkey hclose hrest ih =>
    subst hpath
    rw [record_finished] at ih
    rcases ih rfl hdistinct hnamed with hnamed | hleads
    · rcases named_record.mp hnamed with hnamed | hon
      · exact .inl hnamed
      · have htrail := (mem_cycleAt_iff hdistinct hclose).mp hon
        exact .inr (leadsBack_cons.mpr (.inl ⟨hkey, .inl htrail⟩))
    · exact .inr (hleads.cons _)
  | @enters path name names s r t hkey hoff hnew hinner hrest ihinner ih =>
    subst hpath
    rcases ih rfl hdistinct hnamed with hnamed | hleads
    · have hpath : front ++ [on] ++ back ++ [name] = front ++ [on] ++ (back ++ [name]) :=
        List.append_assoc ..
      refine (ihinner hpath (nodup_keys_append hdistinct hoff) hnamed).imp_right fun hleads => ?_
      exact leadsBack_cons.mpr (.inl ⟨hkey, .inr ⟨hnew, returns_iff.mpr hleads⟩⟩)
    · refine .inr ((hleads.mono ?_).cons _)
      exact List.Subset.trans hinner.subset.2 (List.subset_cons_self ..)

theorem Follows.leadsBack_of_finished (h : Follows derived path names s t) {trail avoided : List Key}
    (havoided : ∀ key ∈ avoided, key ∈ path.map Value.key ∨ key ∈ s.finished) {key : Key}
    (hkey : key ∈ t.finished) (hbefore : key ∉ s.finished)
    (hreturns : Returns derived trail avoided key) : LeadsBack derived trail avoided names := by
  induction h with
  | done => exact absurd hkey hbefore
  | outside _ _ ih | known _ _ _ _ ih => exact (ih havoided hkey hbefore).cons _
  | closes _ _ _ ih =>
    rw [record_finished] at ih
    exact (ih havoided hkey hbefore).cons _
  | @enters path name names s r t hknown hoff hnew hinner hrest ihinner ih =>
    have hmore : ∀ key ∈ avoided, key ∈ (path ++ [name]).map Value.key ∨ key ∈ s.finished :=
      fun key hmem => (havoided key hmem).imp_left fun hpath => mem_keys_append.mpr (.inl hpath)
    have hname : name.key ∉ avoided := fun hmem => (havoided _ hmem).elim hoff hnew
    by_cases hpassed : key ∈ name.key :: r.finished
    · refine leadsBack_cons.mpr (.inl ⟨hknown, .inr ⟨hname, ?_⟩⟩)
      rcases List.mem_cons.mp hpassed with rfl | hpassed
      · exact hreturns
      · exact returns_iff.mpr (ihinner hmore hpassed hbefore)
    · refine (ih (fun key hmem => ?_) hkey hpassed).cons _
      exact (havoided key hmem).imp_right fun hfinished =>
        List.mem_cons_of_mem _ (hinner.subset.2 hfinished)

/-- Past what is finished behind a name there is another way back, or the name leads back, too. -/
theorem Follows.leadsBack_past {name : Value} {r : Search}
    (hinner : Follows derived (path ++ [name]) (declared derived name.key) s r)
    {trail avoided : List Key} (hfinished : s.finished ⊆ avoided)
    (havoided : ∀ key ∈ avoided, key ∈ path.map Value.key ∨ key ∈ s.finished)
    (hleads : LeadsBack derived trail avoided names) :
    Returns derived trail avoided name.key ∨
      LeadsBack derived trail (name.key :: r.finished ++ avoided) names := by
  have hpassed : ∀ key ∈ name.key :: r.finished, key ∉ avoided → Returns derived trail avoided key →
      Returns derived trail avoided name.key := by
    intro key hkey hnew hreturns
    rcases List.mem_cons.mp hkey with rfl | hkey
    · exact hreturns
    · have hbefore : key ∉ s.finished := fun hmem => hnew (hfinished hmem)
      have hmore : ∀ key ∈ avoided, key ∈ (path ++ [name]).map Value.key ∨ key ∈ s.finished :=
        fun key hmem => (havoided key hmem).imp_left fun hpath => mem_keys_append.mpr (.inl hpath)
      exact returns_iff.mpr (hinner.leadsBack_of_finished hmore hkey hbefore hreturns)
  obtain ⟨other, hother, hknown, htrail | ⟨hnew, hreturns⟩⟩ := hleads
  · exact .inr ⟨other, hother, hknown, .inl htrail⟩
  · by_cases hbehind : other.key ∈ name.key :: r.finished
    · exact .inl (hpassed _ hbehind hnew hreturns)
    · rcases hreturns.avoids (name.key :: r.finished) with hlater | ⟨key, hkey, hkey', hreturns⟩
      · have hpast : other.key ∉ name.key :: r.finished ++ avoided :=
          fun hmem => (List.mem_append.mp hmem).elim hbehind hnew
        exact .inr ⟨other, hother, hknown, .inr ⟨hpast, hlater⟩⟩
      · exact .inl (hpassed key hkey hkey' hreturns)

/-- A parameter on the path gets named if something that is followed leads back to its trail without
the rest of the path. -/
theorem Follows.named_of_leadsBack (h : Follows derived path names s t) {back : List Value}
    (hpath : path = front ++ [on] ++ back) (hdistinct : (path.map Value.key).Nodup)
    (hleads : LeadsBack derived ((front ++ [on]).map Value.key) (s.finished ++ back.map Value.key)
      names) : Named t.cycles on.key := by
  induction h generalizing back with
  | done =>
    obtain ⟨name, hname, -⟩ := hleads
    cases hname
  | outside hout _ ih =>
    rcases leadsBack_cons.mp hleads with ⟨hknown, -⟩ | hleads
    · exact absurd hknown hout
    · exact ih hpath hdistinct hleads
  | closes _ hclose hrest ih =>
    subst hpath
    rw [record_finished] at ih
    rcases leadsBack_cons.mp hleads with ⟨-, hback⟩ | hleads
    · have hsplit := hclose
      rw [List.map_append, List.mem_append] at hsplit
      have htrail := hback.elim id fun ⟨hnew, _⟩ =>
        hsplit.resolve_right fun hmem => hnew (List.mem_append_right _ hmem)
      have hon := (mem_cycleAt_iff hdistinct hclose).mpr htrail
      exact named_mono hrest.subset.1 (named_record.mpr (.inr hon))
    · exact ih rfl hdistinct hleads
  | known _ hoff hfinished _ ih =>
    rcases leadsBack_cons.mp hleads with ⟨-, htrail | ⟨hnew, -⟩⟩ | hleads
    · exact absurd (trail_subset hpath htrail) hoff
    · exact absurd (List.mem_append_left _ hfinished) hnew
    · exact ih hpath hdistinct hleads
  | @enters path name names s r t _ hoff hnew hinner hrest ihinner ih =>
    -- If the name leads back, then directly, and the search behind it names the parameter.
    have hthrough (hreturns : Returns derived ((front ++ [on]).map Value.key)
        (s.finished ++ back.map Value.key) name.key) : Named t.cycles on.key := by
      have hpath' : path ++ [name] = front ++ [on] ++ (back ++ [name]) := by
        rw [hpath, List.append_assoc]
      refine named_mono hrest.subset.1 (ihinner hpath' (nodup_keys_append hdistinct hoff) ?_)
      refine (returns_iff.mp hreturns.direct).mono fun key hkey => ?_
      rw [List.map_append, List.map_singleton, ← List.append_assoc, List.mem_append,
        List.mem_singleton] at hkey
      exact List.mem_cons.mpr hkey.symm
    have havoided : ∀ key ∈ s.finished ++ back.map Value.key,
        key ∈ path.map Value.key ∨ key ∈ s.finished := by
      intro key hkey
      refine (List.mem_append.mp hkey).symm.imp_left fun hback => ?_
      rw [hpath, List.map_append]
      exact List.mem_append_right _ hback
    rcases leadsBack_cons.mp hleads with ⟨-, htrail | ⟨-, hreturns⟩⟩ | hleads
    · exact absurd (trail_subset hpath htrail) hoff
    · exact hthrough hreturns
    · rcases hinner.leadsBack_past (List.subset_append_left _ _) havoided hleads with
        hreturns | hleads
      · exact hthrough hreturns
      · refine ih hpath hdistinct (hleads.mono ?_)
        exact List.append_subset.mpr ⟨List.subset_append_left _ _,
          List.subset_append_of_subset_right _ (List.subset_append_right _ _)⟩

end

/-! ## Every entry -/

section

variable {derived : List Parameter} {path names trail : List Value} {name : Value}
  {s t r : Search} {key : Key}

theorem Follows.enters_finished (h : Follows derived path names s t) (hkey : key ∈ t.finished)
    (hnew : key ∉ s.finished) :
    ∃ trail name r, name.key = key ∧ Enters derived path names s trail name r := by
  induction h with
  | done => exact absurd hkey hnew
  | outside hout _ ih =>
    obtain ⟨trail, name, r, hname, henters⟩ := ih hkey hnew
    exact ⟨trail, name, r, hname, .later (.outside hout (.done _ _)) henters⟩
  | closes hknown hclose _ ih =>
    rw [record_finished] at ih
    obtain ⟨trail, name, r, hname, henters⟩ := ih hkey hnew
    exact ⟨trail, name, r, hname, .later (.closes hknown hclose (.done _ _)) henters⟩
  | known hknown hoff hfinished _ ih =>
    obtain ⟨trail, name, r, hname, henters⟩ := ih hkey hnew
    exact ⟨trail, name, r, hname, .later (.known hknown hoff hfinished (.done _ _)) henters⟩
  | @enters path name _ _ r _ hknown hoff hunfinished hinner _ ihinner ih =>
    by_cases hlate : key ∈ name.key :: r.finished
    · rcases List.mem_cons.mp hlate with rfl | hfinished
      · exact ⟨path, name, _, rfl, .here hknown hoff hunfinished⟩
      · obtain ⟨trail, entered, u, hname, henters⟩ := ihinner hfinished hnew
        exact ⟨trail, entered, u, hname, .within hknown hoff hunfinished henters⟩
    · obtain ⟨trail, entered, u, hname, henters⟩ := ih hkey hlate
      exact ⟨trail, entered, u, hname,
        .later (.enters hknown hoff hunfinished hinner (.done _ _)) henters⟩

theorem Coherent.follows (hs : Coherent path s) (h : Follows derived path names s t) :
    Coherent path t := by
  induction h with
  | done => exact hs
  | outside _ _ ih | known _ _ _ _ ih => exact ih hs
  | closes _ hclose _ ih => exact ih (hs.record hclose)
  | enters _ hoff _ hinner _ _ ih => exact ih (hs.leave hoff hinner)

theorem Follows.unique (h : Follows derived path names s t) (h' : Follows derived path names s r) :
    t = r := by
  induction h generalizing r with
  | done =>
    cases h'
    rfl
  | outside hout _ ih =>
    cases h' with
    | outside _ hrest => exact ih hrest
    | closes hknown | known hknown | enters hknown => exact absurd hknown hout
  | closes hknown hclose _ ih =>
    cases h' with
    | outside hout => exact absurd hknown hout
    | closes _ _ hrest => exact ih hrest
    | known _ hoff | enters _ hoff => exact absurd hclose hoff
  | known hknown hoff hfinished _ ih =>
    cases h' with
    | outside hout => exact absurd hknown hout
    | closes _ hclose => exact absurd hclose hoff
    | known _ _ _ hrest => exact ih hrest
    | enters _ _ hnew => exact absurd hfinished hnew
  | enters hknown hoff hnew _ _ ihinner ih =>
    cases h' with
    | outside hout => exact absurd hknown hout
    | closes _ hclose => exact absurd hclose hoff
    | known _ _ hfinished => exact absurd hfinished hnew
    | enters _ _ _ hinner hrest =>
      obtain rfl := ihinner hinner
      exact ih hrest

theorem Follows.split (h : Follows derived path (name :: names) s t) :
    ∃ r, Follows derived path [name] s r ∧ Follows derived path names r t := by
  cases h with
  | outside hout hrest => exact ⟨_, .outside hout (.done _ _), hrest⟩
  | closes hknown hclose hrest => exact ⟨_, .closes hknown hclose (.done _ _), hrest⟩
  | known hknown hoff hfinished hrest => exact ⟨_, .known hknown hoff hfinished (.done _ _), hrest⟩
  | enters hknown hoff hnew hinner hrest =>
    exact ⟨_, .enters hknown hoff hnew hinner (.done _ _), hrest⟩

theorem Follows.entering (h : Follows derived path (name :: names) s t)
    (hknown : name.key ∈ keysOf derived) (hoff : name.key ∉ path.map Value.key)
    (hnew : name.key ∉ s.finished) :
    ∃ r, Follows derived (path ++ [name]) (declared derived name.key) s r ∧
      Follows derived path names { r with finished := name.key :: r.finished } t := by
  cases h with
  | outside hout => exact absurd hknown hout
  | closes _ hclose => exact absurd hclose hoff
  | known _ _ hfinished => exact absurd hfinished hnew
  | enters _ _ _ hinner hrest => exact ⟨_, hinner, hrest⟩

/-- A parameter that is entered gets named just if dependencies lead back from it to its trail. -/
theorem Enters.named_iff (henters : Enters derived path names s trail name r)
    (h : Follows derived path names s t) (hs : Coherent path s) :
    name.key ∈ t.finished ∧ name.key ∉ path.map Value.key ∧
      (Named t.cycles name.key ↔
        Returns derived ((trail ++ [name]).map Value.key) r.finished name.key) := by
  induction henters generalizing t with
  | @here path name names s hknown hoff hnew =>
    obtain ⟨r, hinner, hrest⟩ := h.entering hknown hoff hnew
    have hfinished : name.key ∈ name.key :: r.finished := List.mem_cons_self ..
    refine ⟨hrest.subset.2 hfinished, hoff, ?_⟩
    have hdistinct := nodup_keys_append hs.distinct hoff
    have hpath : path ++ [name] = path ++ [name] ++ [] := (List.append_nil _).symm
    rw [hrest.named_iff hfinished hoff, returns_iff]
    constructor
    · intro hnamed
      refine (hinner.leadsBack hpath hdistinct hnamed).resolve_left fun hbefore => ?_
      exact (hs.named _ hbefore).elim hoff hnew
    · intro hleads
      exact hinner.named_of_leadsBack hpath hdistinct (by simpa using hleads)
  | @within path first names s trail entered r hknown hoff hnew _ ih =>
    obtain ⟨u, hinner, hrest⟩ := h.entering hknown hoff hnew
    obtain ⟨hfinished, hoff', hiff⟩ := ih hinner (hs.enter hoff hnew)
    have hlater := List.mem_cons_of_mem first.key hfinished
    have hoff'' : entered.key ∉ path.map Value.key :=
      fun hpath => hoff' (mem_keys_append.mpr (.inl hpath))
    refine ⟨hrest.subset.2 hlater, hoff'', ?_⟩
    rw [← hiff]
    exact hrest.named_iff hlater hoff''
  | later hfirst _ ih =>
    obtain ⟨u, hone, hrest⟩ := h.split
    obtain rfl := hfirst.unique hone
    exact ih hrest (hs.follows hfirst)

end

end Quotation.Derived
