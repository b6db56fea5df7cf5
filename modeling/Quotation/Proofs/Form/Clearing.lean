import Mathlib.Logic.Relation
import Quotation.Proofs.Form.Agreement
import Quotation.Proofs.Schema.Names

/-!
# What clearing leaves

Clearing empties fields that were filled and does nothing else. It only comes to parameters beneath
the field that was changed, and when it is done each child of a field that was changed or emptied is
shown or blank. A field that is emptied stays so, hence the count of parents is never used up.
-/

namespace Quotation

/-- Some fields that were filled are emptied. All other fields hold what they held. -/
def FormValues.Emptied (which : Key → Prop) (v w : FormValues) : Prop :=
  ∀ key, w.get? key = v.get? key ∨
    (which key ∧ (v.get key).isBlank = false ∧ w.get? key = some (.text ""))

namespace FormValues

variable {which : Key → Prop} {v w u : FormValues} {key : Key}

theorem get_eq_empty (h : v.get? key = some (.text "")) : v.get key = .text "" := by
  rw [get, h]
  rfl

theorem Emptied.refl (which : Key → Prop) (v : FormValues) : Emptied which v v :=
  fun _ => .inl rfl

theorem Emptied.trans (h : Emptied which v w) (h' : Emptied which w u) : Emptied which v u := by
  intro key
  rcases h' key with hsame' | ⟨hwhich, hfilled, hempty⟩
  · rw [hsame']
    exact h key
  · rcases h key with hsame | ⟨-, -, hempty'⟩
    · rw [← get_congr hsame]
      exact .inr ⟨hwhich, hfilled, hempty⟩
    · rw [get_eq_empty hempty'] at hfilled
      cases hfilled

theorem Emptied.mono {other : Key → Prop} (h : Emptied which v w)
    (hother : ∀ key, which key → other key) : Emptied other v w :=
  fun key => (h key).imp_right fun ⟨hwhich, hrest⟩ => ⟨hother key hwhich, hrest⟩

theorem Emptied.isBlank (h : Emptied which v w) (hblank : (v.get key).isBlank = true) :
    (w.get key).isBlank = true := by
  rcases h key with hsame | ⟨-, -, hempty⟩
  · rw [get_congr hsame, hblank]
  · rw [get_eq_empty hempty]
    rfl

theorem Emptied.absent (h : Emptied which v w) (hnone : w.get? key = none) :
    v.get? key = none := by
  rcases h key with hsame | ⟨-, -, hempty⟩
  · rw [← hsame, hnone]
  · rw [hempty] at hnone
    cases hnone

theorem Emptied.get?_of_not (h : Emptied which v w) (hkey : ¬ which key) :
    w.get? key = v.get? key := (h key).resolve_right fun hempty => hkey hempty.1

end FormValues

namespace Form

open Derived

/-! ## One child -/

/-- The parameter with the second key is shown by the field with the first. -/
def ChildOf (parameters : List Parameter) (parent key : Key) : Prop :=
  ∃ p ∈ parameters, p.key = key ∧ ∃ c, p.conditional = some c ∧ c.parentKey = parent

/-- The answers of the parameters that are shown by a field, directly or by way of others. -/
def Beneath (parameters : List Parameter) (root key : Key) : Prop :=
  ∃ p ∈ parameters, Relation.TransGen (ChildOf parameters) root p.key ∧
    (key = p.key ∨ key = p.subName)

/-- A field that helps to show itself. -/
def Looped (parameters : List Parameter) (key : Key) : Prop :=
  Relation.TransGen (ChildOf parameters) key key

def Tidy (p : Parameter) (v : FormValues) : Prop :=
  isVisible p v = .ok false →
    (v.get p.key).isBlank = true ∧ (v.get (p.subName : Key)).isBlank = true

section

variable {parameters row : List Parameter} {p q : Parameter} {v w : FormValues}
  {parent name : Value} {stack stack' : List Value}

theorem parent_of_childOf (distinct : (keysOf parameters).Nodup) (hp : p ∈ parameters)
    {key : Key} (h : ChildOf parameters key p.key) :
    ∃ c, p.conditional = some c ∧ c.parentKey = key := by
  obtain ⟨q, hq, hkey, hc⟩ := h
  rwa [eq_of_key_eq distinct hq hp hkey] at hc

theorem not_looped_of_unconditional (distinct : (keysOf parameters).Nodup) (hp : p ∈ parameters)
    (h : p.conditional = none) : ¬ Looped parameters p.key := by
  intro hloop
  obtain ⟨parent, -, hlast⟩ := Relation.TransGen.tail'_iff.mp hloop
  obtain ⟨c, hc, -⟩ := parent_of_childOf distinct hp hlast
  rw [h] at hc
  cases hc

theorem blank_emptied (v : FormValues) (name : Value) :
    FormValues.Emptied (· = name.key) v (blank v name) := by
  intro key
  unfold blank
  split
  · exact .inl rfl
  · rename_i hfilled
    rw [FormValues.get?_set]
    split
    · rename_i hkey
      rw [hkey]
      exact .inr ⟨rfl, by simpa using hfilled, rfl⟩
    · exact .inl rfl

theorem blank_isBlank (v : FormValues) (name : Value) :
    ((blank v name).get name.key).isBlank = true := by
  unfold blank
  split
  · assumption
  · rw [FormValues.get, FormValues.get?_set_self]
    rfl

def clearAnswers (p : Parameter) (v : FormValues) : FormValues := blank (blank v p.name) p.subName

theorem clearAnswers_emptied (p : Parameter) (v : FormValues) :
    FormValues.Emptied (fun key => key = p.key ∨ key = p.subName) v (clearAnswers p v) :=
  ((blank_emptied v p.name).mono fun _ => .inl).trans
    ((blank_emptied _ p.subName).mono fun _ => .inr)

theorem clearAnswers_isBlank (p : Parameter) (v : FormValues) :
    ((clearAnswers p v).get p.key).isBlank = true ∧
      ((clearAnswers p v).get (p.subName : Key)).isBlank = true :=
  ⟨(blank_emptied _ _).isBlank (blank_isBlank v p.name), blank_isBlank _ _⟩

/-- A parameter is no child or shown, and nothing happens, or its answers are cleared. It is looked
at as a parent itself if its value was cleared. -/
theorem clearChild_cases (hnames : Schema.TextNames parameters) (hparent : parent.IsText)
    (hp : p ∈ parameters) (h : clearChild parent (v, stack) p = .ok (w, stack')) :
    (w = v ∧ stack' = stack ∧
        ∀ c, p.conditional = some c → c.parentKey = parent.key → isVisible p v = .ok true) ∨
      (ChildOf parameters parent.key p.key ∧ isVisible p v = .ok false ∧ w = clearAnswers p v ∧
        stack' = if (v.get p.key).isBlank then stack else p.name :: stack) := by
  simp only [clearChild] at h
  cases hconditional : p.conditional with
  | none =>
    rw [hconditional] at h
    cases h
    exact .inl ⟨rfl, rfl, fun c hc => nomatch hc⟩
  | some c =>
    have hsame := (hnames.parent p hp c hconditional).sameAs_iff hparent
    rw [hconditional] at h
    dsimp only at h
    split at h
    · rename_i hother
      cases h
      refine .inl ⟨rfl, rfl, fun c' hc' hkey => ?_⟩
      cases hc'
      rw [hsame.mpr hkey] at hother
      cases hother
    · rename_i hchild
      obtain ⟨visible, hvisible, h⟩ := bind_eq_ok.mp h
      cases visible with
      | true =>
        cases h
        exact .inl ⟨rfl, rfl, fun _ _ _ => hvisible⟩
      | false =>
        obtain ⟨value, hvalue, h⟩ := bind_eq_ok.mp h
        rw [FormValues.read, if_pos (hnames.name p hp).isName] at hvalue
        cases hvalue
        cases h
        have hkey : c.parentKey = parent.key := hsame.mp (by simpa using hchild)
        exact .inr ⟨⟨p, hp, rfl, c, hconditional, hkey⟩, hvisible, rfl, rfl⟩

/-! ## The parents that are looked at -/

def filled (parameters : List Parameter) (v : FormValues) : Nat :=
  parameters.countP fun p => !(v.get p.key).isBlank

theorem filled_le {which : Key → Prop} (h : FormValues.Emptied which v w)
    (parameters : List Parameter) : filled parameters w ≤ filled parameters v := by
  refine List.countP_mono_left fun p _ hp => ?_
  cases hblank : (v.get p.key).isBlank with
  | true => simp [h.isBlank hblank] at hp
  | false => rfl

theorem filled_clearAnswers (hp : p ∈ parameters) (hvalue : (v.get p.key).isBlank = false) :
    filled parameters (clearAnswers p v) < filled parameters v := by
  obtain ⟨front, back, rfl⟩ := List.append_of_mem hp
  have hfront := filled_le (clearAnswers_emptied p v) front
  have hback := filled_le (clearAnswers_emptied p v) back
  have hblank := (clearAnswers_isBlank p v).1
  unfold filled at *
  simp only [List.countP_append, List.countP_cons, hvalue, hblank, Bool.not_true, Bool.not_false]
  simp only [if_true, Bool.false_eq_true, if_false]
  omega

theorem clearChild_load (hnames : Schema.TextNames parameters) (hparent : parent.IsText)
    (hp : p ∈ parameters) (h : clearChild parent (v, stack) p = .ok (w, stack')) :
    stack'.length + filled parameters w ≤ stack.length + filled parameters v := by
  obtain ⟨rfl, rfl, -⟩ | ⟨-, -, rfl, rfl⟩ := clearChild_cases hnames hparent hp h
  · exact Nat.le_refl _
  · cases hvalue : (v.get p.key).isBlank with
    | true =>
      have hle := filled_le (clearAnswers_emptied p v) parameters
      rw [if_pos rfl]
      omega
    | false =>
      have hlt := filled_clearAnswers hp hvalue
      rw [if_neg (by decide), List.length_cons]
      omega

theorem clearFrom_induction {motive : FormValues → List Value → Prop}
    (hnames : Schema.TextNames parameters)
    (step : ∀ parent rest v w stack, motive v (parent :: rest) → parent.IsText →
      parameters.foldlM (clearChild parent) (v, rest) = .ok (w, stack) → motive w stack)
    {count : Nat} (hcount : stack.length + filled parameters v ≤ count)
    (htexts : ∀ parent ∈ stack, parent.IsText)
    (h : clearFrom parameters count stack v = .ok w) (start : motive v stack) : motive w [] := by
  induction count generalizing stack v with
  | zero =>
    obtain rfl : stack = [] := List.length_eq_zero_iff.mp (by omega)
    cases h
    exact start
  | succ count ih =>
    cases stack with
    | nil =>
      cases h
      exact start
    | cons parent rest =>
      rw [clearFrom] at h
      obtain ⟨⟨u, next⟩, hfold, h⟩ := bind_eq_ok.mp h
      obtain ⟨hparent, hrest⟩ := List.forall_mem_cons.mp htexts
      -- The children that were cleared come onto the stack and hold no value any more.
      have hkept : (∀ name ∈ next, name.IsText) ∧
          next.length + filled parameters u ≤ rest.length + filled parameters v := by
        refine foldlM_induction (motive := fun _ (state : FormValues × List Value) =>
          (∀ name ∈ state.2, name.IsText) ∧ state.2.length + filled parameters state.1 ≤
            rest.length + filled parameters v) ?_ hfold ⟨hrest, Nat.le_refl _⟩
        rintro p hp - ⟨u, below⟩ ⟨u', below'⟩ ⟨hbelow, hload⟩ hone
        refine ⟨?_, (clearChild_load hnames hparent hp hone).trans hload⟩
        obtain ⟨-, rfl, -⟩ | ⟨-, -, -, rfl⟩ := clearChild_cases hnames hparent hp hone
        · exact hbelow
        · split
          · exact hbelow
          · exact List.forall_mem_cons.mpr ⟨hnames.name p hp, hbelow⟩
      have hload := hkept.2
      rw [List.length_cons] at hcount
      exact ih (by omega) hkept.1 h (step parent rest v u next start hparent hfold)

/-! ## The whole clearing -/

theorem clearHiddenChildren_induction {motive : FormValues → List Value → Prop}
    (hnames : Schema.TextNames parameters) (hname : name.IsText)
    (step : ∀ parent rest v w stack, motive v (parent :: rest) → parent.IsText →
      parameters.foldlM (clearChild parent) (v, rest) = .ok (w, stack) → motive w stack)
    (h : clearHiddenChildren name parameters v = .ok w) (start : motive v [name]) :
    motive w [] := by
  refine clearFrom_induction hnames step ?_ (List.forall_mem_singleton.mpr hname) h start
  have hle : filled parameters v ≤ parameters.length := List.countP_le_length
  rw [List.length_singleton]
  omega

theorem clearHiddenChildren_emptied (hnames : Schema.TextNames parameters) (hname : name.IsText)
    (h : clearHiddenChildren name parameters v = .ok w) :
    FormValues.Emptied (Beneath parameters name.key) v w := by
  have hinv := clearHiddenChildren_induction
    (motive := fun u stack => FormValues.Emptied (Beneath parameters name.key) v u ∧
      ∀ parent ∈ stack, Relation.ReflTransGen (ChildOf parameters) name.key parent.key)
    hnames hname ?_ h ⟨.refl _ v, List.forall_mem_singleton.mpr .refl⟩
  · exact hinv.1
  · intro parent rest u u' stack ⟨hemptied, hreached⟩ hparent hfold
    obtain ⟨hroot, hrest⟩ := List.forall_mem_cons.mp hreached
    refine foldlM_induction (motive := fun _ (state : FormValues × List Value) =>
      FormValues.Emptied (Beneath parameters name.key) v state.1 ∧ ∀ parent ∈ state.2,
        Relation.ReflTransGen (ChildOf parameters) name.key parent.key) ?_ hfold ⟨hemptied, hrest⟩
    rintro p hp - ⟨u, below⟩ ⟨u', below'⟩ ⟨hemptied, hbelow⟩ hone
    obtain ⟨rfl, rfl, -⟩ | ⟨hchild, -, rfl, rfl⟩ := clearChild_cases hnames hparent hp hone
    · exact ⟨hemptied, hbelow⟩
    · have hbeneath : Relation.TransGen (ChildOf parameters) name.key p.key := .tail' hroot hchild
      refine ⟨hemptied.trans ((clearAnswers_emptied p u).mono fun key hkey =>
        ⟨p, hp, hbeneath, hkey⟩), ?_⟩
      split
      · exact hbelow
      · exact List.forall_mem_cons.mpr ⟨hbeneath.to_reflTransGen, hbelow⟩

theorem Tidy.emptied {which : Key → Prop} (h : Tidy p v) (hemptied : FormValues.Emptied which v w)
    {c : Conditional} (hc : p.conditional = some c)
    (hparent : w.get? c.parentKey = v.get? c.parentKey) : Tidy p w := by
  intro hhidden
  rw [isVisible_of_parent hc hparent] at hhidden
  exact ⟨hemptied.isBlank (h hhidden).1, hemptied.isBlank (h hhidden).2⟩

/-- The parent of a child is still to be looked at, or the child is tidy, or nothing has happened to
its parent so far. -/
def Attended (root : Key) (v : FormValues) (p : Parameter) (parent : Key) (u : FormValues)
    (stack : List Value) : Prop :=
  parent ∈ stack.map Value.key ∨ Tidy p u ∨ (parent ≠ root ∧ u.get? parent = v.get? parent)

theorem Attended.clearAnswers {root : Key} {u : FormValues} {c : Conditional}
    (h : Attended root v p c.parentKey u stack) (hc : p.conditional = some c)
    (hplain : c.parentKey ≠ (q.subName : Key)) :
    Attended root v p c.parentKey (clearAnswers q u)
      (if (u.get q.key).isBlank then stack else q.name :: stack) := by
  have hemptied := clearAnswers_emptied q u
  rcases hemptied c.parentKey with hsame | ⟨hkey, hfilled, -⟩
  · rcases h with hpending | htidy | ⟨hother, hkept⟩
    · refine .inl ?_
      split
      · exact hpending
      · exact List.mem_cons_of_mem _ hpending
    · exact .inr (.inl (htidy.emptied hemptied hc hsame))
    · exact .inr (.inr ⟨hother, hsame.trans hkept⟩)
  · -- The parent itself was emptied, and is looked at again.
    have hparent : c.parentKey = q.key := hkey.resolve_right hplain
    rw [hparent] at hfilled
    rw [hfilled, hparent]
    exact .inl (List.mem_cons_self ..)

theorem tidy_of_clearHiddenChildren (hnames : Schema.TextNames parameters) (hname : name.IsText)
    (h : clearHiddenChildren name parameters v = .ok w) (hp : p ∈ parameters) {c : Conditional}
    (hc : p.conditional = some c) (hplain : ∀ q ∈ parameters, c.parentKey ≠ (q.subName : Key))
    (hchanged : c.parentKey = name.key ∨ w.get? c.parentKey ≠ v.get? c.parentKey) : Tidy p w := by
  have hdone : Attended name.key v p c.parentKey w [] := by
    refine clearHiddenChildren_induction (motive := Attended name.key v p c.parentKey)
      hnames hname ?_ h ?_
    · intro parent rest u u' stack hpending hparent hfold
      -- While the children of its parent are looked at, its turn is still to come.
      have hturn := foldlM_induction (motive := fun row (state : FormValues × List Value) =>
        (c.parentKey = parent.key ∧ p ∈ row) ∨
          Attended name.key v p c.parentKey state.1 state.2) ?_ hfold ?_
      · exact hturn.resolve_left fun hleft => nomatch hleft.2
      · rintro q hq row ⟨u, below⟩ ⟨u', below'⟩ hinv hone
        obtain ⟨rfl, rfl, hshown⟩ | ⟨-, -, rfl, rfl⟩ := clearChild_cases hnames hparent hq hone
        · refine hinv.elim (fun ⟨hchild, hmem⟩ => ?_) .inr
          rcases List.mem_cons.mp hmem with rfl | hmem
          · refine .inr (.inr (.inl fun hhidden => ?_))
            rw [hshown c hc hchild] at hhidden
            cases hhidden
          · exact .inl ⟨hchild, hmem⟩
        · refine hinv.elim (fun ⟨hchild, hmem⟩ => ?_) fun hother =>
            .inr (hother.clearAnswers hc (hplain q hq))
          rcases List.mem_cons.mp hmem with rfl | hmem
          · exact .inr (.inr (.inl fun _ => clearAnswers_isBlank p u))
          · exact .inl ⟨hchild, hmem⟩
      · rcases hpending with hpending | hpending
        · rcases List.mem_cons.mp hpending with hkey | hpending
          · exact .inl ⟨hkey, hp⟩
          · exact .inr (.inl hpending)
        · exact .inr (.inr hpending)
    · by_cases hroot : c.parentKey = name.key
      · exact .inl (List.mem_singleton.mpr hroot)
      · exact .inr (.inr ⟨hroot, rfl⟩)
  rcases hdone with hpending | htidy | ⟨hother, hsame⟩
  · cases hpending
  · exact htidy
  · exact absurd hchanged (not_or.mpr ⟨hother, not_not.mpr hsame⟩)

end

end Form

end Quotation
