import Quotation.Proofs.Form.Clearing
import Quotation.Proofs.Price.Range

/-!
# What was cleared stays hidden

Clearing comes to an end by itself, whatever the conditions are, for a field that is emptied is not
emptied again. A field is emptied while it is hidden by one that clearing is through with, so that it
stays hidden unless conditions lead back to the field that was changed.
-/

namespace Quotation.Form

open Derived

/-- Clearing of the children of some parents, one parent after the other until none is left. -/
inductive Clears (parameters : List Parameter) : List Value → FormValues → FormValues → Prop
  | done {v : FormValues} : Clears parameters [] v v
  | next {parent : Value} {parents more : List Value} {v w r : FormValues}
      (children : parameters.foldlM (clearChild parent) (v, parents) = .ok (w, more))
      (rest : Clears parameters more w r) : Clears parameters (parent :: parents) v r

section

variable {parameters : List Parameter} {p q : Parameter} {u v w : FormValues}
  {parent name : Value} {stack : List Value} {root key : Key}

/-! ## The end of clearing -/

theorem clears_of_clearHiddenChildren (hnames : Schema.TextNames parameters) (hname : name.IsText)
    (h : clearHiddenChildren name parameters v = .ok w) : Clears parameters [name] v w := by
  refine clearHiddenChildren_induction (motive := fun u stack =>
    ∀ r, Clears parameters stack u r → Clears parameters [name] v r) hnames hname ?_ h ?_ w .done
  · intro parent rest u u' stack hbefore _ hchildren r hrest
    exact hbefore r (.next hchildren hrest)
  · exact fun r hr => hr

theorem blank_inRange (h : v.InRange) (name : Value) : (blank v name).InRange := by
  have hempty : (Value.text "").InRange := trivial
  unfold blank
  split
  · exact h
  · exact h.set hempty name

theorem clearChild_total (hnames : Schema.TextNames parameters) (hp : p ∈ parameters)
    (parent : Value) (h : v.InRange) (stack : List Value) :
    ∃ state, clearChild parent (v, stack) p = .ok state ∧ state.1.InRange := by
  obtain ⟨visible, hvisible⟩ :=
    isVisible_total h fun c hc => (hnames.parent p hp c hc).isName
  obtain ⟨value, hvalue, -⟩ := h.read (hnames.name p hp).isName
  simp only [clearChild, hvisible, hvalue, ok_bind]
  split
  · exact ⟨_, rfl, h⟩
  · split
    · exact ⟨_, rfl, h⟩
    · cases visible with
      | true => exact ⟨_, rfl, h⟩
      | false => exact ⟨_, rfl, blank_inRange (blank_inRange h p.name) p.subName⟩

theorem clearFrom_total (hnames : Schema.TextNames parameters) (h : v.InRange) (count : Nat)
    (stack : List Value) : ∃ w, clearFrom parameters count stack v = .ok w := by
  induction count generalizing v stack with
  | zero => exact ⟨v, by cases stack <;> rfl⟩
  | succ count ih =>
    cases stack with
    | nil => exact ⟨v, rfl⟩
    | cons parent rest =>
      obtain ⟨⟨w, more⟩, hchildren, hw⟩ := foldlM_total
        (P := fun state : FormValues × List Value => state.1.InRange) (b := (v, rest))
        (fun p hp (u, stack) hu => clearChild_total hnames hp parent hu stack) h
      rw [clearFrom, hchildren, ok_bind]
      exact ih hw more

/-! ## Fields that clearing is through with -/

/-- A field that clearing does not change any more: the one it started from, or a blank one. -/
def Through (root : Key) (u : FormValues) (key : Key) : Prop :=
  key = root ∨ (u.get key).isBlank = true

def Touched (v u : FormValues) (p : Parameter) : Prop :=
  u.get? p.key ≠ v.get? p.key ∨ u.get? (p.subName : Key) ≠ v.get? (p.subName : Key)

theorem Through.kept (h : Through root u key) (hkey : q.key ≠ root)
    (hsub : (q.subName : Key) ≠ root) : (clearAnswers q u).get? key = u.get? key := by
  rcases clearAnswers_emptied q u key with hsame | ⟨hcleared, hfilled, -⟩
  · exact hsame
  · rcases h with rfl | hblank
    · exact (hcleared.elim hkey.symm hsub.symm).elim
    · rw [hblank] at hfilled
      cases hfilled

theorem Through.clearAnswers (h : Through root u key) (q : Parameter) :
    Through root (clearAnswers q u) key := h.imp_right (clearAnswers_emptied q u).isBlank

/-- Names are text and different, also from those of sub-options. -/
structure Apart (parameters : List Parameter) : Prop where
  names : Schema.TextNames parameters
  distinct : (keysOf parameters).Nodup
  subNames : ∀ p ∈ parameters, ∀ q ∈ parameters, p.key ≠ (q.subName : Key)

theorem Apart.touched (h : Apart parameters) (hp : p ∈ parameters) (hq : q ∈ parameters)
    (htouched : Touched v (clearAnswers q u) p) : p = q ∨ Touched v u p := by
  by_cases hkey : p.key = q.key
  · exact .inl (eq_of_key_eq h.distinct hp hq hkey)
  · refine .inr ?_
    have hsub : (p.subName : Key) ≠ q.subName := fun hsame =>
      hkey (Schema.key_of_subName (h.names.name p hp) (h.names.name q hq) (Key.text.inj hsame))
    have hemptied := clearAnswers_emptied q u
    have hvalue := hemptied.get?_of_not (not_or.mpr ⟨hkey, h.subNames p hp q hq⟩)
    have hchoice := hemptied.get?_of_not (not_or.mpr ⟨(h.subNames q hq p hp).symm, hsub⟩)
    rwa [Touched, hvalue, hchoice] at htouched

/-! ## Hidden by what clearing is through with -/

/-- Clearing has come to some parents and is through with them, and what it has touched is hidden by
such ones. -/
structure Concealed (parameters : List Parameter) (root : Key) (v u : FormValues)
    (stack : List Value) : Prop where
  reached : ∀ parent ∈ stack,
    Relation.ReflTransGen (ChildOf parameters) root parent.key ∧ Through root u parent.key
  hidden : ∀ p ∈ parameters, Touched v u p → isVisible p u = .ok false ∧
    ∃ c, p.conditional = some c ∧ Through root u c.parentKey

theorem concealed_start (parameters : List Parameter) (v : FormValues) (name : Value) :
    Concealed parameters name.key v v [name] where
  reached := List.forall_mem_singleton.mpr ⟨.refl, .inl rfl⟩
  hidden := fun _ _ htouched => (htouched.elim (fun h => h rfl) (fun h => h rfl)).elim

theorem Concealed.clearAnswers (h : Concealed parameters root v u stack)
    (hapart : Apart parameters) (hq : q ∈ parameters) (hkey : q.key ≠ root)
    (hsub : (q.subName : Key) ≠ root)
    (hreached : Relation.ReflTransGen (ChildOf parameters) root parent.key)
    (hthrough : Through root u parent.key) (hchild : ChildOf parameters parent.key q.key)
    (hhidden : isVisible q u = .ok false) :
    Concealed parameters root v (clearAnswers q u)
      (if (u.get q.key).isBlank then stack else q.name :: stack) := by
  have hkept : ∀ p ∈ stack, Relation.ReflTransGen (ChildOf parameters) root p.key ∧
      Through root (Form.clearAnswers q u) p.key :=
    fun p hp => ⟨(h.reached p hp).1, (h.reached p hp).2.clearAnswers q⟩
  constructor
  · split
    · exact hkept
    · exact List.forall_mem_cons.mpr
        ⟨⟨hreached.tail hchild, .inr (clearAnswers_isBlank q u).1⟩, hkept⟩
  · intro p hp htouched
    -- What hid it before, or hides it now, is not changed by the clearing.
    have hbefore : isVisible p u = .ok false ∧
        ∃ c, p.conditional = some c ∧ Through root u c.parentKey := by
      rcases hapart.touched hp hq htouched with rfl | htouched
      · obtain ⟨c, hc, hparent⟩ := parent_of_childOf hapart.distinct hp hchild
        exact ⟨hhidden, c, hc, hparent ▸ hthrough⟩
      · exact h.hidden p hp htouched
    obtain ⟨hbefore, c, hc, hparent⟩ := hbefore
    refine ⟨?_, c, hc, hparent.clearAnswers q⟩
    rw [isVisible_of_parent hc (hparent.kept hkey hsub), hbefore]

theorem hidden_of_touched (hapart : Apart parameters) (hname : name.IsText)
    (hsub : ∀ q ∈ parameters, name.key ≠ (q.subName : Key))
    (hloop : ¬ Looped parameters name.key)
    (h : clearHiddenChildren name parameters v = .ok w) (hp : p ∈ parameters)
    (htouched : Touched v w p) : isVisible p w = .ok false := by
  have hend : Concealed parameters name.key v w [] := by
    refine clearHiddenChildren_induction (motive := Concealed parameters name.key v)
      hapart.names hname ?_ h (concealed_start parameters v name)
    intro parent rest u u' stack hconcealed hparent hfold
    obtain ⟨⟨hreached, hthrough⟩, hrest⟩ := List.forall_mem_cons.mp hconcealed.reached
    refine (foldlM_induction (motive := fun _ (state : FormValues × List Value) =>
      Through name.key state.1 parent.key ∧ Concealed parameters name.key v state.1 state.2)
      ?_ hfold ⟨hthrough, hrest, hconcealed.hidden⟩).2
    rintro q hq - ⟨u, below⟩ ⟨u', below'⟩ ⟨hthrough, hconcealed⟩ hone
    obtain ⟨rfl, rfl, -⟩ | ⟨hchild, hhidden, rfl, rfl⟩ :=
      clearChild_cases hapart.names hparent hq hone
    · exact ⟨hthrough, hconcealed⟩
    · have hkey : q.key ≠ name.key := by
        intro hback
        rw [hback] at hchild
        exact hloop (.tail' hreached hchild)
      exact ⟨hthrough.clearAnswers q, hconcealed.clearAnswers hapart hq hkey (hsub q hq).symm
        hreached hthrough hchild hhidden⟩
  exact (hend.hidden p hp htouched).1

end

/-- Clearing a form within range ends. Then the children of the field that was changed, and of each
parameter whose value was changed, are shown or blank, and what was changed is empty now and beneath
the field. Unless conditions lead from the field back to itself, only hidden parameters have lost an
answer. -/
theorem clearing_empties_hidden {parameters : List Parameter} {name : Value} {v : FormValues}
    (hnames : Schema.TextNames parameters) (hname : name.IsText)
    (distinct : (keysOf parameters).Nodup)
    (apart : ∀ q ∈ parameters,
      name.key ≠ (q.subName : Key) ∧ ∀ p ∈ parameters, p.key ≠ (q.subName : Key))
    (hv : v.InRange) :
    ∃ r, clearHiddenChildren name parameters v = .ok r ∧ Clears parameters [name] v r ∧
      (∀ p ∈ parameters, ∀ c, p.conditional = some c →
        (c.parentKey = name.key ∨ ∃ q ∈ parameters, q.key = c.parentKey ∧
          r.get? q.key ≠ v.get? q.key) →
        isVisible p r = .ok false →
          (r.get p.key).isBlank = true ∧ (r.get (p.subName : Key)).isBlank = true) ∧
      (∀ key, r.get? key ≠ v.get? key →
        r.get? key = some (.text "") ∧ Beneath parameters name.key key) ∧
      (¬ Looped parameters name.key → ∀ p ∈ parameters,
        r.get? p.key ≠ v.get? p.key ∨ r.get? (p.subName : Key) ≠ v.get? (p.subName : Key) →
          isVisible p r = .ok false) := by
  obtain ⟨r, hr⟩ := clearFrom_total hnames hv (parameters.length + 1) [name]
  have hapart : Apart parameters := ⟨hnames, distinct, fun p hp q hq => (apart q hq).2 p hp⟩
  refine ⟨r, hr, clears_of_clearHiddenChildren hnames hname hr, ?_, ?_, ?_⟩
  · intro p hp c hc hchanged
    have hplain : ∀ q ∈ parameters, c.parentKey ≠ (q.subName : Key) := by
      rcases hchanged with hroot | ⟨other, hother, hkey, -⟩
      · exact fun q hq => hroot ▸ (apart q hq).1
      · exact fun q hq => hkey ▸ hapart.subNames other hother q hq
    refine tidy_of_clearHiddenChildren hnames hname hr hp hc hplain ?_
    exact hchanged.imp_right fun ⟨_, _, hkey, hdiffers⟩ => hkey ▸ hdiffers
  · intro key hdiffers
    obtain ⟨hbeneath, -, hempty⟩ :=
      (clearHiddenChildren_emptied hnames hname hr key).resolve_left hdiffers
    exact ⟨hempty, hbeneath⟩
  · exact fun hloop p hp =>
      hidden_of_touched hapart hname (fun q hq => (apart q hq).1) hloop hr hp

/-- Coats are shown for a coating, and the coating for one paper. The two sides show each other. -/
def printing : List Parameter := [
  { id := "1", name := "paper", kind := .fixedOption },
  { id := "2", name := "coats", kind := .numericValue, conditional := some ⟨"coating", ["varnish"]⟩ },
  { id := "3", name := "coating", kind := .fixedOption, conditional := some ⟨"paper", ["gloss"]⟩ },
  { id := "4", name := "front", kind := .fixedOption, conditional := some ⟨"back", ["blank"]⟩ },
  { id := "5", name := "back", kind := .fixedOption, conditional := some ⟨"front", ["blank"]⟩ }]

def printingAnswers : FormValues :=
  ⟨[⟨"paper", "matte"⟩, ⟨"coats", .int 2⟩, ⟨"coating", "varnish"⟩, ⟨"coating_suboption", "thick"⟩,
    ⟨"front", "blank"⟩, ⟨"back", "color"⟩]⟩

/-- Another paper clears the coating and then the coats, and neither of the sides. -/
theorem printing_loses_coats : ∃ r,
    clearHiddenChildren "paper" printing printingAnswers = .ok r ∧
      (holds r "coating" "" && holds r "coating_suboption" "" && holds r "coats" "" &&
        holds r "back" "color") = true ∧
      Clears printing ["paper"] printingAnswers r ∧
      ∀ p ∈ printing, r.get? p.key ≠ printingAnswers.get? p.key ∨
        r.get? (p.subName : Key) ≠ printingAnswers.get? (p.subName : Key) →
          isVisible p r = .ok false := by
  have hcleared : (clearHiddenChildren "paper" printing printingAnswers).toOption.any (fun r =>
      holds r "coating" "" && holds r "coating_suboption" "" && holds r "coats" "" &&
        holds r "back" "color") = true := by
    decide +kernel
  obtain ⟨r, hr, hvalues⟩ := ok_of_any hcleared
  have hnames : Schema.TextNames printing := by
    constructor <;> simp [printing, Value.IsText]
  have hdistinct : (keysOf printing).Nodup := by decide
  have hloop : ¬ Looped printing (Value.key "paper") :=
    not_looped_of_unconditional (p := printing[0]) hdistinct (by simp [printing]) rfl
  obtain ⟨r', hr', hclears, -, -, hhidden⟩ := clearing_empties_hidden hnames ⟨"paper", rfl⟩
    hdistinct (by decide) (FormValues.inRange_of_entries (by decide +kernel) : printingAnswers.InRange)
  cases hr.symm.trans hr'
  exact ⟨r, hr, hvalues, hclears, hhidden hloop⟩

end Quotation.Form
