import Quotation.Proofs.Form.Agreement
import Quotation.Proofs.Price.Breakdown

/-!
# Hidden fields do not leak

What a form holds for parameters that are hidden, before and after a pass, changes nothing in its
quote or its messages, as long as those fields belong to the hidden parameters alone.
-/

namespace Quotation.Price

open Derived (resolve derivedOf)

def answerKeys (parameters : List Parameter) : List Key :=
  parameters.flatMap fun p => [p.key, (p.subName : Key)]

/-- A key that only some hidden parameters of a schema use: no formula and no condition reads it, it
is neither the order quantity nor the main units, and no other parameter has its answers there. -/
structure Private (parameters hidden : List Parameter) (key : Key) : Prop where
  dependency : ∀ p ∈ derivedOf parameters, key ∉ p.dependsOn
  parent : ∀ p ∈ parameters, ∀ c, p.conditional = some c → c.parentKey ≠ key
  quantity : key ≠ quantityName
  mainUnits : ∀ p, parameters.find? (·.isMainUnits) = some p → p.key ≠ key
  others : ∀ p ∈ parameters, p ∉ hidden → p.key ≠ key ∧ (p.subName : Key) ≠ key

/-- Two quotes with the same figures. The form values that they show may differ. -/
structure SameFigures (q r : Quote) : Prop where
  breakdown : q.breakdown = r.breakdown
  unitTotal : q.unitTotal = r.unitTotal
  quantity : q.quantity = r.quantity
  mainUnits : q.mainUnits = r.mainUnits
  total : q.total = r.total

section

variable {parameters hidden : List Parameter} {v w m r : FormValues} {q : Quote}
  {currency : Currency}

theorem not_read (hprivate : ∀ key ∈ answerKeys hidden, Private parameters hidden key) :
    ∀ p ∈ derivedOf parameters, ∀ key ∈ p.dependsOn, key ∉ answerKeys hidden :=
  fun p hp key hread hkey => (hprivate key hkey).dependency p hp hread

theorem isVisible_agree (hprivate : ∀ key ∈ answerKeys hidden, Private parameters hidden key)
    (hagree : FormValues.AgreeOff (answerKeys hidden) v w) {p : Parameter} (hp : p ∈ parameters) :
    Form.isVisible p v = Form.isVisible p w :=
  Form.isVisible_congr fun c hc => hagree _ fun hkey => (hprivate _ hkey).parent p hp c hc rfl

theorem seenAlike (hprivate : ∀ key ∈ answerKeys hidden, Private parameters hidden key)
    (hagree : FormValues.AgreeOff (answerKeys hidden) v w)
    (hhidden : ∀ p ∈ hidden, Form.isVisible p v = .ok false) {p : Parameter} (hp : p ∈ parameters) :
    Form.SeenAlike p v w := by
  refine ⟨isVisible_agree hprivate hagree hp, ?_⟩
  by_cases hmem : p ∈ hidden
  · exact .inl (hhidden p hmem)
  · refine .inr ⟨hagree _ fun hkey => ?_, hagree _ fun hkey => ?_⟩
    · exact ((hprivate _ hkey).others p hp hmem).1 rfl
    · exact ((hprivate _ hkey).others p hp hmem).2 rfl

theorem priceForm_agree (hprivate : ∀ key ∈ answerKeys hidden, Private parameters hidden key)
    (hagree : FormValues.AgreeOff (answerKeys hidden) v w)
    (hhidden : ∀ m, resolve parameters v = .ok m →
      ∀ p ∈ hidden, Form.isVisible p m = .ok false)
    (h : priceForm parameters v currency = .ok q) :
    ∃ r, priceForm parameters w currency = .ok r ∧ SameFigures q r := by
  obtain ⟨m, quantity, mainUnits, items, hm, hquantity, hmainUnits, hitems, rfl⟩ :=
    priceForm_eq_ok.mp h
  obtain ⟨m', hm', hagree'⟩ := Derived.resolve_agree (not_read hprivate) hagree hm
  rw [quantityOf_congr (hagree' _ fun hkey => (hprivate _ hkey).quantity rfl)] at hquantity
  rw [mainUnitsOf_congr fun p hp => hagree' _ fun hkey => (hprivate _ hkey).mainUnits p hp rfl]
    at hmainUnits
  rw [mapM_congr fun p hp =>
    itemOf_congr (seenAlike hprivate hagree' (hhidden m hm) hp) currency.symbol] at hitems
  exact ⟨_, priceForm_eq_ok.mpr ⟨m', quantity, mainUnits, items, hm', hquantity, hmainUnits, hitems,
    rfl⟩, ⟨rfl, rfl, rfl, rfl, rfl⟩⟩

end

/-- The answers for hidden parameters make no difference to the figures of a quote, nor to the
messages about the form. -/
theorem hidden_answers_do_not_leak {parameters hidden : List Parameter} {v w : FormValues}
    (code : Value) (hsubset : hidden ⊆ parameters)
    (hprivate : ∀ key ∈ answerKeys hidden, Private parameters hidden key)
    (hagree : FormValues.AgreeOff (answerKeys hidden) v w)
    (hbefore : ∀ p ∈ hidden, Form.isVisible p v = .ok false)
    (hafter : ∀ m, resolve parameters v = .ok m → ∀ p ∈ hidden, Form.isVisible p m = .ok false) :
    SameFigures (quote parameters v code) (quote parameters w code) ∧
      Form.validate parameters v = Form.validate parameters w := by
  have hafter' : ∀ r, resolve parameters w = .ok r →
      ∀ p ∈ hidden, Form.isVisible p r = .ok false := by
    intro r hr p hp
    obtain ⟨m, hm, hsame⟩ := Derived.resolve_agree (not_read hprivate) hagree.symm hr
    rw [isVisible_agree hprivate hsame (hsubset hp)]
    exact hafter m hm p hp
  refine ⟨?_, Form.validate_congr fun p hp => seenAlike hprivate hagree hbefore hp⟩
  unfold quote
  dsimp only
  -- Either both forms have a price or neither has.
  cases hv : priceForm parameters v (Currency.ofCode code) with
  | ok q =>
    obtain ⟨r, hw, hsame⟩ := priceForm_agree hprivate hagree hafter hv
    rw [hw]
    exact hsame
  | error e =>
    cases hw : priceForm parameters w (Currency.ofCode code) with
    | ok r =>
      obtain ⟨q, hv', -⟩ := priceForm_agree hprivate hagree.symm hafter' hw
      rw [hv] at hv'
      cases hv'
    | error e' => exact ⟨rfl, rfl, rfl, rfl, rfl⟩

/-- A folder whose lamination, with its grade, and the setup that is worked out for it are only shown
for covers of film. -/
def folder : List Parameter := [
  { id := "cover", name := "cover", kind := .fixedOption,
    options := [
      { label := "Paper", value := "paper", pricing := { basePrice := some 4 } },
      { label := "Film", value := "film" }] },
  { id := "sheets", name := "sheets", kind := .numericValue, pricing := { unitPrice := some 2 } },
  { id := "lamination", name := "lamination", kind := .fixedOption, required := true,
    options := [
      { label := "Gloss", value := "gloss", pricing := { basePrice := some 9 },
        subOptions := [{ id := "thick", label := "Thick", value := "thick", price := 3 }] }],
    conditional := some ⟨"cover", ["film"]⟩ },
  { id := "setup", name := "setup", kind := .derivedCalc, formula := some "sheets * 5",
    dependencies := ["sheets"], pricing := { unitPrice := some 1 },
    conditional := some ⟨"cover", ["film"]⟩ }]

def lamination : List Parameter := folder.drop 2

def folderPlain : FormValues := ⟨[⟨"cover", .text "paper"⟩, ⟨"sheets", .int 6⟩]⟩

/-- The same answers, with others left over from when lamination was shown. -/
def folderStale : FormValues :=
  ((folderPlain.set "lamination" "gloss").set "lamination_suboption" "thin").set "setup" "many"

theorem folder_keeps_lamination_to_itself :
    ((quote folder folderPlain).total == 16) = true ∧
      SameFigures (quote folder folderPlain) (quote folder folderStale) ∧
      Form.validate folder folderPlain = Form.validate folder folderStale := by
  have hshown : ∀ p ∈ lamination, (Form.isVisible p folderPlain).toOption = some false := by
    decide +kernel
  have hresolved : (resolve folder folderPlain).toOption.any (fun m =>
      lamination.all fun p => (Form.isVisible p m).toOption == some false) = true := by
    decide +kernel
  have hreads : ∀ key ∈ answerKeys lamination, (∀ p ∈ derivedOf folder, key ∉ p.dependsOn) ∧
      (∀ p ∈ folder, p.conditional.all (·.parentKey != key) = true) ∧ key ≠ quantityName ∧
      (∀ p ∈ folder.take 2, p.key ≠ key ∧ (p.subName : Key) ≠ key) := by
    decide +kernel
  have hmain : (folder.find? (·.isMainUnits)).isNone = true := by decide +kernel
  have hsubset : lamination ⊆ folder := List.drop_subset 2 folder
  refine ⟨by decide +kernel, hidden_answers_do_not_leak "USD" hsubset ?_ ?_ ?_ ?_⟩
  · intro key hkey
    obtain ⟨hdependency, hparent, hquantity, hothers⟩ := hreads key hkey
    refine ⟨hdependency, fun p hp c hc => ?_, hquantity, fun p hp => ?_, fun p hp hnot => ?_⟩
    · have hall := hparent p hp
      rw [hc] at hall
      simpa using hall
    · rw [hp] at hmain
      cases hmain
    · rw [← List.take_append_drop 2 folder, List.mem_append] at hp
      exact hothers p (hp.resolve_right hnot)
  · intro key hkey
    unfold folderStale
    rw [FormValues.get?_set, if_neg, FormValues.get?_set, if_neg, FormValues.get?_set, if_neg]
    all_goals
      rintro rfl
      exact hkey (by decide +kernel)
  · exact fun p hp => ok_of_toOption (hshown p hp)
  · intro m hm p hp
    obtain ⟨m', hm', hall⟩ := ok_of_any hresolved
    rw [hm] at hm'
    cases hm'
    exact ok_of_toOption (by simpa using List.all_eq_true.mp hall p hp)

end Quotation.Price
