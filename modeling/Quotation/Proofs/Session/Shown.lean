import Quotation.Proofs.Derived.Refresh
import Quotation.Proofs.Form.Clearing
import Quotation.Proofs.Number.Display
import Quotation.Proofs.Price.Breakdown
import Quotation.Proofs.Price.Range
import Quotation.Proofs.Session.Run

/-!
# What is shown and what is charged

A session works out derived fields as it goes along, and a quote works out all of them once more.
Both come to the same unless clearing has emptied a derived field that depends on nothing in the form:
an update leaves that field alone, so it stays empty in the session, and the quote fills it in.
-/

namespace Quotation

namespace Derived

/-- An empty derived field that depends on nothing that the form has. -/
def LeftEmpty (p : Parameter) (v : FormValues) : Prop :=
  v.get? p.key = some (.text "") ∧ ∀ key ∈ p.dependsOn, v.get? key = none

/-- Neither the field with a key nor any that it is worked out from is left empty. -/
def NotLeftEmpty (parameters : List Parameter) (v : FormValues) (key : Key) : Prop :=
  ∀ q ∈ parameters, q.isDerived = true →
    Relation.ReflTransGen (Feeds (derivedOf parameters)) q.key key → ¬ LeftEmpty q v

/-- Each computed parameter holds what it comes to, or is left empty. -/
def WorkedOut (parameters : List Parameter) (v : FormValues) : Prop :=
  ∀ p ∈ parameters, isComputed p →
    (∃ text, evaluateDerived p v = .ok text ∧ v.get? p.key = some (.text text)) ∨ LeftEmpty p v

variable {parameters : List Parameter} {p : Parameter} {v w m : FormValues}

theorem evaluateDerived_ne_empty {text : String} (h : evaluateDerived p v = .ok text) :
    text ≠ "" := by
  obtain ⟨bound, hbound, -⟩ := bind_eq_ok.mp h
  rcases (evaluateDerived_eq_ok hbound).mp h with ⟨x, -, rfl⟩ | ⟨e, -, rfl⟩
  · exact Number.plainText_ne_empty x
  · decide

theorem IsResolution.workedOut (h : IsResolution parameters w v) : WorkedOut parameters v :=
  fun p hp hcomputed => .inl (h.computed p hp hcomputed)

theorem WorkedOut.edit (h : WorkedOut parameters v) {name value : Value} {which : Key → Prop}
    (answer : ∀ p ∈ parameters, isComputed p → p.key ≠ name.key)
    (hcleared : FormValues.Emptied which (v.set name value) w)
    (hm : IsRefresh parameters (w.set name value) m) : WorkedOut parameters m := by
  intro p hp hcomputed
  rcases hm.computed p hp hcomputed with hholds | ⟨habsent, hkept⟩
  · exact .inl hholds
  have hne : p.key ≠ name.key := answer p hp hcomputed
  rw [FormValues.get?_set, if_neg hne] at hkept
  rcases hcleared p.key with hsame | ⟨-, -, hempty⟩
  · -- Nothing has happened to it, and what it depends on was absent all along.
    rw [hsame, FormValues.get?_set, if_neg hne] at hkept
    rcases h p hp hcomputed with ⟨text, htext, hget⟩ | ⟨hget, -⟩
    · refine .inl ⟨text, ?_, hkept.trans hget⟩
      rw [← htext]
      refine evaluateDerived_congr fun key hkey => ?_
      have hnone := FormValues.absent_of_set (hm.present key (habsent key hkey))
      rw [habsent key hkey, FormValues.absent_of_set (hcleared.absent hnone)]
    · exact .inr ⟨hkept.trans hget, habsent⟩
  · exact .inr ⟨hkept.trans hempty, habsent⟩

theorem WorkedOut.resolution_get? (h : WorkedOut parameters v) (hsound : Schema.Sound parameters)
    (hm : IsResolution parameters v m) {key : Key} (hnone : NotLeftEmpty parameters v key) :
    m.get? key = v.get? key := by
  induction key using hsound.acyclic.induction with
  | _ key ih =>
    by_cases hcomputed : ∃ p ∈ parameters, isComputed p ∧ p.key = key
    · obtain ⟨p, hp, hcomputed, rfl⟩ := hcomputed
      have hkind := (Bool.and_eq_true_iff.mp hcomputed).1
      have hderived := mem_derivedOf.mpr ⟨hp, hkind⟩
      obtain ⟨text, htext, hget⟩ := (h p hp hcomputed).resolve_right (hnone p hp hkind .refl)
      obtain ⟨other, hother, hgot⟩ := hm.computed p hp hcomputed
      -- What it reads is the same, so it comes to the same.
      have hsame : evaluateDerived p m = evaluateDerived p v := by
        refine evaluateDerived_congr fun key hkey => ?_
        by_cases hmem : key ∈ keysOf (derivedOf parameters)
        · have hfeeds := Feeds.of_dependsOn (nodup_derivedOf hsound.distinct) hderived hmem hkey
          exact ih key hfeeds fun q hq hq' hreads => hnone q hq hq' (hreads.tail hfeeds)
        · refine hm.kept key fun q hq hq' hsame => hmem ?_
          exact hsame ▸ key_mem (mem_derivedOf.mpr ⟨hq, (Bool.and_eq_true_iff.mp hq').1⟩)
      rw [hsame, htext] at hother
      cases hother
      exact hgot.trans hget.symm
    · exact hm.kept key fun p hp hp' hkey => hcomputed ⟨p, hp, hp', hkey⟩

end Derived

namespace Session

open Derived

variable {parameters : List Parameter} {settings : Settings} {s t : Session} {e : Edit}

def putsAnswer (s : Session) : Edit → Bool
  | .value name _ => s.parameters.any fun p => !p.isDerived && p.key == name.key
  | .subOption _ _ => false

structure Steady (settings : Settings) (parameters : List Parameter) (s : Session) : Prop where
  under : s.settings = settings
  about : s.parameters = parameters
  workedOut : WorkedOut parameters s.values

theorem steady_of_start {v : Option FormValues} {currency : Value}
    (hsound : Schema.Sound parameters) (h : start settings parameters v currency = .ok s) :
    Steady settings parameters s := by
  obtain ⟨hsettings, hparameters, hresolve⟩ := start_eq_ok h
  exact ⟨hsettings, hparameters, (hsound.isResolution hresolve).workedOut⟩

theorem Steady.edit (h : Steady settings parameters s) (hsound : Schema.Sound parameters)
    (hnames : Schema.TextNames parameters) (hlimit : 1 ≤ settings.passLimit)
    (hallowed : putsAnswer s e = true) (hmade : s.edit e = .ok t) :
    Steady settings parameters t := by
  cases e with
  | subOption name value => cases hallowed
  | value name value =>
    obtain ⟨q, hq, hanswer⟩ := List.any_eq_true.mp hallowed
    rw [h.about] at hq
    obtain ⟨hkind, hkey⟩ := Bool.and_eq_true_iff.mp hanswer
    obtain rfl : q.name = name := (hnames.name q hq).eq_of_key (beq_iff_eq.mp hkey)
    obtain ⟨cleared, hcleared, hupdate, -⟩ := setValue_eq_ok hmade
    rw [h.about] at hcleared hupdate
    rw [h.under] at hupdate
    have hemptied := Form.clearHiddenChildren_emptied hnames (hnames.name q hq) hcleared
    have hrefresh := isRefresh_of_update hsound.distinct hsound.acyclic hlimit hupdate
    obtain ⟨hsettings, hparameters⟩ := edit_fixed hmade
    refine ⟨hsettings.trans h.under, hparameters.trans h.about, ?_⟩
    refine h.workedOut.edit (fun p hp hcomputed hsame => ?_) hemptied hrefresh
    rw [eq_of_key_eq hsound.distinct hp hq hsame, isComputed, Bool.and_eq_true_iff] at hcomputed
    simp [hcomputed.1] at hkind

theorem quote_values (v : FormValues) (code : Value) :
    (Price.quote parameters v code).values = v ∨
      ∃ m, resolve parameters v = .ok m ∧ (Price.quote parameters v code).values = m := by
  unfold Price.quote
  dsimp only
  split
  · rename_i q hq
    obtain ⟨m, _, _, _, hm, -, -, -, rfl⟩ := Price.priceForm_eq_ok.mp hq
    exact .inr ⟨m, hm, rfl⟩
  · exact .inl rfl

theorem quote_values_of_inRange {v m : FormValues} {code : Value} (hv : v.InRange)
    (hnames : ∀ name ∈ Schema.namesUsed parameters, name.isName = true)
    (hresolve : resolve parameters v = .ok m) : (Price.quote parameters v code).values = m := by
  obtain ⟨q, hq⟩ := Price.priceForm_total hv hnames (Currency.ofCode code)
  obtain ⟨_, _, _, _, hm, -, -, -, rfl⟩ := Price.priceForm_eq_ok.mp hq
  rw [hresolve] at hm
  cases hm
  rw [Price.quote, hq]

/-- Whatever answers were put in, a derived field of a session is that of its quote if neither this
field nor any that it is worked out from is left empty. In a form that can be priced a field that is
left empty never is. -/
theorem shown_as_charged {data name : Value} {schema : ProductSchema} {report : Schema.Report}
    {v : Option FormValues} {currency : Value} {edits : List Edit}
    (hschema : ProductSchema.ofValue data name = .ok schema)
    (hcheck : Schema.check schema.parameters = .ok report) (valid : report.valid = true)
    (hlimit : 1 ≤ settings.passLimit)
    (hstart : start settings schema.parameters v currency = .ok s)
    (hrun : s.run putsAnswer edits = some t) :
    (∀ p ∈ schema.parameters, p.isDerived = true →
      NotLeftEmpty schema.parameters t.values p.key →
      t.values.get? p.key = t.quote.values.get? p.key) ∧
    (t.values.InRange → ∀ p ∈ schema.parameters, p.isDerived = true →
      t.values.get? p.key = t.quote.values.get? p.key → ¬ LeftEmpty p t.values) := by
  have hsound := Schema.sound_of_valid hcheck valid
  have hsteady : Steady settings schema.parameters t :=
    run_induction (fun s e t h => h.edit hsound (Schema.textNames_of_ofValue hschema) hlimit) hrun
      (steady_of_start hsound hstart)
  rw [quote, Settings.quote, hsteady.about]
  constructor
  · intro p hp hkind hnone
    rcases quote_values t.values (t.currency.orElse (.text t.settings.currencyCode)) with
      hvalues | ⟨m, hresolve, hvalues⟩
    · rw [hvalues]
    · rw [hvalues]
      exact (hsteady.workedOut.resolution_get? hsound (hsound.isResolution hresolve) hnone).symm
  · intro hrange p hp hkind hsame hempty
    have hused := requireNames_eq_ok.mp (Schema.errors_of_valid hcheck valid).1
    obtain ⟨m, hresolve, -⟩ := resolve_total hrange hsound.names
    obtain ⟨text, htext, hget⟩ :=
      (hsound.isResolution hresolve).computed p hp (hsound.isComputed hp hkind)
    rw [quote_values_of_inRange hrange hused hresolve, hget, hempty.1] at hsame
    cases hsame
    exact evaluateDerived_ne_empty htext rfl

/-- A form in two modes. The setup fee that is worked out is shown in one of them. -/
def setupData (formula : String) (dependencies : List Value) : Value := .list [
  .object [
    ("name", "mode"), ("type", "FixedOption"), ("options", .list [
      .object [("label", "Plain"), ("value", "a")], .object [("label", "Other"), ("value", "b")]])],
  .object [("name", "hours"), ("type", "NumericValue")],
  .object [
    ("name", "setup"), ("type", "DerivedCalc"), ("formula", .text formula),
    ("dependencies", .list dependencies), ("pricing", .object [("unit_price", .int 2)]),
    ("conditional", .object [("parentParameter", "mode"), ("showWhen", .list ["a"])])]]

def setupEdits : List Edit := [.value "mode" "a", .value "mode" "b", .value "mode" "a"]

/-- A fee by the hour comes back when it is shown again. -/
theorem hourly_setup_shown : ∃ parameters t,
    onData putsAnswer (setupData "hours * 5" ["hours"]) (.value "hours" "3" :: setupEdits) =
      some (parameters, t) ∧
    (holds t.values "setup" "15" && holds t.quote.values "setup" "15") = true ∧
    (∀ p ∈ parameters, p.isDerived = true → NotLeftEmpty parameters t.values p.key →
      t.values.get? p.key = t.quote.values.get? p.key) ∧
    (t.values.InRange → ∀ p ∈ parameters, p.isDerived = true →
      t.values.get? p.key = t.quote.values.get? p.key → ¬ LeftEmpty p t.values) := by
  have hplayed : (onData putsAnswer (setupData "hours * 5" ["hours"])
      (.value "hours" "3" :: setupEdits)).any (fun (_, t) =>
        holds t.values "setup" "15" && holds t.quote.values "setup" "15") = true := by
    decide +kernel
  obtain ⟨parameters, t, hplay, hfee⟩ := onData_of_any hplayed
  obtain ⟨schema, report, s, hschema, rfl, hcheck, hvalid, hstart, hrun⟩ := onData_eq_some hplay
  exact ⟨schema.parameters, t, hplay, hfee,
    shown_as_charged hschema hcheck hvalid (by decide) hstart hrun⟩

/-- A fixed fee is left empty when it is shown again, and charged all the same. -/
theorem fixed_setup_charged_unseen : ∃ parameters t,
    onData putsAnswer (setupData "5" []) setupEdits = some (parameters, t) ∧
      ∃ p ∈ parameters, p.isDerived = true ∧ Form.isVisible p t.values = .ok true ∧
        t.values.get? p.key = some (.text "") ∧ t.quote.values.get? p.key = some (.text "5") := by
  have hplayed : (onData putsAnswer (setupData "5" []) setupEdits).any (fun (parameters, t) =>
      parameters.any fun p => p.isDerived && (Form.isVisible p t.values).toOption == some true &&
        holds t.values p.key "" && holds t.quote.values p.key "5") = true := by
    decide +kernel
  obtain ⟨parameters, t, hplay, hfee⟩ := onData_of_any hplayed
  obtain ⟨p, hp, hfee⟩ := List.any_eq_true.mp hfee
  simp only [Bool.and_eq_true, beq_iff_eq] at hfee
  obtain ⟨⟨⟨hkind, hvisible⟩, hshown⟩, hcharged⟩ := hfee
  exact ⟨parameters, t, hplay, p, hp, hkind, ok_of_toOption hvisible, holds_iff.mp hshown,
    holds_iff.mp hcharged⟩

end Session

end Quotation
