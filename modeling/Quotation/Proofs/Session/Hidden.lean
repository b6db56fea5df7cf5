import Quotation.Proofs.Derived.Refresh
import Quotation.Proofs.Form.Clearing
import Quotation.Proofs.Session.Run

/-!
# What hidden fields hold

In a session that was opened without values the edits of shown fields leave no answer behind in a
hidden one, as far as answers show each other. Derived fields are worked out when all clearing is
done, so that what they hide keeps its answers. The order quantity is filled in from the start,
shown or not.
-/

namespace Quotation

open Derived

namespace Form

/-! ## Circles of conditions -/

def ShownByDerived (parameters : List Parameter) (p : Parameter) : Prop :=
  ∃ c, p.conditional = some c ∧ ∃ q ∈ parameters, q.isDerived = true ∧ q.key = c.parentKey

section

variable {parameters : List Parameter} {p q : Parameter} {v w : FormValues} {c : Conditional}

theorem Looped.parent (h : Looped parameters p.key) (distinct : (keysOf parameters).Nodup)
    (hp : p ∈ parameters) (hc : p.conditional = some c) : Looped parameters c.parentKey := by
  obtain ⟨parent, hreach, hlast⟩ := Relation.TransGen.tail'_iff.mp h
  obtain ⟨c', hc', rfl⟩ := parent_of_childOf distinct hp hlast
  rw [hc] at hc'
  cases hc'
  exact .head' hlast hreach

theorem Tidy.congr (h : Tidy p v) (hc : p.conditional = some c)
    (hparent : w.get? c.parentKey = v.get? c.parentKey) (hvalue : w.get? p.key = v.get? p.key)
    (hsub : w.get? (p.subName : Key) = v.get? (p.subName : Key)) : Tidy p w := by
  intro hhidden
  rw [isVisible_of_parent hc hparent] at hhidden
  rw [FormValues.get_congr hvalue, FormValues.get_congr hsub]
  exact h hhidden

theorem tidy_of_unconditional (hc : p.conditional = none) (v : FormValues) : Tidy p v := by
  intro hhidden
  rw [isVisible, hc] at hhidden
  cases hhidden

theorem parent_filled (hc : p.conditional = some c) (h : isVisible p v = .ok true) :
    v.get c.parentKey ≠ .null := by
  intro hnull
  rw [isVisible, hc] at h
  obtain ⟨value, hread, h⟩ := bind_eq_ok.mp h
  rw [FormValues.read] at hread
  split at hread
  · have hvalue : v.get c.parent.key = value := Except.ok.inj hread
    rw [← hvalue, show v.get c.parent.key = .null from hnull] at h
    cases h
  · cases hread

/-! ## What edits keep -/

/-- Names are text and different, also from those of sub-options, and what shows a parameter is a
parameter. -/
structure Orderly (parameters : List Parameter) : Prop where
  distinct : (keysOf parameters).Nodup
  names : Schema.TextNames parameters
  known : ∀ p ∈ parameters, ∀ c, p.conditional = some c → c.parentKey ∈ keysOf parameters
  apart : ∀ p ∈ parameters, ∀ q ∈ parameters, p.key ≠ (q.subName : Key)

/-- The way up from a field, from parent to parent, does not run into a circle that holds the order
quantity or a field that a derived one shows. -/
def Uncircled (parameters : List Parameter) (key : Key) : Prop :=
  ∀ a ∈ parameters, a.isDerived = false → Relation.ReflTransGen (ChildOf parameters) a.key key →
    a.key = (quantityName : Key) ∨ ShownByDerived parameters a → ¬ Looped parameters a.key

/-- A field to fill in, other than the order quantity, that no derived one shows. -/
structure Answered (parameters : List Parameter) (p : Parameter) : Prop where
  mem : p ∈ parameters
  kind : p.isDerived = false
  notQuantity : p.key ≠ (quantityName : Key)
  notShownByDerived : ¬ ShownByDerived parameters p
  uncircled : Uncircled parameters p.key

/-- The field is shown or blank, and what is filled in on the way up from it is in no circle. -/
structure Neat (parameters : List Parameter) (p : Parameter) (v : FormValues) : Prop where
  unlooped : ∀ a ∈ parameters, a.isDerived = false →
    Relation.ReflTransGen (ChildOf parameters) a.key p.key → v.get a.key ≠ .null →
    ¬ Looped parameters a.key
  tidy : Tidy p v

variable {m : FormValues} {value : Value}

theorem Orderly.key_ne_computed (h : Orderly parameters) (hp : p ∈ parameters)
    (hkind : p.isDerived = false) : ∀ r ∈ parameters, isComputed r → r.key ≠ p.key := by
  intro r hr hcomputed hkey
  rw [eq_of_key_eq h.distinct hr hp hkey, isComputed, hkind] at hcomputed
  cases hcomputed

theorem Orderly.subName_ne_computed (h : Orderly parameters) (hp : p ∈ parameters) :
    ∀ r ∈ parameters, isComputed r → r.key ≠ (p.subName : Key) :=
  fun r hr _ => h.apart r hr p hp

theorem Neat.not_looped (hv : Neat parameters p v) (h : Orderly parameters)
    (hp : Answered parameters p) (hq : q ∈ parameters) (hkind : q.isDerived = false)
    (hvisible : isVisible q v = .ok true)
    (habove : Relation.ReflTransGen (ChildOf parameters) q.key p.key) :
    ¬ Looped parameters q.key := by
  cases hc : q.conditional with
  | none => exact not_looped_of_unconditional h.distinct hq hc
  | some c =>
    obtain ⟨r, hr, hkey⟩ := mem_keysOf.mp (h.known q hq c hc)
    cases hrkind : r.isDerived with
    | true => exact hp.uncircled q hq hkind habove (.inr ⟨c, hc, r, hr, hrkind, hkey⟩)
    | false =>
      have hfilled := parent_filled hc hvisible
      have hchild : ChildOf parameters r.key q.key := ⟨q, hq, rfl, c, hc, hkey.symm⟩
      intro hloop
      refine hv.unlooped r hr hrkind (.head hchild habove) (hkey ▸ hfilled) ?_
      rw [hkey]
      exact hloop.parent h.distinct hq hc

theorem Orderly.not_beneath (h : Orderly parameters) (hq : q ∈ parameters)
    (hloop : ¬ Looped parameters q.key) : ¬ Beneath parameters q.key q.key := by
  rintro ⟨p, hp, hreach, hkey | hsub⟩
  · exact hloop (hkey ▸ hreach)
  · exact h.apart q hq p hp hsub

theorem Orderly.answer_above (h : Orderly parameters) (hp : Answered parameters p)
    (hc : p.conditional = some c) : ∃ r ∈ parameters, r.isDerived = false ∧ r.key = c.parentKey := by
  obtain ⟨r, hr, hkey⟩ := mem_keysOf.mp (h.known p hp.mem c hc)
  refine ⟨r, hr, ?_, hkey⟩
  cases hkind : r.isDerived with
  | false => rfl
  | true => exact absurd ⟨c, hc, r, hr, hkind, hkey⟩ hp.notShownByDerived

theorem Neat.tidy_cleared (hv : Neat parameters p v) (h : Orderly parameters)
    (hp : Answered parameters p) (hq : q ∈ parameters) (hvisible : isVisible q v = .ok true)
    (hcleared : clearHiddenChildren q.name parameters (v.set q.name value) = .ok w) :
    Tidy p w := by
  cases hc : p.conditional with
  | none => exact tidy_of_unconditional hc w
  | some c =>
    obtain ⟨r, hr, -, hkey⟩ := h.answer_above hp hc
    by_cases hchanged : c.parentKey = q.key ∨
        w.get? c.parentKey ≠ (v.set q.name value).get? c.parentKey
    · exact tidy_of_clearHiddenChildren h.names (h.names.name q hq) hcleared hp.mem hc
        (fun q hq => hkey ▸ h.apart r hr q hq) hchanged
    · -- Nothing has happened to its parent, so it was hidden and blank before.
      obtain ⟨hother, hsame⟩ := not_or.mp hchanged
      have hparent : w.get? c.parentKey = v.get? c.parentKey :=
        (not_not.mp hsame).trans (v.get?_set_of_ne value hother)
      intro hhidden
      rw [isVisible_of_parent hc hparent] at hhidden
      have hpq : p.key ≠ q.key := by
        intro hpq
        rw [eq_of_key_eq h.distinct hp.mem hq hpq, hvisible] at hhidden
        cases hhidden
      have hsub : (p.subName : Key) ≠ q.key := (h.apart q hq p hp.mem).symm
      have hemptied := clearHiddenChildren_emptied h.names (h.names.name q hq) hcleared
      obtain ⟨hvalue, hchoice⟩ := hv.tidy hhidden
      rw [← FormValues.get_congr (v.get?_set_of_ne value hpq)] at hvalue
      rw [← FormValues.get_congr (v.get?_set_of_ne value hsub)] at hchoice
      exact ⟨hemptied.isBlank hvalue, hemptied.isBlank hchoice⟩

/-- An answer is put in again after clearing. On the way up this does nothing, for clearing does not
come back to the field that was set; elsewhere it does not reach the field. -/
theorem Neat.set_cleared (hv : Neat parameters p v) (h : Orderly parameters)
    (hp : Answered parameters p) (hq : q ∈ parameters) (hkind : q.isDerived = false)
    (hvisible : isVisible q v = .ok true)
    (hcleared : clearHiddenChildren q.name parameters (v.set q.name value) = .ok w) (key : Key)
    (hkey : key = q.key → Relation.ReflTransGen (ChildOf parameters) q.key p.key) :
    (w.set q.name value).get? key = w.get? key := by
  by_cases hsame : key = q.key
  · have hloop := hv.not_looped h hp hq hkind hvisible (hkey hsame)
    have hemptied := clearHiddenChildren_emptied h.names (h.names.name q hq) hcleared
    have hset : w.get? q.name.key = some value :=
      (hemptied.get?_of_not (h.not_beneath hq hloop)).trans (v.get?_set_self q.name value)
    rw [FormValues.set_eq_self hset]
  · exact w.get?_set_of_ne value hsame

theorem Neat.setValue (hv : Neat parameters p v) (h : Orderly parameters)
    (hp : Answered parameters p) (hq : q ∈ parameters) (hkind : q.isDerived = false)
    (hvisible : isVisible q v = .ok true)
    (hcleared : clearHiddenChildren q.name parameters (v.set q.name value) = .ok w)
    (hm : ∀ key, (∀ p ∈ parameters, isComputed p → p.key ≠ key) →
      m.get? key = (w.set q.name value).get? key) : Neat parameters p m := by
  have hagain := hv.set_cleared h hp hq hkind hvisible hcleared
  refine ⟨fun a ha hakind habove hfilled => ?_, ?_⟩
  · by_cases haq : a.key = q.key
    · rw [haq]
      exact hv.not_looped h hp hq hkind hvisible (haq ▸ habove)
    · refine hv.unlooped a ha hakind habove fun hnull => hfilled ?_
      rw [← FormValues.get_congr (v.get?_set_of_ne value haq)] at hnull
      rw [FormValues.get_congr (hm a.key (h.key_ne_computed ha hakind)),
        FormValues.get_congr (hagain a.key fun hsame => absurd hsame haq)]
      have hemptied := clearHiddenChildren_emptied h.names (h.names.name q hq) hcleared
      rcases hemptied a.key with hsame | ⟨-, hnotblank, -⟩
      · rw [FormValues.get_congr hsame, hnull]
      · rw [hnull] at hnotblank
        cases hnotblank
  · have htidy := hv.tidy_cleared h hp hq hvisible hcleared
    cases hc : p.conditional with
    | none => exact tidy_of_unconditional hc m
    | some c =>
      obtain ⟨r, hr, hrkind, hkey⟩ := h.answer_above hp hc
      refine htidy.congr hc ?_ ?_ ?_
      · rw [← hkey, hm r.key (h.key_ne_computed hr hrkind)]
        exact hagain r.key fun hsame => .single ⟨p, hp.mem, rfl, c, hc, hkey ▸ hsame⟩
      · rw [hm p.key (h.key_ne_computed hp.mem hp.kind)]
        exact hagain p.key fun hsame => hsame ▸ .refl
      · rw [hm p.subName (h.subName_ne_computed hp.mem)]
        exact hagain p.subName fun hsame => absurd hsame.symm (h.apart q hq p hp.mem)

theorem Neat.setSubOption (hv : Neat parameters p v) (h : Orderly parameters)
    (hp : Answered parameters p) (hq : q ∈ parameters) (hvisible : isVisible q v = .ok true) :
    Neat parameters p (v.set q.subName value) := by
  have hkept : ∀ a ∈ parameters, (v.set q.subName value).get? a.key = v.get? a.key :=
    fun a ha => v.get?_set_of_ne value (h.apart a ha q hq)
  refine ⟨fun a ha hakind habove hfilled => ?_, ?_⟩
  · rw [FormValues.get_congr (hkept a ha)] at hfilled
    exact hv.unlooped a ha hakind habove hfilled
  · cases hc : p.conditional with
    | none => exact tidy_of_unconditional hc _
    | some c =>
      obtain ⟨r, hr, hkey⟩ := mem_keysOf.mp (h.known p hp.mem c hc)
      intro hhidden
      rw [isVisible_of_parent hc (hkey ▸ hkept r hr)] at hhidden
      have hsub : (p.subName : Key) ≠ Value.key q.subName := by
        intro hsame
        have hkeys := Schema.key_of_subName (h.names.name p hp.mem) (h.names.name q hq)
          (Key.text.inj hsame)
        rw [eq_of_key_eq h.distinct hp.mem hq hkeys, hvisible] at hhidden
        cases hhidden
      rw [FormValues.get_congr (hkept p hp.mem),
        FormValues.get_congr (v.get?_set_of_ne value hsub)]
      exact hv.tidy hhidden

theorem neat_firstValues (h : Orderly parameters) (hp : Answered parameters p)
    (hm : ∀ key, (∀ p ∈ parameters, isComputed p → p.key ≠ key) →
      m.get? key = Settings.firstValues.get? key) : Neat parameters p m := by
  have hnull : ∀ key, key ≠ (quantityName : Key) → Settings.firstValues.get key = .null := by
    intro key hkey
    rw [FormValues.get, Settings.firstValues, FormValues.get?_set_of_ne _ _ hkey]
    rfl
  refine ⟨fun a ha hakind habove hfilled => ?_, fun _ => ?_⟩
  · rw [FormValues.get_congr (hm a.key (h.key_ne_computed ha hakind))] at hfilled
    refine hp.uncircled a ha hakind habove (.inl ?_)
    by_contra hquantity
    exact hfilled (hnull a.key hquantity)
  · have hsub : (p.subName : Key) ≠ (quantityName : Key) :=
      fun hsame => Schema.subName_ne_quantity p (Key.text.inj hsame)
    rw [FormValues.get_congr (hm p.key (h.key_ne_computed hp.mem hp.kind)),
      FormValues.get_congr (hm p.subName (h.subName_ne_computed hp.mem)),
      hnull _ hp.notQuantity, hnull _ hsub]
    exact ⟨rfl, rfl⟩

end

end Form

namespace Session

open Form

variable {parameters : List Parameter} {settings : Settings} {s t : Session} {e : Edit}

def editsShown (s : Session) (e : Edit) : Bool :=
  s.parameters.any fun p => !p.isDerived && p.key == e.name.key &&
    (isVisible p s.values).toOption == some true

theorem editsShown_iff : editsShown s e = true ↔ ∃ p ∈ s.parameters,
    p.isDerived = false ∧ p.key = e.name.key ∧ isVisible p s.values = .ok true := by
  simp only [editsShown, List.any_eq_true, Bool.and_eq_true, Bool.not_eq_true', beq_iff_eq,
    and_assoc]
  refine exists_congr fun p => and_congr_right fun _ => and_congr_right fun _ =>
    and_congr_right fun _ => ⟨ok_of_toOption, fun h => ?_⟩
  rw [h]
  rfl

theorem neat_of_start {currency : Value} (h : Orderly parameters) (hp : Answered parameters p)
    (hstart : start settings parameters none currency = .ok s) :
    s.parameters = parameters ∧ Neat parameters p s.values := by
  obtain ⟨-, hparameters, hresolve⟩ := start_eq_ok hstart
  exact ⟨hparameters, neat_firstValues h hp fun key => resolve_kept hresolve⟩

theorem neat_of_edit (h : Orderly parameters) (hp : Answered parameters p)
    (hs : s.parameters = parameters ∧ Neat parameters p s.values)
    (hallowed : editsShown s e = true) (hmade : s.edit e = .ok t) :
    t.parameters = parameters ∧ Neat parameters p t.values := by
  obtain ⟨habout, hneat⟩ := hs
  obtain ⟨q, hq, hkind, hkey, hvisible⟩ := editsShown_iff.mp hallowed
  rw [habout] at hq
  have hname : q.name = e.name := (h.names.name q hq).eq_of_key hkey
  refine ⟨(edit_fixed hmade).2.trans habout, ?_⟩
  cases e with
  | value name value =>
    obtain ⟨cleared, hcleared, hupdate, -⟩ := setValue_eq_ok hmade
    rw [habout] at hcleared hupdate
    obtain rfl : q.name = name := hname
    exact hneat.setValue h hp hq hkind hvisible hcleared fun key => update_kept hupdate
  | subOption name value =>
    cases hmade
    obtain rfl : q.name = name := hname
    exact hneat.setSubOption h hp hq hvisible

/-- However shown fields are edited, a hidden field that an answer decides on is blank, and so is its
sub-option, as long as its way up is uncircled. -/
theorem hidden_answers_are_blank {data name : Value} {schema : ProductSchema}
    {report : Schema.Report} {currency : Value} {edits : List Edit}
    (hschema : ProductSchema.ofValue data name = .ok schema)
    (hcheck : Schema.check schema.parameters = .ok report) (valid : report.valid = true)
    (apart : ∀ p ∈ schema.parameters, ∀ q ∈ schema.parameters, p.key ≠ (q.subName : Key))
    (hstart : start settings schema.parameters none currency = .ok s)
    (hrun : s.run editsShown edits = some t) :
    ∀ p ∈ schema.parameters, p.isDerived = false → p.key ≠ (quantityName : Key) →
      ¬ ShownByDerived schema.parameters p → Uncircled schema.parameters p.key →
      isVisible p t.values = .ok false →
      (t.values.get p.key).isBlank = true ∧ (t.values.get (p.subName : Key)).isBlank = true := by
  intro p hp hkind hquantity hshown huncircled
  have horderly : Orderly schema.parameters :=
    { distinct := (Schema.sound_of_valid hcheck valid).distinct
      names := Schema.textNames_of_ofValue hschema
      known := fun p hp c => Schema.parent_of_errors (Schema.errors_of_valid hcheck valid).2 hp
      apart }
  have hanswered : Answered schema.parameters p := ⟨hp, hkind, hquantity, hshown, huncircled⟩
  have hneat := run_induction (fun s e t => neat_of_edit horderly hanswered) hrun
    (neat_of_start horderly hanswered hstart)
  exact hneat.2.tidy

/-- A picture. The frame is shown for one area, coats are shown for a coating, and the coating for
one paper. -/
def pictureData : Value := .list [
  .object [("name", "w"), ("type", "NumericValue")],
  .object [
    ("name", "area"), ("type", "DerivedCalc"), ("formula", "w * w"),
    ("dependencies", .list ["w"])],
  .object [
    ("name", "frame"), ("type", "NumericValue"),
    ("conditional", .object [("parentParameter", "area"), ("showWhen", .list ["4"])])],
  .object [
    ("name", "paper"), ("type", "FixedOption"), ("options", .list [
      .object [("label", "Matte"), ("value", "matte")],
      .object [("label", "Gloss"), ("value", "gloss")]])],
  .object [
    ("name", "coating"), ("type", "FixedOption"), ("options", .list [
      .object [("label", "Varnish"), ("value", "varnish"), ("subOptions", .list [
        .object [("label", "Thick"), ("value", "thick")]])]]),
    ("conditional", .object [("parentParameter", "paper"), ("showWhen", .list ["gloss"])])],
  .object [
    ("name", "coats"), ("type", "NumericValue"),
    ("conditional", .object [("parentParameter", "coating"), ("showWhen", .list ["varnish"])])]]

def coatingEdits : List Edit := [
  .value "paper" "gloss", .value "coating" "varnish", .subOption "coating" "thick",
  .value "coats" "2", .value "paper" "matte"]

theorem picture_clears_coats : ∃ parameters t,
    onData editsShown pictureData coatingEdits = some (parameters, t) ∧
      (parameters.filter fun p => (isVisible p t.values).toOption == some false).map (·.key) =
        ["frame", "coating", "coats"] ∧
      ∀ p ∈ parameters, p.isDerived = false → p.key ≠ (quantityName : Key) →
        ¬ ShownByDerived parameters p → isVisible p t.values = .ok false →
        (t.values.get p.key).isBlank = true ∧ (t.values.get (p.subName : Key)).isBlank = true := by
  have hplayed : (onData editsShown pictureData coatingEdits).any (fun (parameters, t) =>
      decide ((parameters.filter fun p =>
          (isVisible p t.values).toOption == some false).map (·.key) =
            ["frame", "coating", "coats"]) &&
        (parameters.all fun p => p.key != (quantityName : Key) &&
          (!p.isDerived || p.conditional.isNone) &&
          parameters.all fun q => p.key != (q.subName : Key))) = true := by
    decide +kernel
  obtain ⟨parameters, t, hplay, htest⟩ := onData_of_any hplayed
  obtain ⟨hhidden, htest⟩ := Bool.and_eq_true_iff.mp htest
  simp only [List.all_eq_true, Bool.and_eq_true, bne_iff_ne] at htest
  obtain ⟨schema, report, s, hschema, rfl, hcheck, hvalid, hstart, hrun⟩ := onData_eq_some hplay
  have hdistinct := (Schema.sound_of_valid hcheck hvalid).distinct
  refine ⟨schema.parameters, t, hplay, of_decide_eq_true hhidden,
    fun p hp hkind hquantity hshown => hidden_answers_are_blank hschema hcheck hvalid
      (fun p hp => (htest p hp).2) hstart hrun p hp hkind hquantity hshown ?_⟩
  -- What is shown by the area could only help to show itself if the area were shown by something.
  rintro p hp - - (hquantity | ⟨c, hc, q, hq, hderived, hkey⟩) hloop
  · exact (htest p hp).1.1 hquantity
  · have hplain : q.conditional = none := by simpa [hderived] using (htest q hq).1.2
    refine not_looped_of_unconditional hdistinct hq hplain ?_
    rw [hkey]
    exact hloop.parent hdistinct hp hc

/-- A frame is ordered for one width and kept, out of sight, for another. -/
theorem picture_keeps_hidden_frame : ∃ parameters t,
    onData editsShown pictureData
        [.value "w" "2", .value "frame" "7", .value "w" "3"] = some (parameters, t) ∧
      (∀ p ∈ parameters, ∀ q ∈ parameters, p.key ≠ (q.subName : Key)) ∧
      ∃ p ∈ parameters, p.isDerived = false ∧ p.key = ("frame" : Key) ∧
        isVisible p t.values = .ok false ∧ t.values.get? p.key = some (.text "7") := by
  have hplayed : (onData editsShown pictureData
      [.value "w" "2", .value "frame" "7", .value "w" "3"]).any (fun (parameters, t) =>
        (parameters.all fun p => parameters.all fun q => p.key != (q.subName : Key)) &&
          parameters.any fun p => !p.isDerived && p.key == ("frame" : Key) &&
            (isVisible p t.values).toOption == some false && holds t.values p.key "7") = true := by
    decide +kernel
  obtain ⟨parameters, t, hplay, htest⟩ := onData_of_any hplayed
  obtain ⟨hapart, hframe⟩ := Bool.and_eq_true_iff.mp htest
  simp only [List.all_eq_true, bne_iff_ne] at hapart
  obtain ⟨p, hp, hframe⟩ := List.any_eq_true.mp hframe
  simp only [Bool.and_eq_true, beq_iff_eq, Bool.not_eq_true'] at hframe
  obtain ⟨⟨⟨hkind, hkey⟩, hhidden⟩, hheld⟩ := hframe
  exact ⟨parameters, t, hplay, hapart, p, hp, hkind, hkey, ok_of_toOption hhidden,
    holds_iff.mp hheld⟩

end Session

end Quotation
