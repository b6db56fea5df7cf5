import Quotation.Proofs.Schema.Names

/-!
# Loading a schema

Data either has issues, which are reported, or stands for a schema. Whatever is wrong with such a
schema, all that its parameters are called and refer to is text, so it can be checked.
-/

namespace Quotation.Schema

open Derived

variable {parameters : List Parameter}

theorem requireTexts_of_isText {values : List Value} (h : ∀ value ∈ values, value.IsText) :
    requireTexts values = .ok () := by
  induction values with
  | nil => rfl
  | cons value values ih =>
    obtain ⟨⟨s, rfl⟩, hrest⟩ := List.forall_mem_cons.mp h
    exact ih hrest

theorem namesUsed_isText (h : ∀ p ∈ parameters, p.Normal) :
    ∀ name ∈ namesUsed parameters, name.IsText := by
  intro name hname
  simp only [namesUsed, List.mem_append, List.mem_map, List.mem_flatMap, List.mem_filterMap] at hname
  rcases hname with (⟨p, hp, rfl⟩ | ⟨p, hp, hdependency⟩) | ⟨p, hp, hparent⟩
  · exact isText_of_nonEmpty (h p hp).name
  · exact (h p (List.mem_filter.mp hp).1).dependencies name hdependency
  · obtain ⟨c, hc, rfl⟩ := Option.map_eq_some_iff.mp hparent
    exact (h p hp).conditional c hc

theorem namesUsed_isName (h : ∀ p ∈ parameters, p.Normal) :
    ∀ name ∈ namesUsed parameters, name.isName = true :=
  fun name hname => (namesUsed_isText h name hname).isName

theorem severalMainUnits_isText (h : ∀ p ∈ parameters, p.Normal) :
    ∀ names ∈ severalMainUnits parameters, ∀ name ∈ names, name.IsText := by
  intro names hnames name hname
  unfold severalMainUnits at hnames
  dsimp only at hnames
  split at hnames
  · rw [List.mem_singleton.mp hnames] at hname
    obtain ⟨p, hp, rfl⟩ := List.mem_map.mp hname
    exact isText_of_nonEmpty (h p (List.mem_filter.mp hp).1).name
  · cases hnames

theorem cycle_isText (h : ∀ p ∈ parameters, p.Normal) {cycle : List Value}
    (hcycle : cycle ∈ findCycles parameters) : ∀ name ∈ cycle, name.IsText := by
  obtain ⟨first, rest, last, rfl, hlast, -, hknown, -⟩ := isCycle_of_mem_findCycles hcycle
  have htext : ∀ name : Value, name.key ∈ keysOf (derivedOf parameters) → name.IsText := by
    intro name hname
    obtain ⟨p, hp, hkey⟩ := mem_keysOf.mp hname
    obtain ⟨s, hs⟩ := isText_of_nonEmpty (h p (mem_derivedOf.mp hp).1).name
    rw [Parameter.key, hs] at hkey
    exact ⟨s, Value.key_eq_text.mp hkey.symm⟩
  intro name hname
  rcases List.mem_append.mp hname with hname | hname
  · exact htext name (hknown name hname)
  · rw [List.mem_singleton.mp hname]
    exact htext last (hlast ▸ hknown first (List.mem_cons_self ..))

theorem check_total (h : ∀ p ∈ parameters, p.Normal) : ∃ report, check parameters = .ok report := by
  have hnames : requireNames (namesUsed parameters) = .ok () :=
    requireNames_eq_ok.mpr (namesUsed_isName h)
  have htexts : requireTexts (severalMainUnits parameters ++ longCycles parameters).flatten =
      .ok () := by
    refine requireTexts_of_isText fun name hname => ?_
    obtain ⟨names, hnames, hname⟩ := List.mem_flatten.mp hname
    rcases List.mem_append.mp hnames with hnames | hnames
    · exact severalMainUnits_isText h names hnames name hname
    · exact cycle_isText h (List.mem_filter.mp hnames).1 name hname
  rw [check, hnames, ok_bind, htexts]
  exact ⟨_, rfl⟩

/-- Loading fails in one way only: data with issues is refused with them. Any other data stands for
the schema that its items describe, one by one, and this can be checked. -/
theorem loads_and_checks_unless_issues (data name : Value) :
    (∃ issues, Payload.schema.check (ProductSchema.toObject data) = .error issues ∧
      ProductSchema.ofValue data name = .error
        (.invalid (name.orElse (ProductSchema.givenName (ProductSchema.toObject data))) issues)) ∨
    ∃ fields schema report,
      Payload.schema.check (ProductSchema.toObject data) = .ok (.object fields) ∧
      ProductSchema.ofValue data name = .ok schema ∧ ProductSchema.ReadFrom fields schema ∧
      check schema.parameters = .ok report := by
  obtain ⟨fields, schema, hchecked, hread, hfrom, hnormal⟩ | hrefused :=
    ProductSchema.ofValue_cases data name
  · obtain ⟨report, hreport⟩ := check_total hnormal
    exact .inr ⟨fields, schema, report, hchecked, hread, hfrom, hreport⟩
  · exact .inl hrefused

end Quotation.Schema
