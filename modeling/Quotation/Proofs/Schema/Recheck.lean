import Quotation.Proofs.Schema.Shape

/-!
# Checking a value again

A value in exact form passes the check of its shape unchanged, if records tell their fields apart and
what may be left out of a record stands for itself. The same holds of a record whose fields stand in
another order, or are missing where their default is meant.
-/

namespace Quotation

/-! ## Shapes that keep what they check -/

def Shape.admitsNull : Shape → Bool
  | .optional _ => true
  | _ => false

mutual

/-- A record keeps its fields if no key stands for two of them, and if a field that may hold nothing
holds nothing when it is missing. -/
def Shape.isFaithful : Shape → Bool
  | .optional shape => shape.isFaithful
  | .list item => item.isFaithful
  | .record fields =>
    decide ((fields.map (·.key)).Nodup ∧
      ∀ field ∈ fields, ∀ other ∈ field.otherKey, other ∉ fields.map (·.key)) &&
    Shape.areFaithful fields
  | _ => true

def Shape.areFaithful : List FieldShape → Bool
  | [] => true
  | field :: fields => Shape.isFaithfulField field && Shape.areFaithful fields

def Shape.isFaithfulField : FieldShape → Bool
  | ⟨_, _, default, shape⟩ => (!shape.admitsNull || default matches some .null) && shape.isFaithful

end

def Shape.fields : Shape → List FieldShape
  | .record fields => fields
  | _ => []

def FieldShape.valueIn (field : FieldShape) (given : List (String × Value)) : Value :=
  fieldOr given field.key (field.default.getD .null)

theorem Shape.admitsNull_of_check {shape : Shape} {checked : Value}
    (h : shape.check .null = .ok checked) : shape.admitsNull = true := by
  cases shape with
  | optional shape => rfl
  | _ => cases h

theorem Shape.admitsNull_of_exact {shape : Shape} (h : shape.Exact .null) :
    shape.admitsNull = true := by
  cases shape with
  | optional shape => rfl
  | _ => simp [Shape.Exact, Value.IsText] at h

theorem FieldShape.default_of_faithful {field : FieldShape}
    (faithful : Shape.isFaithfulField field = true) (h : field.shape.admitsNull = true) :
    field.default = some .null := by
  obtain ⟨key, otherKey, default, shape⟩ := field
  simp only [Shape.isFaithfulField, h, Bool.not_true, Bool.false_or, Bool.and_eq_true] at faithful
  cases default with
  | none => simp at faithful
  | some value =>
    cases value with
    | null => rfl
    | _ => simp at faithful

theorem FieldShape.valueIn_of_exact {field : FieldShape} {given : List (String × Value)}
    (faithful : Shape.isFaithfulField field = true) (h : field.shape.Exact (fieldOf given field.key)) :
    field.valueIn given = fieldOf given field.key := by
  rw [FieldShape.valueIn, fieldOf, fieldOr, fieldOr]
  rw [fieldOf, fieldOr] at h
  cases hlookup : given.lookup field.key with
  | some value => rfl
  | none =>
    rw [hlookup] at h
    rw [field.default_of_faithful faithful (Shape.admitsNull_of_exact h)]
    rfl

/-! ## The check of exact values -/

theorem Checked.all_ok {α : Type} (values : List α) :
    Checked.all (values.map .ok) = .ok values := by
  induction values with
  | nil => rfl
  | cons value values ih =>
    rw [List.map_cons, Checked.all, ih]
    rfl

theorem Shape.check_record {fields : List FieldShape} {given entries : List (String × Value)}
    (h : Shape.checkFields fields given = entries.map .ok) :
    (Shape.record fields).check (.object given) = .ok (.object (withoutNulls entries)) := by
  rw [Shape.check, h, Checked.all_ok]
  rfl

theorem Shape.check_list {item : Shape} {values checked : List Value}
    (h : List.Forall₂ (fun value c => item.check value = .ok c) values checked) :
    (Shape.list item).check (.list values) = .ok (.list checked) := by
  have hitems : (values.mapIdx fun i value => (item.check value).inside (.item i)) =
      checked.map .ok := by
    refine List.ext_getElem (by simpa using h.length_eq) fun i hi hi' => ?_
    simp only [List.getElem_mapIdx, List.getElem_map]
    exact Checked.inside_eq_ok.mpr (h.get _ _)
  rw [Shape.check, hitems, Checked.all_ok]
  rfl

theorem Shape.checkField_of_check {field : FieldShape} {given : List (String × Value)}
    {checked : Value} (faithful : Shape.isFaithfulField field = true)
    (hother : ∀ other ∈ field.otherKey, given.lookup other = none)
    (h : field.shape.check (field.valueIn given) = .ok checked) :
    Shape.checkField field given = .ok (field.key, checked) := by
  have hdefault := field.default_of_faithful faithful
  obtain ⟨key, otherKey, default, shape⟩ := field
  have hsecond : otherKey.bind (givenField? given) = none :=
    Option.bind_eq_none_iff.mpr fun other hmem => by rw [givenField?, hother other hmem]; rfl
  rw [FieldShape.valueIn, fieldOr] at h
  rw [Shape.checkField, fieldOrDefault, givenField?, hsecond, Option.none_or]
  cases hlookup : given.lookup key with
  | some value =>
    rw [hlookup] at h
    exact Checked.map_eq_ok.mpr ⟨checked, Checked.inside_eq_ok.mpr h, rfl⟩
  | none =>
    rw [hlookup] at h
    cases default with
    | some value => exact Checked.map_eq_ok.mpr ⟨checked, Checked.inside_eq_ok.mpr h, rfl⟩
    | none => cases hdefault (Shape.admitsNull_of_check h)

theorem Shape.ExactFields.valuesIn {fields : List FieldShape} {given entries : List (String × Value)}
    (faithful : Shape.areFaithful fields = true) (h : Shape.ExactFields fields entries)
    (hvalues : ∀ entry ∈ entries, fieldOf given entry.1 = entry.2) :
    fields.map (·.valueIn given) = entries.map (·.2) := by
  induction fields generalizing entries with
  | nil =>
    cases h
    rfl
  | cons field fields ih =>
    obtain ⟨key, otherKey, default, shape⟩ := field
    obtain ⟨⟨_, value⟩, rest, rfl, ⟨rfl, hexact⟩, hrest⟩ := h
    obtain ⟨hfield, hfields⟩ := Bool.and_eq_true_iff.mp faithful
    obtain ⟨hvalue, hvalues⟩ := List.forall_mem_cons.mp hvalues
    have hread := FieldShape.valueIn_of_exact hfield (hvalue ▸ hexact)
    rw [List.map_cons, List.map_cons, hread, hvalue, ih hfields hrest hvalues]

mutual

theorem Shape.check_of_exact (shape : Shape) {value : Value} (faithful : shape.isFaithful = true)
    (h : shape.Exact value) : shape.check value = .ok value := by
  cases shape with
  | text =>
    obtain ⟨s, rfl⟩ := h
    rfl
  | nonEmptyText =>
    obtain ⟨s, rfl, hs⟩ := h
    rw [Shape.check, checkNonEmptyText, if_neg hs]
    rfl
  | oneOf labels =>
    obtain ⟨s, hs, rfl⟩ := h
    rw [Shape.check, checkOneOf, if_pos hs]
    rfl
  | number =>
    obtain ⟨x, rfl⟩ := h
    rfl
  | flag =>
    obtain ⟨b, rfl⟩ := h
    rfl
  | optional shape =>
    cases value with
    | null => rfl
    | _ => exact shape.check_of_exact faithful (h.resolve_left nofun)
  | list item =>
    obtain ⟨items, rfl, hitems⟩ := h
    exact Shape.check_list <| List.forall₂_same.mpr fun i hi =>
      item.check_of_exact faithful (hitems i hi)
  | record fields =>
    obtain ⟨entries, rfl, hentries⟩ := h
    obtain ⟨hkeys, hfields⟩ := Bool.and_eq_true_iff.mp faithful
    obtain ⟨distinct, hothers⟩ := of_decide_eq_true hkeys
    rw [← hentries.entries.1] at distinct hothers
    have hvalues := hentries.valuesIn hfields fun entry => fieldOf_withoutNulls distinct
    refine Shape.check_record (Shape.checkFields_of_exact fields hfields hentries hvalues ?_)
    intro field hfield other hother
    exact lookup_eq_none fun hmem =>
      hothers field hfield other hother (keys_withoutNulls entries hmem)

theorem Shape.checkFields_of_exact (fields : List FieldShape)
    {given entries : List (String × Value)} (faithful : Shape.areFaithful fields = true)
    (h : Shape.ExactFields fields entries)
    (hvalues : fields.map (·.valueIn given) = entries.map (·.2))
    (hothers : ∀ field ∈ fields, ∀ other ∈ field.otherKey, given.lookup other = none) :
    Shape.checkFields fields given = entries.map .ok := by
  cases fields with
  | nil =>
    cases h
    rfl
  | cons field fields =>
    obtain ⟨entry, rest, rfl, hentry, hrest⟩ := h
    obtain ⟨hfield, hfields⟩ := Bool.and_eq_true_iff.mp faithful
    obtain ⟨hvalue, hvalues⟩ := List.cons.inj hvalues
    obtain ⟨hother, hothers⟩ := List.forall_mem_cons.mp hothers
    rw [Shape.checkFields, Shape.checkField_of_exact field hfield hentry hvalue hother,
      Shape.checkFields_of_exact fields hfields hrest hvalues hothers]
    rfl

theorem Shape.checkField_of_exact (field : FieldShape) {given : List (String × Value)}
    {entry : String × Value} (faithful : Shape.isFaithfulField field = true)
    (h : Shape.ExactField field entry) (hvalue : field.valueIn given = entry.2)
    (hother : ∀ other ∈ field.otherKey, given.lookup other = none) :
    Shape.checkField field given = .ok entry := by
  obtain ⟨key, otherKey, default, shape⟩ := field
  obtain ⟨_, value⟩ := entry
  obtain ⟨rfl, hexact⟩ := h
  have hshape := (Bool.and_eq_true_iff.mp faithful).2
  exact Shape.checkField_of_check faithful hother (hvalue ▸ shape.check_of_exact hshape hexact)

end

/-- What a check gives passes the check unchanged. -/
theorem Shape.check_idempotent {shape : Shape} {value checked : Value}
    (faithful : shape.isFaithful = true) (h : shape.check value = .ok checked) :
    shape.check checked = .ok checked :=
  shape.check_of_exact faithful (shape.exact_of_check h)

theorem Payload.check_idempotent {value checked : Value}
    (h : Payload.schema.check value = .ok checked) : Payload.schema.check checked = .ok checked :=
  Shape.check_idempotent (by decide) h

end Quotation
