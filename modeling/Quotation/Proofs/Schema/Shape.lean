import Quotation.Proofs.Except
import Quotation.Schema.Payload
import Quotation.Schema.Reader

/-!
# Values in exact form

A value that passes the check of a shape comes out in exact form: text where text is asked for,
doubles for numbers, and records whose fields are in exact form themselves.
-/

namespace Quotation

def Value.IsText (value : Value) : Prop := ∃ s, value = .text s

mutual

/-- The exact form of a shape. -/
def Shape.Exact : Shape → Value → Prop
  | .text, value => value.IsText
  | .nonEmptyText, value => ∃ s, value = .text s ∧ s ≠ ""
  | .oneOf labels, value => ∃ s ∈ labels, value = .text s
  | .number, value => ∃ x, value = .float x
  | .flag, value => ∃ b, value = .bool b
  | .optional shape, value => value = .null ∨ shape.Exact value
  | .list item, value => ∃ items, value = .list items ∧ ∀ i ∈ items, item.Exact i
  | .record fields, value =>
    ∃ given, value = .object (withoutNulls given) ∧ Shape.ExactFields fields given

def Shape.ExactFields : List FieldShape → List (String × Value) → Prop
  | [], given => given = []
  | field :: fields, given =>
    ∃ entry rest, given = entry :: rest ∧ Shape.ExactField field entry ∧
      Shape.ExactFields fields rest

def Shape.ExactField : FieldShape → String × Value → Prop
  | ⟨key, _, _, shape⟩, entry => entry.1 = key ∧ shape.Exact entry.2

end

theorem Shape.ExactFields.nil : Shape.ExactFields [] [] := rfl

theorem Shape.ExactFields.cons {field : FieldShape} {fields : List FieldShape} {value : Value}
    {rest : List (String × Value)} (hvalue : field.shape.Exact value)
    (hrest : Shape.ExactFields fields rest) :
    Shape.ExactFields (field :: fields) ((field.key, value) :: rest) := by
  obtain ⟨key, otherKey, default, shape⟩ := field
  exact ⟨_, rest, rfl, ⟨rfl, hvalue⟩, hrest⟩

/-! ## What a check gives -/

section

variable {α β : Type}

theorem Checked.map_eq_ok {checked : Checked α} {f : α → β} {b : β} :
    checked.map f = .ok b ↔ ∃ a, checked = .ok a ∧ f a = b := by
  cases checked <;> simp [Except.map]

theorem Checked.inside_eq_ok {checked : Checked α} {step : PathStep} {a : α} :
    checked.inside step = .ok a ↔ checked = .ok a := mapError_eq_ok

theorem Checked.all_eq_ok {results : List (Checked α)} {values : List α}
    (h : Checked.all results = .ok values) : results = values.map .ok := by
  induction results generalizing values with
  | nil =>
    cases h
    rfl
  | cons result results ih =>
    cases result with
    | ok a =>
      obtain ⟨rest, hrest, rfl⟩ := Checked.map_eq_ok.mp h
      rw [ih hrest, List.map_cons]
    | error issues =>
      rw [Checked.all] at h
      split at h <;> cases h

end

mutual

theorem Shape.exact_of_check (shape : Shape) {value checked : Value}
    (h : shape.check value = .ok checked) : shape.Exact checked := by
  cases shape with
  | text =>
    obtain ⟨s, -, rfl⟩ := Checked.map_eq_ok.mp h
    exact ⟨s, rfl⟩
  | nonEmptyText =>
    obtain ⟨s, hs, rfl⟩ := Checked.map_eq_ok.mp h
    refine ⟨s, rfl, ?_⟩
    rintro rfl
    unfold checkNonEmptyText at hs
    split at hs
    · split at hs
      · cases hs
      · cases hs
        contradiction
    · cases hs
  | oneOf labels =>
    obtain ⟨s, hs, rfl⟩ := Checked.map_eq_ok.mp h
    refine ⟨s, ?_, rfl⟩
    unfold checkOneOf at hs
    split at hs
    · split at hs
      · cases hs
        assumption
      · cases hs
    · cases hs
  | number =>
    obtain ⟨x, -, rfl⟩ := Checked.map_eq_ok.mp h
    exact ⟨x, rfl⟩
  | flag =>
    obtain ⟨b, -, rfl⟩ := Checked.map_eq_ok.mp h
    exact ⟨b, rfl⟩
  | optional shape =>
    cases value with
    | null =>
      cases h
      exact .inl rfl
    | _ => exact .inr (shape.exact_of_check h)
  | list item =>
    cases value with
    | list values =>
      obtain ⟨items, hall, rfl⟩ := Checked.map_eq_ok.mp h
      refine ⟨items, rfl, fun i hi => ?_⟩
      have hmem : Except.ok i ∈ values.mapIdx fun index value =>
          (item.check value).inside (.item index) := by
        rw [Checked.all_eq_ok hall]
        exact List.mem_map_of_mem hi
      obtain ⟨index, hindex, hitem⟩ := List.mem_mapIdx.mp hmem
      exact item.exact_of_check (Checked.inside_eq_ok.mp hitem)
    | _ => cases h
  | record fields =>
    cases value with
    | object given =>
      obtain ⟨checked, hall, rfl⟩ := Checked.map_eq_ok.mp h
      exact ⟨checked, rfl, Shape.exactFields_of_check fields (Checked.all_eq_ok hall)⟩
    | _ => cases h

theorem Shape.exactFields_of_check (fields : List FieldShape)
    {given checked : List (String × Value)}
    (h : Shape.checkFields fields given = checked.map .ok) : Shape.ExactFields fields checked := by
  cases fields with
  | nil => exact List.map_eq_nil_iff.mp h.symm
  | cons field fields =>
    obtain ⟨entry, rest, rfl, hentry, hrest⟩ := List.map_eq_cons_iff.mp h.symm
    exact ⟨entry, rest, rfl, Shape.exactField_of_check field hentry.symm,
      Shape.exactFields_of_check fields hrest.symm⟩

theorem Shape.exactField_of_check (field : FieldShape) {given : List (String × Value)}
    {entry : String × Value} (h : Shape.checkField field given = .ok entry) :
    Shape.ExactField field entry := by
  obtain ⟨key, otherKey, default, shape⟩ := field
  obtain ⟨value, hvalue, rfl⟩ := Checked.map_eq_ok.mp h
  split at hvalue
  · exact ⟨rfl, shape.exact_of_check (Checked.inside_eq_ok.mp hvalue)⟩
  · cases hvalue

end

/-! ## Fields of a record -/

def Shape.fieldShape? : Shape → String → Option Shape
  | .record fields, key => (fields.find? (·.key = key)).map (·.shape)
  | _, _ => none

def Shape.KeysDistinct : Shape → Prop
  | .record fields => (fields.map (·.key)).Nodup
  | _ => True

instance (shape : Shape) : Decidable shape.KeysDistinct := by
  unfold Shape.KeysDistinct
  split <;> infer_instance

theorem lookup_eq_none {fields : List (String × Value)} {key : String}
    (h : key ∉ fields.map (·.1)) : fields.lookup key = none := by
  refine List.lookup_eq_none_iff.mpr fun entry hentry => ?_
  have hne : entry.1 ≠ key := fun heq => h (List.mem_map.mpr ⟨entry, hentry, heq⟩)
  simpa using hne.symm

theorem fieldOf_eq_null {fields : List (String × Value)} {key : String}
    (h : key ∉ fields.map (·.1)) : fieldOf fields key = .null := by
  rw [fieldOf, fieldOr, lookup_eq_none h]
  rfl

theorem fieldOr_eq_fieldOf {fields : List (String × Value)} {key : String}
    (h : fieldOf fields key ≠ .null) (default : Value) :
    fieldOr fields key default = fieldOf fields key := by
  rw [fieldOf, fieldOr] at *
  rw [fieldOr]
  cases hlookup : fields.lookup key with
  | none =>
    rw [hlookup] at h
    exact absurd rfl h
  | some value => rfl

theorem fieldOf_cons_self (key : String) (value : Value) (fields : List (String × Value)) :
    fieldOf ((key, value) :: fields) key = value := by
  rw [fieldOf, fieldOr, List.lookup_cons_self]
  rfl

theorem fieldOf_cons_of_ne {key other : String} (h : key ≠ other) (value : Value)
    (fields : List (String × Value)) :
    fieldOf ((other, value) :: fields) key = fieldOf fields key := by
  have hbeq : (key == other) = false := beq_false_of_ne h
  simp only [fieldOf, fieldOr, List.lookup_cons, hbeq]

theorem withoutNulls_cons (key : String) (value : Value) (fields : List (String × Value)) :
    (value = .null ∧ withoutNulls ((key, value) :: fields) = withoutNulls fields) ∨
      withoutNulls ((key, value) :: fields) = (key, value) :: withoutNulls fields := by
  cases value with
  | null => exact .inl ⟨rfl, rfl⟩
  | _ => exact .inr rfl

theorem keys_withoutNulls (fields : List (String × Value)) :
    (withoutNulls fields).map (·.1) ⊆ fields.map (·.1) :=
  List.map_subset _ List.filter_sublist.subset

theorem fieldOf_withoutNulls {given : List (String × Value)} (distinct : (given.map (·.1)).Nodup)
    {key : String} {value : Value} (h : (key, value) ∈ given) :
    fieldOf (withoutNulls given) key = value := by
  induction given with
  | nil => cases h
  | cons first rest ih =>
    obtain ⟨other, held⟩ := first
    obtain ⟨hnew, distinct⟩ := List.nodup_cons.mp distinct
    rcases List.mem_cons.mp h with heq | hrest
    · cases heq
      obtain ⟨rfl, hout⟩ | hkept := withoutNulls_cons key value rest
      · rw [hout]
        exact fieldOf_eq_null fun hkey => hnew (keys_withoutNulls rest hkey)
      · rw [hkept, fieldOf_cons_self]
    · have hne : key ≠ other := by
        rintro rfl
        exact hnew (List.mem_map.mpr ⟨_, hrest, rfl⟩)
      obtain ⟨-, hout⟩ | hkept := withoutNulls_cons other held rest
      · rw [hout, ih distinct hrest]
      · rw [hkept, fieldOf_cons_of_ne hne, ih distinct hrest]

theorem Shape.ExactFields.entries {fields : List FieldShape} {given : List (String × Value)}
    (h : Shape.ExactFields fields given) :
    given.map (·.1) = fields.map (·.key) ∧
      ∀ field ∈ fields, ∃ value, (field.key, value) ∈ given ∧ field.shape.Exact value := by
  induction fields generalizing given with
  | nil =>
    cases h
    exact ⟨rfl, nofun⟩
  | cons field fields ih =>
    obtain ⟨⟨key, value⟩, rest, rfl, hentry, hrest⟩ := h
    obtain ⟨fieldKey, otherKey, default, shape⟩ := field
    obtain ⟨rfl, hvalue⟩ := hentry
    obtain ⟨hkeys, hfields⟩ := ih hrest
    refine ⟨by rw [List.map_cons, List.map_cons, hkeys], List.forall_mem_cons.mpr ⟨?_, ?_⟩⟩
    · exact ⟨value, List.mem_cons_self .., hvalue⟩
    · intro other hother
      obtain ⟨held, hmem, hheld⟩ := hfields other hother
      exact ⟨held, List.mem_cons_of_mem _ hmem, hheld⟩

theorem Shape.Exact.field {shape fieldShape : Shape} {given : List (String × Value)} {key : String}
    (h : shape.Exact (.object given)) (distinct : shape.KeysDistinct)
    (hshape : shape.fieldShape? key = some fieldShape) : fieldShape.Exact (fieldOf given key) := by
  cases shape with
  | record fields =>
    obtain ⟨entries, heq, hentries⟩ := h
    cases heq
    obtain ⟨hkeys, hfields⟩ := hentries.entries
    obtain ⟨field, hfind, rfl⟩ := Option.map_eq_some_iff.mp hshape
    have hkey : field.key = key := by simpa using List.find?_some hfind
    obtain ⟨value, hmem, hvalue⟩ := hfields field (List.mem_of_find?_eq_some hfind)
    rw [hkey] at hmem
    rw [fieldOf_withoutNulls (hkeys ▸ distinct) hmem]
    exact hvalue
  | _ => cases hshape

end Quotation
