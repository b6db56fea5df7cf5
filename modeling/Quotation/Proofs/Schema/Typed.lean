import Quotation.Proofs.Schema.Recheck

/-!
# Values of the declared types

A value has the type that its shape declares if it is text, a number, a flag, a list or an object
where one is asked for, all the way down, and if no field stands under its second key. The check of
such a value only turns numbers into doubles and records into their known fields.
-/

namespace Quotation

mutual

def Shape.isTyped : Shape → Value → Bool
  | .text, value => (value matches .text _)
  | .nonEmptyText, value => (value matches .text _)
  | .oneOf _, value => (value matches .text _)
  | .number, value => (value matches .int _ | .float _ | .nan _)
  | .flag, value => (value matches .bool _)
  | .optional shape, value =>
    match value with
    | .null => true
    | value => shape.isTyped value
  | .list item, value =>
    match value with
    | .list values => values.all item.isTyped
    | _ => false
  | .record fields, value =>
    match value with
    | .object given => Shape.areTyped fields given
    | _ => false

def Shape.areTyped : List FieldShape → List (String × Value) → Bool
  | [], _ => true
  | field :: fields, given => Shape.isTypedField field given && Shape.areTyped fields given

def Shape.isTypedField : FieldShape → List (String × Value) → Bool
  | ⟨key, otherKey, _, shape⟩, given =>
    otherKey.all (fun other => (given.lookup other).isNone) && (given.lookup key).all shape.isTyped

end

/-- A value of the declared type with its exact form. -/
structure Shape.Settles (shape : Shape) (value checked : Value) : Prop where
  typed : shape.isTyped value = true
  check : shape.check value = .ok checked

def Shape.defaultsTyped (shape : Shape) : Bool :=
  shape.fields.all fun field => field.default.all field.shape.isTyped

/-! ## Values that are kept -/

/-- Whether a typed value of a shape is its own exact form. -/
def Shape.isVerbatim : Shape → Bool
  | .text | .nonEmptyText | .oneOf _ | .flag => true
  | .optional shape => shape.isVerbatim
  | .list item => item.isVerbatim
  | .number | .record _ => false

theorem Shape.Settles.optional {shape : Shape} {value checked : Value}
    (h : (Shape.optional shape).Settles value checked) :
    (value = .null ∧ checked = .null) ∨ shape.Settles value checked := by
  obtain ⟨htyped, hcheck⟩ := h
  cases value with
  | null =>
    cases hcheck
    exact .inl ⟨rfl, rfl⟩
  | _ => exact .inr ⟨htyped, hcheck⟩

theorem Shape.Settles.list {item : Shape} {value checked : Value}
    (h : (Shape.list item).Settles value checked) :
    ∃ values items, value = .list values ∧ checked = .list items ∧
      List.Forall₂ item.Settles values items := by
  obtain ⟨htyped, hcheck⟩ := h
  cases value with
  | list values =>
    obtain ⟨items, hall, rfl⟩ := Checked.map_eq_ok.mp hcheck
    have hitems := Checked.all_eq_ok hall
    have hlength : values.length = items.length := by simpa using congrArg List.length hitems
    refine ⟨values, items, rfl, rfl, List.forall₂_iff_get.mpr ⟨hlength, fun i hi hi' => ?_⟩⟩
    have hitem := List.getElem_of_eq hitems (by simpa using hi)
    simp only [List.getElem_mapIdx, List.getElem_map] at hitem
    exact ⟨List.all_eq_true.mp htyped _ (List.getElem_mem hi), Checked.inside_eq_ok.mp hitem⟩
  | _ => cases hcheck

theorem Shape.Settles.eq_of_verbatim (shape : Shape) {value checked : Value}
    (verbatim : shape.isVerbatim = true) (h : shape.Settles value checked) : checked = value := by
  cases shape with
  | text =>
    obtain ⟨htyped, hcheck⟩ := h
    cases value with
    | text s =>
      cases hcheck
      rfl
    | _ => cases htyped
  | nonEmptyText =>
    obtain ⟨htyped, hcheck⟩ := h
    cases value with
    | text s =>
      obtain ⟨t, ht, rfl⟩ := Checked.map_eq_ok.mp hcheck
      dsimp only [checkNonEmptyText] at ht
      split at ht <;> cases ht
      rfl
    | _ => cases htyped
  | oneOf labels =>
    obtain ⟨htyped, hcheck⟩ := h
    cases value with
    | text s =>
      obtain ⟨t, ht, rfl⟩ := Checked.map_eq_ok.mp hcheck
      dsimp only [checkOneOf] at ht
      split at ht <;> cases ht
      rfl
    | _ => cases htyped
  | flag =>
    obtain ⟨htyped, hcheck⟩ := h
    cases value with
    | bool b =>
      cases hcheck
      rfl
    | _ => cases htyped
  | optional shape =>
    rcases h.optional with ⟨rfl, rfl⟩ | h
    · rfl
    · exact h.eq_of_verbatim shape verbatim
  | list item =>
    obtain ⟨values, items, rfl, rfl, hitems⟩ := h.list
    have hsame : List.Forall₂ Eq values items :=
      hitems.imp fun _ _ h => (h.eq_of_verbatim item verbatim).symm
    rw [List.forall₂_eq_eq_eq] at hsame
    rw [hsame]
  | number => cases verbatim
  | record fields => cases verbatim

/-! ## Records -/

theorem Shape.settles_of_checkField {field : FieldShape} {given : List (String × Value)}
    {entry : String × Value} (default : field.default.all field.shape.isTyped = true)
    (typed : Shape.isTypedField field given = true)
    (h : Shape.checkField field given = .ok entry) :
    entry.1 = field.key ∧ field.shape.Settles (field.valueIn given) entry.2 := by
  obtain ⟨key, otherKey, default?, shape⟩ := field
  obtain ⟨hother, hheld⟩ := Bool.and_eq_true_iff.mp typed
  have hsecond : otherKey.bind (givenField? given) = none := by
    refine Option.bind_eq_none_iff.mpr fun other hmem => ?_
    rw [Option.mem_def.mp hmem] at hother
    rw [givenField?, Option.isNone_iff_eq_none.mp hother]
    rfl
  obtain ⟨value, hvalue, rfl⟩ := Checked.map_eq_ok.mp h
  rw [fieldOrDefault, givenField?, hsecond, Option.none_or] at hvalue
  refine ⟨rfl, ?_⟩
  rw [FieldShape.valueIn, fieldOr]
  cases hlookup : given.lookup key with
  | some held =>
    rw [hlookup] at hvalue hheld
    exact ⟨hheld, Checked.inside_eq_ok.mp hvalue⟩
  | none =>
    rw [hlookup] at hvalue
    cases default? with
    | some held => exact ⟨default, Checked.inside_eq_ok.mp hvalue⟩
    | none => cases hvalue

theorem Shape.settles_of_checkFields {fields : List FieldShape}
    {given entries : List (String × Value)}
    (defaults : (fields.all fun field => field.default.all field.shape.isTyped) = true)
    (typed : Shape.areTyped fields given = true)
    (h : Shape.checkFields fields given = entries.map .ok) :
    entries.map (·.1) = fields.map (·.key) ∧
      ∀ field ∈ fields, ∃ value, (field.key, value) ∈ entries ∧
        field.shape.Settles (field.valueIn given) value := by
  induction fields generalizing entries with
  | nil =>
    obtain rfl := List.map_eq_nil_iff.mp h.symm
    exact ⟨rfl, nofun⟩
  | cons field fields ih =>
    obtain ⟨⟨key, value⟩, rest, rfl, hentry, hrest⟩ := List.map_eq_cons_iff.mp h.symm
    obtain ⟨hdefault, hdefaults⟩ := Bool.and_eq_true_iff.mp defaults
    obtain ⟨hfield, hfields⟩ := Bool.and_eq_true_iff.mp typed
    obtain ⟨rfl, hsettles⟩ := Shape.settles_of_checkField hdefault hfield hentry.symm
    obtain ⟨hkeys, hothers⟩ := ih hdefaults hfields hrest.symm
    refine ⟨by rw [List.map_cons, List.map_cons, hkeys], List.forall_mem_cons.mpr ⟨?_, ?_⟩⟩
    · exact ⟨value, List.mem_cons_self .., hsettles⟩
    · intro other hother
      obtain ⟨held, hmem, hheld⟩ := hothers other hother
      exact ⟨held, List.mem_cons_of_mem _ hmem, hheld⟩

def Shape.SettlesIn (shape : Shape) (given kept : List (String × Value)) : Prop :=
  ∀ field ∈ shape.fields, field.shape.Settles (field.valueIn given) (fieldOf kept field.key)

theorem Shape.Settles.record {fields : List FieldShape} {value checked : Value}
    (h : (Shape.record fields).Settles value checked)
    (defaults : (Shape.record fields).defaultsTyped = true)
    (distinct : (Shape.record fields).KeysDistinct) :
    ∃ given kept, value = .object given ∧ checked = .object kept ∧
      (Shape.record fields).SettlesIn given kept := by
  obtain ⟨htyped, hcheck⟩ := h
  cases value with
  | object given =>
    obtain ⟨entries, hall, rfl⟩ := Checked.map_eq_ok.mp hcheck
    obtain ⟨hkeys, hfields⟩ :=
      Shape.settles_of_checkFields defaults htyped (Checked.all_eq_ok hall)
    refine ⟨given, withoutNulls entries, rfl, rfl, fun field hfield => ?_⟩
    obtain ⟨value, hmem, hsettles⟩ := hfields field hfield
    rw [fieldOf_withoutNulls (hkeys ▸ distinct) hmem]
    exact hsettles
  | _ => cases hcheck

def Shape.field? (shape : Shape) (key : String) : Option FieldShape :=
  shape.fields.find? (·.key = key)

section

variable {shape : Shape} {given kept : List (String × Value)} {key : String} {asked : FieldShape}

theorem Shape.SettlesIn.field (h : shape.SettlesIn given kept)
    (hasked : shape.field? key = some asked) :
    asked.shape.Settles (asked.valueIn given) (fieldOf kept key) := by
  have hkey : asked.key = key := by simpa using List.find?_some hasked
  rw [← hkey]
  exact h asked (List.mem_of_find?_eq_some hasked)

theorem Shape.SettlesIn.required {asked : Shape} {other : Option String}
    (h : shape.SettlesIn given kept) (hasked : shape.field? key = some (.required key asked other)) :
    asked.Settles (fieldOf given key) (fieldOf kept key) := h.field hasked

theorem Shape.SettlesIn.optional {asked : Shape} {other : Option String}
    (h : shape.SettlesIn given kept) (hasked : shape.field? key = some (.optional key asked other)) :
    (Shape.optional asked).Settles (fieldOf given key) (fieldOf kept key) := h.field hasked

theorem Shape.SettlesIn.withDefault {asked : Shape} {default : Value} {other : Option String}
    (h : shape.SettlesIn given kept)
    (hasked : shape.field? key = some (.withDefault key asked default other)) :
    asked.Settles (fieldOr given key default) (fieldOf kept key) := h.field hasked

end

end Quotation
