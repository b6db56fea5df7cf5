import Quotation.Proofs.Number.Shown
import Quotation.Proofs.Price.Range

/-!
# Choosing what was declared

A schema keeps the text of the value that a choice is declared with, and a form value is looked up by
its key, the plain text for numbers. A declared text is always found by itself. A number is found by
itself exactly if its text is the plain one already: not so are whole numbers written as doubles,
and whole numbers that doubles are too coarse for or that are too long for the plain form.
-/

namespace Quotation

open Number

/-- The values that a choice can be declared with: text, and the numbers in the range of doubles. -/
inductive Declarable : Value → Prop where
  | text {s} (filled : s ≠ "") : Declarable (.text s)
  | int {n x} (inRange : Number.ofInt n = some x) : Declarable (.int n)
  | float {x} (finite : x.isFinite = true) : Declarable (.float x)

/-- The values that are declared with their key. -/
def DeclaredByKey : Value → Prop
  | .int n => n.natAbs < plainLimit ∧ ∃ x, Number.ofInt n = some x ∧ wholeNumber? x = some n
  | .float x => ∀ n, wholeNumber? x = some n → plainLimit ≤ n.natAbs
  | _ => True

variable {value : Value}

/-! ## Texts and keys -/

theorem plainText_eq_fullText_iff {x : Float} (hfinite : x.isFinite = true) :
    plainText x = fullText x ↔ ∀ n, wholeNumber? x = some n → plainLimit ≤ n.natAbs := by
  unfold plainText
  rw [if_pos hfinite]
  cases wholeNumber? x with
  | none => simp
  | some n =>
    simp only [Option.some.injEq, forall_eq']
    split_ifs with hshort
    · exact iff_of_false (fullText_ne_toString hfinite n).symm (by omega)
    · exact iff_of_true rfl (by omega)

theorem plainText_eq_toString_iff {x : Float} (hfinite : x.isFinite = true) (n : ℤ) :
    plainText x = toString n ↔ n.natAbs < plainLimit ∧ wholeNumber? x = some n := by
  unfold plainText
  rw [if_pos hfinite]
  cases wholeNumber? x with
  | none => exact iff_of_false (fullText_ne_toString hfinite n) nofun
  | some m =>
    simp only [Option.some.injEq]
    split_ifs with hshort
    · exact ⟨fun h => toString_injective h ▸ ⟨hshort, rfl⟩, fun h => h.2 ▸ rfl⟩
    · refine iff_of_false (fullText_ne_toString hfinite n) ?_
      rintro ⟨hn, rfl⟩
      exact hshort hn

theorem optionKey_eq_shown_iff (h : Declarable value) :
    value.optionKey = .ok value.shown ↔ DeclaredByKey value := by
  cases h with
  | text => exact iff_of_true rfl trivial
  | @int n x hx =>
    have hfinite : x.isFinite = true := by
      obtain ⟨hfinite, rfl⟩ := finite?_eq_some.mp hx
      exact hfinite
    have hkey : (Value.int n).optionKey = .ok (plainText x) := by
      simp only [Value.optionKey, intToFloat, hx]
      rfl
    have htext : (Value.int n).shown = toString n := rfl
    rw [hkey, htext, Except.ok.injEq, plainText_eq_toString_iff hfinite]
    simp [DeclaredByKey, hx]
  | @float x hfinite =>
    rw [DeclaredByKey, ← plainText_eq_fullText_iff hfinite]
    exact ⟨Except.ok.inj, congrArg _⟩

/-! ## Looking up -/

theorem Declarable.isBlank (h : Declarable value) : value.isBlank = false := by
  cases h with
  | text filled => simpa [Value.isBlank] using filled
  | int => rfl
  | float => rfl

theorem Declarable.inRange (h : Declarable value) : value.InRange := by
  cases h with
  | text => trivial
  | int hx => exact Option.isSome_iff_exists.mpr ⟨_, hx⟩
  | float => trivial

theorem findChoice_declared {α : Type} {valueOf : α → String} {before after : List α} {choice : α}
    (h : Declarable value) (hstored : valueOf choice = value.shown)
    (hothers : ∀ other ∈ before ++ after, valueOf other ≠ valueOf choice) :
    findChoice valueOf (before ++ choice :: after) value = .ok (some choice) ↔
      DeclaredByKey value := by
  rw [← optionKey_eq_shown_iff h, ← hstored, findChoice_eq_some]
  constructor
  · rintro ⟨-, key, hkey, hfind⟩
    have hsame : valueOf choice = key := by simpa using List.find?_some hfind
    rw [hkey, hsame]
  · intro hkey
    refine ⟨h.isBlank, _, hkey, List.find?_eq_some_iff_append.mpr ⟨by simp, before, after, rfl, ?_⟩⟩
    intro other hother
    simpa using hothers other (List.mem_append_left _ hother)

theorem FixedOption.value_of_ofValue {fields : List (String × Value)} {o : FixedOption}
    (h : FixedOption.ofValue (.object fields) = .ok o)
    (hvalue : fields.lookup "value" = some value) : o.value = value.shown := by
  simp only [FixedOption.ofValue, FixedOption.ofFields, bind_eq_ok, pure_eq_ok] at h
  obtain ⟨fields', hfields, pricing, -, items, -, subOptions, -, rfl⟩ := h
  cases hfields
  simp [fieldOr, hvalue]

theorem SubOption.value_of_ofValue {fields : List (String × Value)} {s : SubOption}
    (h : SubOption.ofValue (.object fields) = .ok s)
    (hvalue : fields.lookup "value" = some value) : s.value = value.shown := by
  simp only [SubOption.ofValue, SubOption.ofFields, bind_eq_ok, pure_eq_ok] at h
  obtain ⟨fields', hfields, price, -, scope, -, rfl⟩ := h
  cases hfields
  simp [fieldOr, hvalue]

theorem Conditional.showWhen_of_ofValue {fields : List (String × Value)} {c : Conditional}
    (h : Conditional.ofValue (.object fields) = .ok (some c))
    (hvalue : fields.lookup "showWhen" = some (.list [value])) : c.showWhen = [value.shown] := by
  unfold Conditional.ofValue at h
  split at h
  · simp only [Conditional.ofFields, bind_eq_ok, pure_eq_ok, Option.some.injEq] at h
    obtain ⟨fields', hfields, c', ⟨items, hitems, rfl⟩, rfl⟩ := h
    cases hfields
    have hone : Value.asItems (.list [value]) = .ok [value] := rfl
    rw [fieldOf, fieldOr, hvalue, Option.getD_some, hone] at hitems
    cases hitems
    rfl
  · cases h

theorem isVisible_declared {p : Parameter} {c : Conditional} {v : FormValues}
    (h : Declarable value) (hc : p.conditional = some c) (hshown : c.showWhen = [value.shown])
    (hheld : v.read c.parent = .ok value) :
    Form.isVisible p v = .ok true ↔ DeclaredByKey value := by
  obtain ⟨key, hkey⟩ := h.inRange.optionKey
  have hread : Form.isVisible p v = .ok (c.showWhen.contains key) := by
    rw [Form.isVisible, hc]
    dsimp only
    rw [hheld, ok_bind]
    cases h <;> simp only [hkey] <;> rfl
  rw [hread, hshown, ← optionKey_eq_shown_iff h, hkey]
  simp

/-- What a schema declares can be chosen by just that value, as an option, as a sub-option and as the
value that a condition names, if its text is its key, and not otherwise. -/
theorem chosen_by_what_is_declared_iff (h : Declarable value) :
    (∀ (fields : List (String × Value)) (o : FixedOption) (p : Parameter)
        (before after : List FixedOption),
      FixedOption.ofValue (.object fields) = .ok o → fields.lookup "value" = some value →
      p.options = before ++ o :: after → (∀ other ∈ before ++ after, other.value ≠ o.value) →
      (p.findOption value = .ok (some o) ↔ DeclaredByKey value)) ∧
    (∀ (fields : List (String × Value)) (s : SubOption) (o : FixedOption)
        (before after : List SubOption),
      SubOption.ofValue (.object fields) = .ok s → fields.lookup "value" = some value →
      o.subOptions = before ++ s :: after → (∀ other ∈ before ++ after, other.value ≠ s.value) →
      (o.findSubOption value = .ok (some s) ↔ DeclaredByKey value)) ∧
    (∀ (fields : List (String × Value)) (c : Conditional) (p : Parameter) (v : FormValues),
      Conditional.ofValue (.object fields) = .ok (some c) →
      fields.lookup "showWhen" = some (.list [value]) → p.conditional = some c →
      v.read c.parent = .ok value → (Form.isVisible p v = .ok true ↔ DeclaredByKey value)) := by
  refine ⟨?_, ?_, ?_⟩
  · intro fields o p before after hread hvalue hoptions hothers
    rw [Parameter.findOption, hoptions]
    exact findChoice_declared h (FixedOption.value_of_ofValue hread hvalue) hothers
  · intro fields s o before after hread hvalue hoptions hothers
    rw [FixedOption.findSubOption, hoptions]
    exact findChoice_declared h (SubOption.value_of_ofValue hread hvalue) hothers
  · intro fields c p v hread hvalue hc hheld
    exact isVisible_declared h hc (Conditional.showWhen_of_ofValue hread hvalue) hheld

def foilFields : List (String × Value) := [("label", .text "Foil"), ("value", .float 1e-7)]

def foil : FixedOption := { label := .text "Foil", value := "1e-07" }

def foilFinish : SubOption := { id := "1e-07", label := .text "Foil", value := "1e-07" }

def gauge : Parameter :=
  { id := "gauge", name := .text "gauge", kind := .fixedOption
    options := [{ label := .text "Sheet", value := "1" }, foil] }

def coated : FixedOption :=
  { label := .text "Coated", value := "coated", subOptions := [foilFinish] }

def onFoilFields : List (String × Value) :=
  [("parentParameter", .text "gauge"), ("showWhen", .list [.float 1e-7])]

def onFoil : Conditional := { parent := .text "gauge", showWhen := ["1e-07"] }

def backing : Parameter :=
  { id := "backing", name := .text "backing", kind := .numericValue, conditional := some onFoil }

theorem foil_is_chosen :
    DeclaredByKey (.float 1e-7) ∧ gauge.findOption (.float 1e-7) = .ok (some foil) ∧
      coated.findSubOption (.float 1e-7) = .ok (some foilFinish) ∧
      Form.isVisible backing (.ofFields [("gauge", .float 1e-7)]) = .ok true := by
  have hdeclarable : Declarable (.float 1e-7) := .float (by decide)
  have hwhole : wholeNumber? 1e-7 = none := by decide +kernel
  have hkey : DeclaredByKey (.float 1e-7) := fun n hn => by
    rw [hwhole] at hn
    cases hn
  obtain ⟨hoption, hsub, hshown⟩ := chosen_by_what_is_declared_iff hdeclarable
  refine ⟨hkey, (hoption foilFields foil gauge [_] [] rfl rfl rfl ?_).mpr hkey,
    (hsub foilFields foilFinish coated [] [] rfl rfl rfl nofun).mpr hkey,
    (hshown onFoilFields onFoil backing _ rfl rfl rfl rfl).mpr hkey⟩
  intro other hother
  cases List.mem_singleton.mp hother
  decide

def doubleFields : List (String × Value) :=
  [("label", .text "Double"), ("value", .float 2),
    ("subOptions", .list [.object [("label", .text "Two passes"), ("value", .float 2)]])]

def sides : Value :=
  .object [("name", .text "sides"), ("type", .text "FixedOption"),
    ("options", .list [.object doubleFields])]

def back : Value :=
  .object [("name", .text "back"), ("type", .text "FixedOption"),
    ("conditional", .object [("parentParameter", .text "sides"), ("showWhen", .list [.float 2])])]

/-- The text that is kept has a point and the key has none. -/
theorem whole_double_is_not_found : Declarable (.float 2) ∧ ∃ p q o s,
    Parameter.ofValue sides = .ok p ∧ Parameter.ofValue back = .ok q ∧ p.options = [o] ∧
      o.subOptions = [s] ∧ p.findOption (.float 2) = .ok none ∧
      o.findSubOption (.float 2) = .ok none ∧
      Form.isVisible q (.ofFields [("sides", .float 2)]) = .ok false := by
  have hdeclarable : Declarable (.float 2) := .float (by decide)
  exact ⟨hdeclarable, _, _, _, _, rfl, rfl, rfl, rfl, rfl, rfl, rfl⟩

end Quotation
