import Quotation.Proofs.Schema.Check
import Quotation.Proofs.Schema.Normal

/-!
# What parameters are called

In a schema that was read all names are text. Names that are text are looked up by themselves, and
so are the names of their sub-options.
-/

namespace Quotation

namespace Value

variable {value other : Value}

theorem IsText.isName (h : value.IsText) : value.isName = true := by
  obtain ⟨s, rfl⟩ := h
  rfl

theorem IsText.eq_of_key (h : value.IsText) (hkey : value.key = other.key) : value = other := by
  obtain ⟨s, rfl⟩ := h
  exact (key_eq_text.mp hkey.symm).symm

theorem IsText.sameAs_iff (h : value.IsText) (hother : other.IsText) :
    value.sameAs other = true ↔ value.key = other.key := by
  obtain ⟨s, rfl⟩ := h
  obtain ⟨t, rfl⟩ := hother
  simp [sameAs, key]

end Value

namespace Schema

/-- What the parameters are called and what they are shown by is text. -/
structure TextNames (parameters : List Parameter) : Prop where
  name : ∀ p ∈ parameters, p.name.IsText
  parent : ∀ p ∈ parameters, ∀ c, p.conditional = some c → c.parent.IsText

/-! ## Names of sub-options -/

section

variable {p q : Parameter}

theorem key_of_subName (hp : p.name.IsText) (hq : q.name.IsText) (h : p.subName = q.subName) :
    p.key = q.key := by
  obtain ⟨s, hs⟩ := hp
  obtain ⟨t, ht⟩ := hq
  rw [Parameter.subName, Parameter.subName, hs, ht] at h
  rw [Parameter.key, Parameter.key, hs, ht]
  exact congrArg Key.text ((String.append_left_inj _).mp h)

theorem subName_ne_quantity (p : Parameter) : p.subName ≠ quantityName := by
  intro h
  have hmem : '_' ∈ p.subName.toList := by
    rw [Parameter.subName, subOptionName, String.toList_append]
    exact List.mem_append_right _ (by decide)
  rw [h] at hmem
  exact absurd hmem (by decide)

end

/-! ## Reading -/

theorem textNames_of_normal {parameters : List Parameter} (h : ∀ p ∈ parameters, p.Normal) :
    TextNames parameters :=
  ⟨fun p hp => isText_of_nonEmpty (h p hp).name, fun p hp => (h p hp).conditional⟩

theorem textNames_of_ofValue {data name : Value} {schema : ProductSchema}
    (h : ProductSchema.ofValue data name = .ok schema) : TextNames schema.parameters :=
  textNames_of_normal (ProductSchema.normal_of_ofValue h)

end Schema

end Quotation
