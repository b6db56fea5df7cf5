import Mathlib.Order.Basic

/-!
# The longest front of a text

A reader of the front of a text reads the longest front that has a form, if it reads something of the
form whenever there is such a front, and no less than that.
-/

namespace Quotation.Text

structure IsLongest (form : List Char → Prop) (front cs : List Char) : Prop where
  starts : front <+: cs
  formed : form front
  longest : ∀ other, other <+: cs → form other → other.length ≤ front.length

theorem IsLongest.unique {form : List Char → Prop} {front other cs : List Char}
    (h : IsLongest form front cs) (hother : IsLongest form other cs) : front = other := by
  have hle := hother.longest front h.starts h.formed
  have hge := h.longest other hother.starts hother.formed
  exact (List.prefix_of_prefix_length_le h.starts hother.starts hle).eq_of_length
    (Nat.le_antisymm hle hge)

/-- A reader of texts that stand for something. -/
structure ReadsLongest {α : Type} (form : List Char → α → Prop)
    (scan : List Char → Option (α × List Char)) : Prop where
  sound : ∀ {cs a rest}, scan cs = some (a, rest) → ∃ front, form front a ∧ cs = front ++ rest
  /-- Where a text stands at the front, that text or a longer one is read. -/
  covers : ∀ {front a} (back), form front a → ∃ longer b rest,
    scan (front ++ back) = some (b, rest) ∧ front ++ back = longer ++ rest ∧
      front.length ≤ longer.length
  exact : ∀ {front a}, form front a → scan front = some (a, [])

namespace ReadsLongest

variable {α : Type} {form : List Char → α → Prop} {scan : List Char → Option (α × List Char)}
  {cs front rest : List Char} {a b : α}

theorem unique (h : ReadsLongest form scan) (ha : form front a) (hb : form front b) : a = b := by
  have hread := h.exact ha
  rw [h.exact hb] at hread
  cases hread
  rfl

theorem eq_some_iff (h : ReadsLongest form scan) : scan cs = some (a, rest) ↔
    ∃ front, IsLongest (fun text => ∃ b, form text b) front cs ∧ form front a ∧
      cs = front ++ rest := by
  constructor
  · intro hscan
    obtain ⟨front, hform, rfl⟩ := h.sound hscan
    refine ⟨front, ⟨List.prefix_append .., ⟨a, hform⟩, ?_⟩, hform, rfl⟩
    rintro other ⟨back, hback⟩ ⟨b, hother⟩
    obtain ⟨longer, c, rest', hread, hsplit, hlength⟩ := h.covers back hother
    rw [hback, hscan] at hread
    cases hread
    rw [hback] at hsplit
    rwa [List.append_cancel_right hsplit]
  · rintro ⟨front, hlongest, hform, rfl⟩
    obtain ⟨longer, b, rest', hread, hsplit, hlength⟩ := h.covers rest hform
    obtain ⟨read, hread_form, hread_split⟩ := h.sound hread
    obtain rfl : longer = read := List.append_cancel_right (hsplit.symm.trans hread_split)
    -- What is read is no longer than the longest front, and no shorter.
    have hback := hlongest.longest longer ⟨rest', hsplit.symm⟩ ⟨b, hread_form⟩
    obtain ⟨rfl, rfl⟩ := List.append_inj hsplit (Nat.le_antisymm hlength hback)
    rw [hread, h.unique hform hread_form]

theorem eq_none_iff (h : ReadsLongest form scan) : scan cs = none ↔
    ∀ front, front <+: cs → ¬ ∃ a, form front a := by
  constructor
  · rintro hnone front ⟨back, rfl⟩ ⟨a, hform⟩
    obtain ⟨longer, b, rest, hread, -⟩ := h.covers back hform
    rw [hread] at hnone
    cases hnone
  · intro hno
    cases hscan : scan cs with
    | none => rfl
    | some found =>
      obtain ⟨front, hform, rfl⟩ := h.sound hscan
      exact absurd ⟨found.1, hform⟩ (hno front (List.prefix_append ..))

end ReadsLongest

end Quotation.Text
