import Quotation.Text.Blank
import Quotation.Text.Digit

/-!
# Classes of characters

Where the digits and the blanks stand among all characters: they have none in common, and below the
letters there are no digits but the usual ten.
-/

namespace Quotation.Text

variable {c : Char}

/-! ## Digits -/

theorem isDigit_iff : isDigit c = true ↔ ∃ z ∈ zeros, z ≤ c.toNat ∧ c.toNat < z + 10 := by
  simp [isDigit, digitValue?]

theorem code_of_isDigit (h : isDigit c = true) :
    48 ≤ c.toNat ∧ c.toNat < 58 ∨ 0x660 ≤ c.toNat := by
  have hzeros : ∀ z ∈ zeros, z = 48 ∨ 0x660 ≤ z := by decide
  obtain ⟨z, hz, hlow, hhigh⟩ := isDigit_iff.mp h
  rcases hzeros z hz with rfl | hz <;> omega

theorem digitValue?_of_code (hlow : 48 ≤ c.toNat) (hhigh : c.toNat < 58) :
    digitValue? c = some (c.toNat - 48) := by
  have hfirst : (48 ≤ c.toNat && c.toNat < 48 + 10) = true := by
    rw [Bool.and_eq_true, decide_eq_true_eq, decide_eq_true_eq]
    exact ⟨hlow, hhigh⟩
  rw [digitValue?, show zeros = 48 :: zeros.tail from rfl, List.find?_cons, hfirst]
  rfl

theorem code_of_asciiDigit (h : c.isDigit = true) : 48 ≤ c.toNat ∧ c.toNat < 58 := by
  simp only [Char.isDigit, Bool.and_eq_true, decide_eq_true_eq, UInt32.le_iff_toNat_le] at h
  have hlow : 48 ≤ c.toNat := h.1
  have hhigh : c.toNat ≤ 57 := h.2
  omega

theorem digitValue?_asciiDigit (h : c.isDigit = true) :
    digitValue? c = some (c.toNat - 48) :=
  digitValue?_of_code (code_of_asciiDigit h).1 (code_of_asciiDigit h).2

/-! ## Blanks -/

theorem isBlank_iff : isBlank c = true ↔
    ∃ range ∈ separatorRange :: spaceRanges, range.first ≤ c.toNat ∧ c.toNat ≤ range.last := by
  simp only [isBlank, isSpace, inRanges, Bool.or_eq_true, List.any_eq_true, CharRange.contains,
    Bool.and_eq_true, decide_eq_true_eq, List.mem_cons, exists_eq_or_imp]
  exact or_comm

theorem isBlank_of_isDigit (h : isDigit c = true) : isBlank c = false := by
  have hapart : ∀ z ∈ zeros, ∀ range ∈ separatorRange :: spaceRanges,
      z + 10 ≤ range.first ∨ range.last < z := by decide
  obtain ⟨z, hz, hlow, hhigh⟩ := isDigit_iff.mp h
  refine Bool.eq_false_iff.mpr fun hblank => ?_
  obtain ⟨range, hrange, hfirst, hlast⟩ := isBlank_iff.mp hblank
  have := hapart z hz range hrange
  omega

theorem isBlank_of_code (hlow : 33 ≤ c.toNat) (hhigh : c.toNat ≤ 126) : isBlank c = false := by
  have hapart : ∀ range ∈ separatorRange :: spaceRanges, range.last < 33 ∨ 126 < range.first := by
    decide
  refine Bool.eq_false_iff.mpr fun hblank => ?_
  obtain ⟨range, hrange, hfirst, hlast⟩ := isBlank_iff.mp hblank
  have := hapart range hrange
  omega

end Quotation.Text
