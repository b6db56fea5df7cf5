import Quotation.Proofs.Number.Numeral
import Quotation.Proofs.Text.Characters
import Quotation.Value

/-!
# The number that a text starts with

A text is read as the longest numeral that follows its first blanks, and the numeral as the closest
double. There is no number if no numeral follows or its closest double is infinite. What stands after
the numeral makes no difference as long as it does not go on with it.
-/

namespace Quotation

open Number Text

def IsNumeral (cs : List Char) : Prop := ∃ n, NumeralText cs n

def afterBlanks (s : String) : List Char := s.toList.dropWhile isBlank

/-- The longest numeral that a text starts with, after its first blanks. -/
def IsLeading (front : List Char) (s : String) : Prop := IsLongest IsNumeral front (afterBlanks s)

variable {s : String} {front : List Char} {n : Numeral}

/-! ## The longest numeral -/

theorem scan?_afterBlanks_eq_none :
    Numeral.scan? (afterBlanks s) = none ↔ ¬ ∃ front, front <+: afterBlanks s ∧ IsNumeral front := by
  rw [readsLongest_numeral.eq_none_iff, not_exists]
  exact forall_congr' fun front => not_and.symm

theorem scan?_afterBlanks_eq_some : (∃ rest, Numeral.scan? (afterBlanks s) = some (n, rest)) ↔
    ∃ front, IsLeading front s ∧ NumeralText front n := by
  constructor
  · rintro ⟨rest, h⟩
    obtain ⟨front, hleads, hform, -⟩ := readsLongest_numeral.eq_some_iff.mp h
    exact ⟨front, hleads, hform⟩
  · rintro ⟨front, hleads, hform⟩
    obtain ⟨rest, hrest⟩ := hleads.starts
    exact ⟨rest, readsLongest_numeral.eq_some_iff.mpr ⟨front, hleads, hform, hrest.symm⟩⟩

theorem isLeading_of_scan? {rest : List Char} (hs : afterBlanks s = front ++ rest)
    (h : Numeral.scan? (front ++ rest) = some (n, rest)) : IsLeading front s := by
  obtain ⟨longest, hleads, -, hsplit⟩ := readsLongest_numeral.eq_some_iff.mp h
  rw [List.append_cancel_right hsplit, IsLeading, hs]
  exact hleads

theorem IsLeading.scan? (hleads : IsLeading front s) (hform : NumeralText front n) :
    ∃ rest, Numeral.scan? (afterBlanks s) = some (n, rest) :=
  scan?_afterBlanks_eq_some.mpr ⟨front, hleads, hform⟩

/-! ## The closest double -/

theorem leadingNumber?_of_isLeading (hleads : IsLeading front s) (hform : NumeralText front n) :
    Value.leadingNumber? s = finite? n.toFloat := by
  obtain ⟨rest, hread⟩ := hleads.scan? hform
  unfold Value.leadingNumber?
  rw [show Numeral.scan? (s.toList.dropWhile isBlank) = some (n, rest) from hread]

theorem afterBlanks_of_numeral (h : NumeralText s.toList n) : afterBlanks s = s.toList := by
  obtain ⟨c, hc, hstart⟩ := h.starts
  obtain ⟨cs, hchars⟩ := List.head?_eq_some_iff.mp hc
  have hblank : isBlank c = false := by
    rcases hstart with rfl | rfl | rfl | hdigit
    · decide
    · decide
    · decide
    · exact isBlank_of_isDigit hdigit
  rw [afterBlanks, hchars, List.dropWhile_cons_of_neg (by simp [hblank])]

theorem leadingNumber?_of_numeral (h : NumeralText s.toList n) :
    Value.leadingNumber? s = finite? n.toFloat := by
  have hread := numeral_exact h
  rw [← afterBlanks_of_numeral h] at hread
  obtain ⟨front, hleads, hform⟩ := scan?_afterBlanks_eq_some.mp ⟨_, hread⟩
  exact leadingNumber?_of_isLeading hleads hform

theorem leadingNumber?_eq_some {x : Float} : Value.leadingNumber? s = some x ↔
    ∃ front n, IsLeading front s ∧ NumeralText front n ∧ Rounds n.negative n.size x ∧
      x.isFinite = true := by
  constructor
  · intro h
    cases hread : Numeral.scan? (afterBlanks s) with
    | none =>
      unfold Value.leadingNumber? at h
      rw [show Numeral.scan? (s.toList.dropWhile isBlank) = none from hread] at h
      cases h
    | some read =>
      obtain ⟨front, hleads, hform⟩ := scan?_afterBlanks_eq_some.mp ⟨_, hread⟩
      rw [leadingNumber?_of_isLeading hleads hform, finite?_eq_some] at h
      obtain ⟨hfinite, rfl⟩ := h
      exact ⟨front, _, hleads, hform, read.1.rounds_iff.mpr rfl, hfinite⟩
  · rintro ⟨front, n, hleads, hform, hrounds, hfinite⟩
    cases n.rounds_iff.mp hrounds
    rw [leadingNumber?_of_isLeading hleads hform]
    exact finite?_eq_some.mpr ⟨hfinite, rfl⟩

theorem leadingNumber?_eq_none : Value.leadingNumber? s = none ↔
    (¬ ∃ front, front <+: afterBlanks s ∧ IsNumeral front) ∨
      ∃ front n x, IsLeading front s ∧ NumeralText front n ∧ Rounds n.negative n.size x ∧
        x.isFinite = false := by
  rw [← scan?_afterBlanks_eq_none]
  constructor
  · intro h
    cases hread : Numeral.scan? (afterBlanks s) with
    | none => exact .inl rfl
    | some read =>
      obtain ⟨front, hleads, hform⟩ := scan?_afterBlanks_eq_some.mp ⟨_, hread⟩
      rw [leadingNumber?_of_isLeading hleads hform, finite?_eq_none] at h
      exact .inr ⟨front, _, _, hleads, hform, read.1.rounds_iff.mpr rfl, h⟩
  · rintro (hread | ⟨front, n, x, hleads, hform, hrounds, hinfinite⟩)
    · unfold Value.leadingNumber?
      rw [show Numeral.scan? (s.toList.dropWhile isBlank) = none from hread]
    · cases n.rounds_iff.mp hrounds
      rw [leadingNumber?_of_isLeading hleads hform]
      exact finite?_eq_none.mpr hinfinite

theorem leadingNumber?_congr {t : String} (hs : IsLeading front s) (ht : IsLeading front t) :
    Value.leadingNumber? t = Value.leadingNumber? s := by
  obtain ⟨n, hform⟩ := hs.formed
  rw [leadingNumber?_of_isLeading hs hform, leadingNumber?_of_isLeading ht hform]

/-! ## Form values -/

theorem number?_text (s : String) : (Value.text s).number? = .ok (Value.leadingNumber? s) := rfl

theorem numberOrZero_eq (value : Value) : value.numberOrZero = value.number?.map (·.getD 0) := by
  unfold Value.numberOrZero
  cases value.number? <;> rfl

/-- What a text is read as: nothing if no numeral leads it or the closest double is infinite, and
otherwise that double. -/
theorem text_reads_as_longest_numeral (s : String) :
    ((Value.text s).number? = .ok none ↔
      (¬ ∃ front, front <+: afterBlanks s ∧ IsNumeral front) ∨
        ∃ front n x, IsLeading front s ∧ NumeralText front n ∧ Rounds n.negative n.size x ∧
          x.isFinite = false) ∧
    (∀ x, (Value.text s).number? = .ok (some x) ↔
      ∃ front n, IsLeading front s ∧ NumeralText front n ∧ Rounds n.negative n.size x ∧
        x.isFinite = true) ∧
    (∃ read, (Value.text s).number? = .ok read) ∧
    (∀ front added, IsLeading front s → IsLeading front (s ++ added) →
      (Value.text (s ++ added)).number? = (Value.text s).number?) ∧
    ∀ value : Value, value.numberOrZero = value.number?.map (·.getD 0) := by
  simp only [number?_text, Except.ok.injEq]
  refine ⟨leadingNumber?_eq_none, fun x => leadingNumber?_eq_some, ⟨_, rfl⟩, ?_, numberOrZero_eq⟩
  intro front added hs hadded
  exact leadingNumber?_congr hs hadded

/-- A letter with a sign after it is no exponent as long as no digit follows. -/
theorem half_an_exponent_is_left_out :
    IsLeading "-12.5".toList "\t-12.5e" ∧ IsLeading "-12.5".toList ("\t-12.5e" ++ "+cm") ∧
      (Value.text ("\t-12.5e" ++ "+cm")).number? = (Value.text "\t-12.5e").number? ∧
      (Value.text "\t-12.5e").number? = .ok (some (-12.5)) := by
  have hshort : IsLeading "-12.5".toList "\t-12.5e" := by
    have hread : Numeral.scan? ("-12.5".toList ++ "e".toList) =
        some (⟨true, ⟨['1', '2'], some ['5']⟩, 0⟩, "e".toList) := by decide
    exact isLeading_of_scan? (by decide) hread
  have hlong : IsLeading "-12.5".toList ("\t-12.5e" ++ "+cm") := by
    have hread : Numeral.scan? ("-12.5".toList ++ "e+cm".toList) =
        some (⟨true, ⟨['1', '2'], some ['5']⟩, 0⟩, "e+cm".toList) := by decide
    exact isLeading_of_scan? (by decide) hread
  obtain ⟨-, -, -, hadded, -⟩ := text_reads_as_longest_numeral "\t-12.5e"
  exact ⟨hshort, hlong, hadded _ _ hshort hlong, by decide +kernel⟩

end Quotation
