import Mathlib.Tactic.Common
import Quotation.Number.Display

/-!
# Shown numbers are not empty

A worked out field is thereby told apart from one that was cleared.
-/

namespace Quotation.Number

theorem toString_ne_empty (n : Int) : toString n ≠ "" := by
  cases n with
  | ofNat m =>
    show Nat.repr m ≠ ""
    intro h
    have hdigits := congrArg String.toList h
    simp at hdigits
  | negSucc m =>
    show "-" ++ Nat.repr (m + 1) ≠ ""
    simp

theorem Significand.fullText_ne_nil (s : Significand) : s.fullText ≠ [] := by
  unfold Significand.fullText
  split <;> simp [Significand.scientific]

theorem signed_ne_empty {negative : Bool} {cs : List Char} (h : cs ≠ []) :
    signed negative cs ≠ "" := by
  unfold signed
  split <;> simp [h]

theorem unboundedText_ne_empty (x : Float) : unboundedText x ≠ "" := by
  unfold unboundedText
  split
  · decide
  · split <;> decide

theorem fullText_ne_empty (x : Float) : fullText x ≠ "" := by
  unfold fullText
  split
  · exact unboundedText_ne_empty x
  · refine signed_ne_empty ?_
    split
    · decide
    · exact Significand.fullText_ne_nil _

theorem plainText_ne_empty (x : Float) : plainText x ≠ "" := by
  unfold plainText
  split
  · split
    · split
      · exact toString_ne_empty _
      · exact fullText_ne_empty x
    · exact fullText_ne_empty x
  · decide

end Quotation.Number
