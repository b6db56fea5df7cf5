import Quotation.Formula.Evaluation
import Quotation.Proofs.Except

/-!
# Why a formula has no value

A formula that can be read has no value only for what its operations come to, for its depth, or for a
name in it that cannot be read. Where every name stands for a number only the formula can be at fault.
-/

namespace Quotation.Formula

variable {bound : List (String × Value)} {name s : String}

theorem Operator.apply_error {op : Operator} {x y : Float} {halt : Halt}
    (h : op.apply x y = .error halt) : halt = .formula .divisionByZero := by
  cases op with
  | divide =>
    rw [Operator.apply] at h
    split at h <;> cases h
    rfl
  | _ => cases h

theorem Tree.value_error {read : String → Except Halt Float} {tree : Tree} {levels : Nat}
    {halt : Halt} (h : tree.value read levels = .error halt) :
    halt = .tooDeep ∨ halt = .formula .divisionByZero ∨
      ∃ name ∈ tree.names, read name = .error halt := by
  induction tree generalizing levels with
  | number x => cases levels <;> cases h; exact .inl rfl
  | name n =>
    cases levels with
    | zero => cases h; exact .inl rfl
    | succ levels => exact .inr (.inr ⟨n, List.mem_singleton_self n, h⟩)
  | signed sign operand ih =>
    cases levels with
    | zero => cases h; exact .inl rfl
    | succ levels =>
      rcases bind_eq_error.mp h with h | ⟨x, -, h⟩
      · exact ih h
      · cases h
  | binary op left right ihleft ihright =>
    cases levels with
    | zero => cases h; exact .inl rfl
    | succ levels =>
      rcases bind_eq_error.mp h with h | ⟨x, -, h⟩
      · exact (ihleft h).imp_right <| Or.imp_right fun ⟨n, hn, h⟩ =>
          ⟨n, List.mem_append_left _ hn, h⟩
      · rcases bind_eq_error.mp h with h | ⟨y, -, h⟩
        · exact (ihright h).imp_right <| Or.imp_right fun ⟨n, hn, h⟩ =>
            ⟨n, List.mem_append_right _ hn, h⟩
        · exact .inr (.inl (Operator.apply_error h))

theorem readBinding_error {halt : Halt} : readBinding bound name = .error halt ↔
    (bound.lookup name = none ∧ halt = .formula (.unknownName name)) ∨
      ∃ value cause, bound.lookup name = some value ∧ value.toFloat = .error cause ∧
        halt = .value cause := by
  rw [readBinding]
  cases bound.lookup name with
  | none => simp [eq_comm]
  | some value =>
    simp only [mapError_eq_error, reduceCtorEq, false_and, false_or, Option.some.injEq]
    constructor
    · rintro ⟨cause, hcause, rfl⟩
      exact ⟨value, cause, rfl, hcause, rfl⟩
    · rintro ⟨_, cause, rfl, hcause, rfl⟩
      exact ⟨cause, hcause, rfl⟩

theorem evaluate_error {tree : Tree} {fault : Fault} (hparse : parseFormula s = .ok tree)
    (h : evaluate s bound = .error fault) :
    fault = .formula .notFinite ∨ fault = .formula .tooLong ∨ fault = .formula .divisionByZero ∨
      ∃ name ∈ tree.names, ∃ halt, readBinding bound name = .error halt ∧ halt.toFault = fault := by
  rcases bind_eq_error.mp h with h | ⟨x, -, h⟩
  · obtain ⟨halt, hwork, rfl⟩ := mapError_eq_error.mp h
    have hparsed : parse (keepFormula s) = .ok tree := hparse
    rw [work, hparsed] at hwork
    rcases Tree.value_error hwork with rfl | rfl | ⟨name, hname, hread⟩
    · exact .inr (.inl rfl)
    · exact .inr (.inr (.inl rfl))
    · exact .inr (.inr (.inr ⟨name, hname, halt, hread, rfl⟩))
  · split at h <;> cases h
    exact .inl rfl

theorem mem_namesIn {tree : Tree} (hparse : parseFormula s = .ok tree) :
    name ∈ namesIn s ↔ name ∈ tree.names := by
  rw [namesIn, hparse]
  simp only [List.mem_mergeSort, List.mem_eraseDups]

/-! ## Names that stand for numbers -/

def Numeric (bound : List (String × Value)) : Prop :=
  ∀ entry ∈ bound, ∃ x, entry.2.toFloat = .ok x

theorem Numeric.readBinding (h : Numeric bound) {halt : Halt}
    (hread : readBinding bound name = .error halt) : halt = .formula (.unknownName name) := by
  rcases readBinding_error.mp hread with ⟨-, hhalt⟩ | ⟨value, cause, hlookup, hfails, -⟩
  · exact hhalt
  · obtain ⟨before, after, hsplit, -⟩ := List.lookup_eq_some_iff.mp hlookup
    obtain ⟨x, hx⟩ := h (name, value) (by simp [hsplit])
    rw [hx] at hfails
    cases hfails

theorem Numeric.work (h : Numeric bound) {halt : Halt} (hwork : work bound s = .error halt) :
    halt = .tooDeep ∨ ∃ e, halt = .formula e := by
  rcases bind_eq_error.mp hwork with hparse | ⟨tree, -, hvalue⟩
  · obtain ⟨e, -, rfl⟩ := mapError_eq_error.mp hparse
    exact .inr ⟨e, rfl⟩
  · rcases Tree.value_error hvalue with rfl | rfl | ⟨name, -, hread⟩
    · exact .inl rfl
    · exact .inr ⟨_, rfl⟩
    · exact .inr ⟨_, h.readBinding hread⟩

/-- Only the formula can be at fault. -/
theorem Numeric.evaluate (h : Numeric bound) {fault : Fault}
    (hvalue : evaluate s bound = .error fault) : ∃ e, fault = .formula e := by
  rcases bind_eq_error.mp hvalue with hwork | ⟨x, -, hvalue⟩
  · obtain ⟨halt, hhalt, rfl⟩ := mapError_eq_error.mp hwork
    rcases h.work hhalt with rfl | ⟨e, rfl⟩ <;> exact ⟨_, rfl⟩
  · split at hvalue <;> cases hvalue
    exact ⟨_, rfl⟩

end Quotation.Formula
