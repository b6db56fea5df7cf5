import Quotation.Proofs.Formula.Meaning

/-!
# What a formula reads

The names that a formula mentions are the names among its tokens, wherever they stand. What these are
bound to decides its value, or why it has none, and no other name has a say. A formula has no value
while one of them is not bound, for no operand is left out.
-/

namespace Quotation.Formula

/-! ## Names among tokens -/

theorem mem_namesIn_iff {formula name : String} : name ∈ namesIn formula ↔
    ∃ row tree, tokens (keepFormula formula) = .ok row ∧ parseTokens row = .ok tree ∧
      .name name ∈ row := by
  constructor
  · intro h
    cases hparse : parseFormula formula with
    | error e =>
      rw [namesIn, hparse] at h
      cases h
    | ok tree =>
      obtain ⟨row, hrow, htree⟩ := bind_eq_ok.mp hparse
      obtain ⟨depth, hderives, -⟩ := parseTokens_eq_ok.mp htree
      exact ⟨row, tree, hrow, htree, (mem_names_iff hderives).mp ((mem_namesIn hparse).mp h)⟩
  · rintro ⟨row, tree, hrow, htree, hname⟩
    obtain ⟨depth, hderives, -⟩ := parseTokens_eq_ok.mp htree
    exact (mem_namesIn (bind_eq_ok.mpr ⟨row, hrow, htree⟩)).mpr ((mem_names_iff hderives).mpr hname)

/-! ## Bindings -/

theorem Tree.value_congr {read other : String → Except Halt Float} {tree : Tree}
    (h : ∀ name ∈ tree.names, read name = other name) (levels : Nat) :
    tree.value read levels = tree.value other levels := by
  induction tree generalizing levels with
  | number x => cases levels <;> rfl
  | name n =>
    cases levels with
    | zero => rfl
    | succ levels => exact h n (List.mem_singleton_self n)
  | signed sign operand ih =>
    cases levels with
    | zero => rfl
    | succ levels => rw [value, value, ih h levels]
  | binary op left right ihleft ihright =>
    obtain ⟨hleft, hright⟩ := List.forall_mem_append.mp h
    cases levels with
    | zero => rfl
    | succ levels => rw [value, value, ihleft hleft levels, ihright hright levels]

theorem readBinding_congr {bound other : List (String × Value)} {name : String}
    (h : (bound.lookup name).map Value.toFloat = (other.lookup name).map Value.toFloat) :
    readBinding bound name = readBinding other name := by
  unfold readBinding
  cases hbound : bound.lookup name with
  | none =>
    rw [hbound] at h
    rw [Option.map_eq_none_iff.mp h.symm]
  | some value =>
    rw [hbound] at h
    obtain ⟨value', hvalue', heq⟩ := Option.map_eq_some_iff.mp h.symm
    simp only [hvalue', heq]

theorem evaluate_congr {formula : String} {bound other : List (String × Value)}
    (h : ∀ name ∈ namesIn formula,
      (bound.lookup name).map Value.toFloat = (other.lookup name).map Value.toFloat) :
    evaluate formula bound = evaluate formula other := by
  have hwork : work bound (keepFormula formula) = work other (keepFormula formula) := by
    unfold work
    cases hparse : parse (keepFormula formula) with
    | error e => rfl
    | ok tree =>
      have hread : ∀ name ∈ tree.names, readBinding bound name = readBinding other name :=
        fun name hname => readBinding_congr (h name ((mem_namesIn hparse).mpr hname))
      exact Tree.value_congr hread depthLimit
  rw [evaluate, evaluate, hwork]

theorem evaluate_unbound {formula name : String} {bound : List (String × Value)}
    (hname : name ∈ namesIn formula) (hbound : bound.lookup name = none) :
    ∃ fault, evaluate formula bound = .error fault := by
  cases hvalue : evaluate formula bound with
  | error fault => exact ⟨fault, rfl⟩
  | ok x =>
    obtain ⟨tree, depth, hsaid, hdepth, -, hcomes⟩ := work_eq_ok.mp (evaluate_eq_ok.mp hvalue).1
    have hparse : parseFormula formula = .ok tree := parse_eq_ok.mpr ⟨depth, hsaid, hdepth⟩
    obtain ⟨y, hy⟩ := hcomes.names name ((mem_namesIn hparse).mp hname)
    rw [readBinding, hbound] at hy
    cases hy

/-- The names that a formula mentions are all that it reads: it has the same value, or the same
fault, wherever they stand for the same numbers. Each of them is read: where one stands for nothing
there is no value. While all names stand for numbers the fault is an error of the formula. -/
theorem reads_the_names_it_mentions (formula : String) :
    (∀ name, name ∈ namesIn formula ↔ ∃ row tree, tokens (keepFormula formula) = .ok row ∧
      parseTokens row = .ok tree ∧ .name name ∈ row) ∧
    (∀ bound other : List (String × Value),
      (∀ name ∈ namesIn formula,
        (bound.lookup name).map Value.toFloat = (other.lookup name).map Value.toFloat) →
      evaluate formula bound = evaluate formula other) ∧
    (∀ (bound : List (String × Value)) (name : String), name ∈ namesIn formula →
      bound.lookup name = none → ∃ fault, evaluate formula bound = .error fault) ∧
    ∀ bound : List (String × Value), Numeric bound → ∀ fault,
      evaluate formula bound = .error fault → ∃ error, fault = .formula error :=
  ⟨fun _ => mem_namesIn_iff, fun _ _ => evaluate_congr, fun _ _ => evaluate_unbound,
    fun _ h _ => h.evaluate⟩

/-- The width of a frame does not depend on its depth. The height counts, though it is taken zero
times. -/
def frameWidth : String := "(w + 0 * h) * 2 - -w / 4"

theorem frame_width_reads_w_and_h :
    ((∀ name, name ∈ namesIn frameWidth ↔ name = "w" ∨ name = "h") ∧
      evaluate frameWidth [("w", .float 2), ("h", .int 5)] = .ok 4.5) ∧
    evaluate frameWidth [("w", .float 2), ("h", .int 5)] =
      evaluate frameWidth [("depth", .null), ("h", .text "5"), ("w", .int 2)] ∧
    (∃ error, evaluate frameWidth [("w", .float 2)] = .error (.formula error)) ∧
    evaluate frameWidth [("w", .float 2), ("h", .null)] = .error (.value .notNumeric) := by
  have htree : (parseFormula frameWidth).toOption.any (·.names = ["w", "h", "w"]) = true := by
    decide +kernel
  obtain ⟨tree, hparse, hlist⟩ := ok_of_any htree
  have hnames : ∀ name, name ∈ namesIn frameWidth ↔ name = "w" ∨ name = "h" := fun name => by
    rw [mem_namesIn hparse, of_decide_eq_true hlist]
    simp only [List.mem_cons, List.not_mem_nil, or_false]
    tauto
  obtain ⟨-, hsame, hunbound, hnumeric⟩ := reads_the_names_it_mentions frameWidth
  have hwidth : Numeric [("w", .float 2)] := List.forall_mem_singleton.mpr ⟨2, rfl⟩
  obtain ⟨fault, hfault⟩ := hunbound [("w", .float 2)] "h" ((hnames "h").mpr (.inr rfl)) rfl
  obtain ⟨error, rfl⟩ := hnumeric _ hwidth fault hfault
  refine ⟨⟨hnames, by decide +kernel⟩, hsame _ _ fun name hname => ?_, ⟨error, hfault⟩,
    by decide +kernel⟩
  rcases (hnames name).mp hname with rfl | rfl <;> decide +kernel

end Quotation.Formula
