import Quotation.Proofs.Formula.Meaning
import Quotation.Proofs.Formula.Tokens

/-!
# Texts without names

A text without names is worked off like a formula in which nothing is bound. It always has a value, a
finite one, which is zero where the formula has none. A formula without names has none for one of six
reasons: it cannot be split into tokens, no tree is derived from them, the tree is nested too deep or
has too many levels, it divides by zero, or what it comes to is not finite.
-/

namespace Quotation.Formula

open Text

/-! ## Characters -/

theorem code_of_isArithmetic {c : Char} (h : isArithmetic c = true) :
    c.toNat < 65 ∨ 122 < c.toNat := by
  simp only [isArithmetic, Bool.or_eq_true, beq_iff_eq] at h
  rcases h with ((hdigit | rfl) | hsymbol) | hblank
  · simp only [Char.isDigit, Bool.and_eq_true, decide_eq_true_eq, UInt32.le_iff_toNat_le] at hdigit
    exact .inl (Nat.lt_of_le_of_lt hdigit.2 (by decide))
  · decide
  · obtain ⟨s, hs⟩ := Option.isSome_iff_exists.mp hsymbol
    obtain rfl : s.char = c := by simpa using List.find?_some hs
    cases s <;> decide
  · simp only [isBlank, isSpace, inRanges, spaceRanges, separatorRange] at hblank
    simp only [CharRange.contains, List.any_cons, List.any_nil, Bool.or_eq_true, Bool.and_eq_true,
      decide_eq_true_eq, Bool.false_eq_true, or_false] at hblank
    omega

theorem keepFormula_keepArithmetic (s : String) :
    keepFormula (keepArithmetic s) = keepArithmetic s := by
  unfold keepFormula keepArithmetic
  rw [String.toList_ofList, List.filter_filter]
  congr 2
  funext c
  cases isArithmetic c <;> simp

/-! ## Tokens -/

theorem isNameStart_of_next? {cs rest : List Char} {name : String}
    (h : Token.next? cs = some (.name name, rest)) : ∃ c ∈ cs, isNameStart c = true := by
  obtain ⟨text, htext, rfl⟩ := next?_sound h
  cases htext with
  | name start => exact ⟨_, List.mem_append_left _ (List.mem_cons_self ..), start⟩

theorem isNameStart_of_tokensFrom {position : Nat} {cs : List Char} {row : List Token}
    (h : tokensFrom position cs = .ok row) {name : String} (hname : .name name ∈ row) :
    ∃ c ∈ cs, isNameStart c = true := by
  fun_induction tokensFrom position cs generalizing row with
  | case1 =>
    cases h
    cases hname
  | case2 => cases h
  | case3 position c tail token rest hnext ih =>
    obtain ⟨others, hothers, hrow⟩ := bind_eq_ok.mp h
    cases hrow
    rcases List.mem_cons.mp hname with rfl | hname
    · obtain ⟨d, hd, hstart⟩ := isNameStart_of_next? hnext
      exact ⟨d, (List.dropWhile_suffix _).subset hd, hstart⟩
    · obtain ⟨d, hd, hstart⟩ := ih hothers hname
      exact ⟨d, (suffix_of_next? hnext).subset hd, hstart⟩

theorem names_keepArithmetic {s : String} {tree : Tree} {depth : Nat}
    (h : Says (keepArithmetic s) tree depth) : tree.names = [] := by
  obtain ⟨row, hrow, hderives⟩ := h
  refine List.eq_nil_iff_forall_not_mem.mpr fun name hname => ?_
  obtain ⟨c, hc, hstart⟩ := isNameStart_of_tokensFrom hrow ((mem_names_iff hderives).mp hname)
  have hkept : c ∈ (keepArithmetic s).toList :=
    List.mem_reverse.mp ((List.dropWhile_sublist _).subset (List.mem_reverse.mp hc))
  rw [keepArithmetic, String.toList_ofList, List.mem_filter] at hkept
  have hlow := code_of_isNameStart hstart
  have hhigh := code_of_isArithmetic hkept.2
  omega

/-! ## Values -/

/-- What keeps a text without names from having a value. -/
inductive Valueless (s : String) : Prop where
  | noTokens {e} : tokens s = .error e → Valueless s
  | noTree {row} : tokens s = .ok row → (¬ ∃ tree depth, Derives .sum row tree depth) → Valueless s
  | tooNested {tree depth} : Says s tree depth → FormulaError.nestingLimit < depth → Valueless s
  | tooLong {tree depth} : Says s tree depth → depthLimit < tree.depth → Valueless s
  | dividesByZero {tree depth} :
      Says s tree depth → DividesByZero (readBinding []) tree → Valueless s
  | notFinite {tree depth x} :
      Says s tree depth → Comes (readBinding []) tree x → x.isFinite = false → Valueless s

theorem valueless_or_works (s : String) : Valueless (keepArithmetic s) ∨
    ∃ x, work [] (keepArithmetic s) = .ok x ∧ x.isFinite = true := by
  cases hrow : tokens (keepArithmetic s) with
  | error e => exact .inl (.noTokens hrow)
  | ok row =>
    by_cases htree : ∃ tree depth, Derives .sum row tree depth
    · obtain ⟨tree, depth, hderives⟩ := htree
      have hsaid : Says (keepArithmetic s) tree depth := ⟨row, hrow, hderives⟩
      rcases Nat.lt_or_ge FormulaError.nestingLimit depth with hnested | hnested
      · exact .inl (.tooNested hsaid hnested)
      rcases Nat.lt_or_ge depthLimit tree.depth with hlong | hlong
      · exact .inl (.tooLong hsaid hlong)
      have hnames : ∀ n ∈ tree.names, ∃ y, readBinding [] n = .ok y := by
        rw [names_keepArithmetic hsaid]
        exact nofun
      rcases comes_or_dividesByZero hnames with ⟨x, hx⟩ | hzero
      · cases hfinite : x.isFinite with
        | false => exact .inl (.notFinite hsaid hx hfinite)
        | true => exact .inr ⟨x, work_eq_ok.mpr ⟨tree, depth, hsaid, hnested, hlong, hx⟩, hfinite⟩
      · exact .inl (.dividesByZero hsaid hzero)
    · exact .inl (.noTree hrow htree)

theorem Valueless.not_finite {s : String} (h : Valueless s) {x : Float}
    (hwork : work [] s = .ok x) : x.isFinite = false := by
  obtain ⟨tree, depth, hsaid, hdepth, hlevels, hcomes⟩ := work_eq_ok.mp hwork
  cases h with
  | noTokens hfails =>
    obtain ⟨row, hrow, -⟩ := hsaid
    rw [hfails] at hrow
    cases hrow
  | noTree hrow hnone =>
    obtain ⟨row', hrow', hderives⟩ := hsaid
    cases hrow.symm.trans hrow'
    exact absurd ⟨tree, depth, hderives⟩ hnone
  | tooNested hother hdeep =>
    have hparse := parse_eq_ok.mpr ⟨depth, hsaid, hdepth⟩
    rw [hother.parse_of_deep hdeep] at hparse
    cases hparse
  | tooLong hother hlong =>
    rw [hsaid.unique hother] at hlevels
    omega
  | dividesByZero hother hzero =>
    rw [hsaid.unique hother] at hcomes
    exact absurd hcomes (hzero.not_comes x)
  | notFinite hother hx hinfinite =>
    rw [hsaid.unique hother] at hcomes
    rwa [hcomes.unique hx]

theorem isFinite_of_evaluate {s : String} {bound : List (String × Value)} {x : Float}
    (h : evaluate s bound = .ok x) : x.isFinite = true := (evaluate_eq_ok.mp h).2

theorem numeric_nil : Numeric [] := nofun

theorem countsAsZero_of_work {s : String} {halt : Halt} (h : work [] s = .error halt) :
    halt.countsAsZero = true := by
  rcases numeric_nil.work h with rfl | ⟨e, rfl⟩ <;> rfl

section

variable {s : String} {x : Float}

theorem evaluateArithmetic_of_ok (h : work [] (keepArithmetic s) = .ok x) :
    evaluateArithmetic s = .ok (if x.isFinite then x else 0) := by
  rw [evaluateArithmetic, h]

theorem evaluateArithmetic_of_error {halt : Halt} (h : work [] (keepArithmetic s) = .error halt) :
    evaluateArithmetic s = .ok 0 := by
  rw [evaluateArithmetic, h]
  exact if_pos (countsAsZero_of_work h)

theorem evaluateArithmetic_total (s : String) :
    ∃ x, evaluateArithmetic s = .ok x ∧ x.isFinite = true := by
  have hzero : (0 : Float).isFinite = true := by decide
  cases hwork : work [] (keepArithmetic s) with
  | error halt => exact ⟨0, evaluateArithmetic_of_error hwork, hzero⟩
  | ok x =>
    refine ⟨_, evaluateArithmetic_of_ok hwork, ?_⟩
    split
    · assumption
    · exact hzero

theorem evaluate_keepArithmetic : evaluate (keepArithmetic s) [] = .ok x ↔
    work [] (keepArithmetic s) = .ok x ∧ x.isFinite = true := by
  rw [evaluate_eq_ok, keepFormula_keepArithmetic]

theorem evaluateArithmetic_of_evaluate (h : evaluate (keepArithmetic s) [] = .ok x) :
    evaluateArithmetic s = .ok x := by
  obtain ⟨hwork, hfinite⟩ := evaluate_keepArithmetic.mp h
  rw [evaluateArithmetic_of_ok hwork, if_pos hfinite]

theorem evaluateArithmetic_of_evaluate_error {fault : Fault}
    (h : evaluate (keepArithmetic s) [] = .error fault) : evaluateArithmetic s = .ok 0 := by
  cases hwork : work [] (keepArithmetic s) with
  | error halt => exact evaluateArithmetic_of_error hwork
  | ok x =>
    -- There is a number, so it was not finite.
    rw [evaluateArithmetic_of_ok hwork, if_neg]
    intro hfinite
    rw [evaluate_keepArithmetic.mpr ⟨hwork, hfinite⟩] at h
    cases h

theorem evaluate_error_iff_valueless :
    (∃ e, evaluate (keepArithmetic s) [] = .error (.formula e)) ↔ Valueless (keepArithmetic s) := by
  constructor
  · rintro ⟨e, he⟩
    refine (valueless_or_works s).resolve_right ?_
    rintro ⟨x, hx⟩
    rw [evaluate_keepArithmetic.mpr hx] at he
    cases he
  · intro hnone
    cases he : evaluate (keepArithmetic s) [] with
    | ok x =>
      obtain ⟨hwork, hfinite⟩ := evaluate_keepArithmetic.mp he
      rw [hnone.not_finite hwork] at hfinite
      cases hfinite
    | error fault =>
      obtain ⟨e, rfl⟩ := numeric_nil.evaluate he
      exact ⟨e, rfl⟩

end

/-- A text without names always has a finite value: that of the formula that is left of it, and zero
where this has an error. No other fault keeps it from a value, and an error is for one of the six
reasons only. -/
theorem arithmetic_is_formula_or_zero (s : String) :
    (∃ x, evaluateArithmetic s = .ok x ∧ x.isFinite = true) ∧
    (∀ x, evaluate (keepArithmetic s) [] = .ok x → evaluateArithmetic s = .ok x) ∧
    (∀ e, evaluate (keepArithmetic s) [] = .error (.formula e) → evaluateArithmetic s = .ok 0) ∧
    (∀ fault, evaluate (keepArithmetic s) [] = .error fault → ∃ e, fault = .formula e) ∧
    ((∃ e, evaluate (keepArithmetic s) [] = .error (.formula e)) ↔ Valueless (keepArithmetic s)) :=
  ⟨evaluateArithmetic_total s, fun _ => evaluateArithmetic_of_evaluate,
    fun _ => evaluateArithmetic_of_evaluate_error, fun _ => numeric_nil.evaluate,
    evaluate_error_iff_valueless⟩

/-- Units are left out, and so are the names of functions. -/
def inUnits : String := "2 * (3cm + 4cm) / sqrt(16)"

def perLength : String := "8 / (3 - 3m)"

theorem in_units_and_per_length :
    (evaluate (keepArithmetic inUnits) [] = .ok 0.875 ∧ evaluateArithmetic inUnits = .ok 0.875) ∧
      (evaluate (keepArithmetic perLength) [] = .error (.formula .divisionByZero) ∧
        evaluateArithmetic perLength = .ok 0) ∧ Valueless (keepArithmetic perLength) := by
  have hvalue : evaluate (keepArithmetic inUnits) [] = .ok 0.875 := by decide +kernel
  have herror : evaluate (keepArithmetic perLength) [] = .error (.formula .divisionByZero) := by
    decide +kernel
  obtain ⟨-, hsame, -⟩ := arithmetic_is_formula_or_zero inUnits
  obtain ⟨-, -, hzero, -, hreason⟩ := arithmetic_is_formula_or_zero perLength
  exact ⟨⟨hvalue, hsame _ hvalue⟩, ⟨herror, hzero _ herror⟩, hreason.mp ⟨_, herror⟩⟩

end Quotation.Formula
