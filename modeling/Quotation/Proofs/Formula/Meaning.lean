import Quotation.Proofs.Formula.Evaluation
import Quotation.Proofs.Formula.Grammar

/-!
# What a formula comes to

A text says the tree that the grammar derives from its tokens, and a tree comes to a number by rules
that know no limits. A formula has a value just if it says a tree that comes to a finite number, and
neither its nesting nor its levels go beyond what is worked off.
-/

namespace Quotation.Formula

variable {read : String → Except Halt Float} {tree : Tree} {x : Float}

/-! ## Trees -/

/-- `Comes read tree x`: where names are read in this way the tree comes to this number. -/
inductive Comes (read : String → Except Halt Float) : Tree → Float → Prop where
  | number (x : Float) : Comes read (.number x) x
  | name {n x} : read n = .ok x → Comes read (.name n) x
  | signed (sign : Sign) {operand x} :
      Comes read operand x → Comes read (.signed sign operand) (sign.apply x)
  | binary {op left right x y z} :
      Comes read left x → Comes read right y → op.apply x y = .ok z →
      Comes read (.binary op left right) z

/-- In some place of a tree the divisor comes to zero. -/
inductive DividesByZero (read : String → Except Halt Float) : Tree → Prop where
  | here {left right y} :
      Comes read right y → (y == 0) = true → DividesByZero read (.binary .divide left right)
  | signed (sign : Sign) {operand} :
      DividesByZero read operand → DividesByZero read (.signed sign operand)
  | left (op : Operator) {left} (right : Tree) :
      DividesByZero read left → DividesByZero read (.binary op left right)
  | right (op : Operator) (left : Tree) {right} :
      DividesByZero read right → DividesByZero read (.binary op left right)

theorem Operator.apply_eq_error {op : Operator} {x y : Float} :
    (∃ e, op.apply x y = .error e) ↔ op = .divide ∧ (y == 0) = true := by
  cases op with
  | divide =>
    rw [Operator.apply]
    cases y == 0 <;> simp
  | _ => simp [Operator.apply]

theorem Comes.value (h : Comes read tree x) {levels : Nat} (hlevels : tree.depth ≤ levels) :
    tree.value read levels = .ok x := by
  induction h generalizing levels with
  | number x =>
    obtain ⟨less, rfl⟩ := Nat.exists_eq_add_of_le' hlevels
    rfl
  | name h =>
    obtain ⟨less, rfl⟩ := Nat.exists_eq_add_of_le' hlevels
    exact h
  | signed sign _ ih =>
    obtain ⟨less, rfl⟩ := Nat.exists_eq_add_of_le' (Nat.le_of_add_left_le hlevels)
    rw [Tree.depth] at hlevels
    rw [Tree.value, ih (by omega)]
    rfl
  | binary _ _ h ihleft ihright =>
    obtain ⟨less, rfl⟩ := Nat.exists_eq_add_of_le' (Nat.le_of_add_left_le hlevels)
    rw [Tree.depth] at hlevels
    rw [Tree.value, ihleft (by omega), ok_bind, ihright (by omega), ok_bind, h]

theorem comes_of_value {levels : Nat} (h : tree.value read levels = .ok x) :
    tree.depth ≤ levels ∧ Comes read tree x := by
  induction tree generalizing levels x with
  | number y =>
    cases levels <;> cases h
    exact ⟨by simp [Tree.depth], .number y⟩
  | name n =>
    cases levels with
    | zero => cases h
    | succ levels => exact ⟨by simp [Tree.depth], .name h⟩
  | signed sign operand ih =>
    cases levels with
    | zero => cases h
    | succ levels =>
      obtain ⟨y, hy, hx⟩ := bind_eq_ok.mp h
      cases hx
      obtain ⟨hdepth, hoperand⟩ := ih hy
      exact ⟨by rw [Tree.depth]; omega, .signed sign hoperand⟩
  | binary op left right ihleft ihright =>
    cases levels with
    | zero => cases h
    | succ levels =>
      obtain ⟨y, hy, h⟩ := bind_eq_ok.mp h
      obtain ⟨z, hz, h⟩ := bind_eq_ok.mp h
      obtain ⟨hleft, hy⟩ := ihleft hy
      obtain ⟨hright, hz⟩ := ihright hz
      exact ⟨by rw [Tree.depth]; omega, .binary hy hz h⟩

theorem Tree.value_eq_ok {levels : Nat} :
    tree.value read levels = .ok x ↔ tree.depth ≤ levels ∧ Comes read tree x :=
  ⟨comes_of_value, fun h => h.2.value h.1⟩

theorem Comes.unique {y : Float} (hx : Comes read tree x) (hy : Comes read tree y) : x = y := by
  have hvalue := hx.value (Nat.le_refl _)
  rw [hy.value (Nat.le_refl _)] at hvalue
  cases hvalue
  rfl

theorem Comes.names (h : Comes read tree x) : ∀ n ∈ tree.names, ∃ y, read n = .ok y := by
  induction h with
  | number => exact nofun
  | name h => exact List.forall_mem_singleton.mpr ⟨_, h⟩
  | signed _ _ ih => exact ih
  | binary _ _ _ ihleft ihright => exact List.forall_mem_append.mpr ⟨ihleft, ihright⟩

theorem DividesByZero.not_comes (h : DividesByZero read tree) (x : Float) :
    ¬ Comes read tree x := by
  intro hx
  induction h generalizing x with
  | here hy hzero =>
    cases hx with
    | binary _ hright happly =>
      rw [hright.unique hy, Operator.apply, if_pos hzero] at happly
      cases happly
  | signed _ _ ih =>
    cases hx with
    | signed _ hoperand => exact ih _ hoperand
  | left _ _ _ ih =>
    cases hx with
    | binary hleft _ _ => exact ih _ hleft
  | right _ _ _ ih =>
    cases hx with
    | binary _ hright _ => exact ih _ hright

theorem comes_or_dividesByZero (h : ∀ n ∈ tree.names, ∃ y, read n = .ok y) :
    (∃ x, Comes read tree x) ∨ DividesByZero read tree := by
  induction tree with
  | number x => exact .inl ⟨x, .number x⟩
  | name n =>
    obtain ⟨x, hx⟩ := h n (List.mem_singleton_self n)
    exact .inl ⟨x, .name hx⟩
  | signed sign operand ih =>
    rcases ih h with ⟨x, hx⟩ | hzero
    · exact .inl ⟨_, .signed sign hx⟩
    · exact .inr (.signed sign hzero)
  | binary op left right ihleft ihright =>
    obtain ⟨hleft, hright⟩ := List.forall_mem_append.mp h
    rcases ihleft hleft with ⟨x, hx⟩ | hzero
    · rcases ihright hright with ⟨y, hy⟩ | hzero
      · cases hz : op.apply x y with
        | ok z => exact .inl ⟨z, .binary hx hy hz⟩
        | error e =>
          obtain ⟨rfl, hzero⟩ := Operator.apply_eq_error.mp ⟨e, hz⟩
          exact .inr (.here hy hzero)
      · exact .inr (.right op left hzero)
    · exact .inr (.left op right hzero)

/-! ## Nesting -/

def readPart (room : Nat) : Part → Reader
  | .sum => sum (factor room)
  | .product => product (factor room)
  | .factor | .atom => factor room

theorem Continues.refused {operator? : Token → Option Operator} {part : Reader}
    {left right : List Token} {l : Tree} {token : Token} {op : Operator} {e : FormulaError}
    (hop : operator? token = some op) (h : Continues operator? part left l (token :: right))
    (hright : part right = .error e) :
    chain operator? part (left ++ token :: right) = .error e := by
  obtain ⟨count, hcount, hchain⟩ := h
  obtain ⟨less, rfl⟩ : ∃ less, count = less + 1 := ⟨count - 1, by simp at hcount; omega⟩
  rw [hchain, chainFrom, hop]
  simp [hright]

/-- A part is refused where less room is left than its depth, whatever stands behind it. -/
theorem refused_of_derives {part : Part} {tokens : List Token} {depth room : Nat}
    (h : Derives part tokens tree depth) (hroom : room < depth) (rest : List Token) :
    readPart room part (tokens ++ rest) = .error .tooNested := by
  induction h generalizing room rest with
  | number | name => omega
  | parentheses _ ih =>
    cases room with
    | zero => simp [readPart, Formula.factor]
    | succ less =>
      have hinner : sum (Formula.factor less) _ = _ := ih (by omega) (.symbol .closing :: rest)
      simp [readPart, Formula.factor, hinner]
  | atom _ ih => exact ih hroom rest
  | signed sign _ ih =>
    cases room with
    | zero => cases sign <;> simp [readPart, Formula.factor, Sign.symbol, sign?]
    | succ less =>
      have hoperand : Formula.factor less _ = _ := ih (by omega) rest
      cases sign <;> simp [readPart, Formula.factor, Sign.symbol, sign?, hoperand]
  | factor _ ih =>
    have hfactor : Formula.factor room _ = _ := ih hroom rest
    simp [readPart, Formula.product, chain, hfactor]
  | product _ ih =>
    have hproduct : Formula.product (Formula.factor room) _ = _ := ih hroom rest
    simp [readPart, Formula.sum, chain, hproduct]
  | @chain op whole part left right l r m n hop hleft _ ihleft ihright =>
    rw [List.append_assoc, List.cons_append]
    by_cases hdeep : room < m
    · exact ihleft hdeep _
    · -- The left side is read, so that the operator and the right side come next.
      have hread := readBefore_of_derives hleft (Nat.le_of_not_lt hdeep)
        (.symbol op.symbol :: (right ++ rest))
      have hroom : room < n := by omega
      have hrefused := ihright hroom rest
      cases hop with
      | add | subtract =>
        exact (hread (by rintro token ⟨⟩; rfl)).refused rfl hrefused
      | multiply | divide => exact hread.refused rfl hrefused

theorem parseTokens_of_deep {row : List Token} {depth : Nat} (h : Derives .sum row tree depth)
    (hdeep : FormulaError.nestingLimit < depth) : parseTokens row = .error .tooNested := by
  have hne : row.isEmpty = false := by simpa using h.ne_nil
  have hrefused := refused_of_derives h hdeep []
  rw [List.append_nil] at hrefused
  have hsum : sum (factor FormulaError.nestingLimit) row = _ := hrefused
  rw [parseTokens, hne, hsum]
  rfl

/-! ## Texts -/

theorem mem_names_iff {part : Part} {row : List Token} {tree : Tree} {depth : Nat}
    (h : Derives part row tree depth) {name : String} :
    name ∈ tree.names ↔ .name name ∈ row := by
  induction h with
  | number => simp [Tree.names]
  | name => simp [Tree.names]
  | parentheses _ ih => simp [ih]
  | atom _ ih | factor _ ih | product _ ih => exact ih
  | signed _ _ ih => simp [Tree.names, ih]
  | chain _ _ _ ihleft ihright => simp [Tree.names, ihleft, ihright]

/-- A text says a tree, with so many parentheses and signs around one number or name at most. -/
def Says (s : String) (tree : Tree) (depth : Nat) : Prop :=
  ∃ row, tokens s = .ok row ∧ Derives .sum row tree depth

section

variable {s : String} {depth : Nat}

theorem parse_eq_ok :
    parse s = .ok tree ↔ ∃ depth, Says s tree depth ∧ depth ≤ FormulaError.nestingLimit := by
  simp only [parse, bind_eq_ok, parseTokens_eq_ok]
  constructor
  · rintro ⟨row, hrow, depth, hderives, hdepth⟩
    exact ⟨depth, ⟨row, hrow, hderives⟩, hdepth⟩
  · rintro ⟨depth, ⟨row, hrow, hderives⟩, hdepth⟩
    exact ⟨row, hrow, depth, hderives, hdepth⟩

theorem Says.unique {other : Tree} {less : Nat} (h : Says s tree depth) (hother : Says s other less) :
    tree = other := by
  obtain ⟨row, hrow, hderives⟩ := h
  obtain ⟨row', hrow', hderives'⟩ := hother
  cases hrow.symm.trans hrow'
  exact tree_unique hderives hderives'

theorem Says.parse_of_deep (h : Says s tree depth) (hdeep : FormulaError.nestingLimit < depth) :
    parse s = .error .tooNested := by
  obtain ⟨row, hrow, hderives⟩ := h
  rw [parse, hrow, ok_bind, parseTokens_of_deep hderives hdeep]

variable {bound : List (String × Value)}

theorem work_eq_ok : work bound s = .ok x ↔ ∃ tree depth, Says s tree depth ∧
    depth ≤ FormulaError.nestingLimit ∧ tree.depth ≤ depthLimit ∧
    Comes (readBinding bound) tree x := by
  simp only [work, bind_eq_ok, mapError_eq_ok, parse_eq_ok, Tree.value_eq_ok]
  constructor
  · rintro ⟨tree, ⟨depth, hsaid, hdepth⟩, hcomes⟩
    exact ⟨tree, depth, hsaid, hdepth, hcomes⟩
  · rintro ⟨tree, depth, hsaid, hdepth, hcomes⟩
    exact ⟨tree, ⟨depth, hsaid, hdepth⟩, hcomes⟩

theorem evaluate_eq_ok :
    evaluate s bound = .ok x ↔ work bound (keepFormula s) = .ok x ∧ x.isFinite = true := by
  simp only [evaluate, bind_eq_ok, mapError_eq_ok]
  constructor
  · rintro ⟨y, hwork, h⟩
    split at h
    · rename_i hfinite
      cases h
      exact ⟨hwork, hfinite⟩
    · cases h
  · rintro ⟨hwork, hfinite⟩
    exact ⟨x, hwork, by rw [if_pos hfinite]; rfl⟩

end

end Quotation.Formula
