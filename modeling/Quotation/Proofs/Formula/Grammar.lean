import Quotation.Formula.Parser
import Quotation.Proofs.Except

/-!
# The grammar of formulas

    sum     := product (('+' | '-') product)*
    product := factor (('*' | '/') factor)*
    factor  := ('+' | '-') factor | atom
    atom    := number | name | '(' sum ')'

The readers accept exactly the rows of tokens that this grammar derives with few enough parentheses
and signs around each number and name, and give the tree of the derivation.
-/

namespace Quotation.Formula

/-! ## Derivations -/

inductive Part where
  | sum
  | product
  | factor
  | atom

/-- Which parts an operator joins, and to which chain. -/
inductive Joins : Operator → Part → Part → Prop where
  | add : Joins .add .sum .product
  | subtract : Joins .subtract .sum .product
  | multiply : Joins .multiply .product .factor
  | divide : Joins .divide .product .factor

/-- `Derives part tokens tree depth`: the row of tokens is such a part and has this tree. The depth is
the largest number of parentheses and signs, counted together, around one number or name of it. -/
inductive Derives : Part → List Token → Tree → Nat → Prop where
  | number (digits : Number.Mantissa) : Derives .atom [.number digits] (.number digits.toFloat) 0
  | name (name : String) : Derives .atom [.name name] (.name name) 0
  | parentheses {tokens tree depth} :
      Derives .sum tokens tree depth →
      Derives .atom (.symbol .opening :: tokens ++ [.symbol .closing]) tree (depth + 1)
  | atom {tokens tree depth} : Derives .atom tokens tree depth → Derives .factor tokens tree depth
  | signed (sign : Sign) {tokens tree depth} :
      Derives .factor tokens tree depth →
      Derives .factor (.symbol sign.symbol :: tokens) (.signed sign tree) (depth + 1)
  | factor {tokens tree depth} :
      Derives .factor tokens tree depth → Derives .product tokens tree depth
  | product {tokens tree depth} :
      Derives .product tokens tree depth → Derives .sum tokens tree depth
  /-- Chains group to the left. What stands on one side does not count on the other. -/
  | chain {op whole part left right l r m n} :
      Joins op whole part → Derives whole left l m → Derives part right r n →
      Derives whole (left ++ .symbol op.symbol :: right) (.binary op l r) (max m n)

theorem Derives.ne_nil {part : Part} {tokens : List Token} {tree : Tree} {depth : Nat}
    (h : Derives part tokens tree depth) : tokens ≠ [] := by
  induction h with
  | atom _ ih | factor _ ih | product _ ih => exact ih
  | number | name | parentheses | signed | chain => simp

theorem Derives.toSum {op : Operator} {whole part : Part} (hop : Joins op whole part)
    {tokens : List Token} {tree : Tree} {depth : Nat} (h : Derives whole tokens tree depth) :
    Derives .sum tokens tree depth := by
  cases hop with
  | add | subtract => exact h
  | multiply | divide => exact .product h

/-! ## Operators -/

theorem sumOperator?_eq_some {token : Token} {op : Operator} :
    sumOperator? token = some op ↔ token = .symbol op.symbol ∧ Joins op .sum .product := by
  constructor
  · intro h
    unfold sumOperator? at h
    split at h <;> cases h
    · exact ⟨rfl, .add⟩
    · exact ⟨rfl, .subtract⟩
  · rintro ⟨rfl, hop⟩
    cases hop <;> rfl

theorem productOperator?_eq_some {token : Token} {op : Operator} :
    productOperator? token = some op ↔ token = .symbol op.symbol ∧ Joins op .product .factor := by
  constructor
  · intro h
    unfold productOperator? at h
    split at h <;> cases h
    · exact ⟨rfl, .multiply⟩
    · exact ⟨rfl, .divide⟩
  · rintro ⟨rfl, hop⟩
    cases hop <;> rfl

theorem sign?_eq_some {token : Token} {sign : Sign} :
    sign? token = some sign ↔ token = .symbol sign.symbol := by
  constructor
  · intro h
    unfold sign? at h
    split at h <;> cases h <;> rfl
  · rintro rfl
    cases sign <;> rfl

def Ends (operator? : Token → Option Operator) (rest : List Token) : Prop :=
  ∀ token ∈ rest.head?, operator? token = none

theorem ends_closing (rest : List Token) :
    Ends sumOperator? (.symbol .closing :: rest) ∧
      Ends productOperator? (.symbol .closing :: rest) := by
  constructor <;> (rintro token ⟨⟩; rfl)

/-! ## What is read is derived -/

def Sound (part : Part) (room : Nat) (reader : Reader) : Prop :=
  ∀ tokens tree rest, reader tokens = .ok (tree, rest) →
    ∃ front depth, tokens = front ++ rest ∧ Derives part front tree depth ∧ depth ≤ room

section

variable {operator? : Token → Option Operator} {whole part : Part} {room : Nat} {reader : Reader}

theorem chainFrom_sound
    (hop : ∀ token op, operator? token = some op ↔ token = .symbol op.symbol ∧ Joins op whole part)
    (hreader : Sound part room reader) {count : Nat} {front tokens rest : List Token}
    {left tree : Tree} {depth : Nat} (hleft : Derives whole front left depth) (hdepth : depth ≤ room)
    (h : chainFrom operator? reader count left tokens = .ok (tree, rest)) :
    ∃ more deep, tokens = more ++ rest ∧ Derives whole (front ++ more) tree deep ∧ deep ≤ room := by
  induction count generalizing front tokens left depth with
  | zero =>
    cases h
    exact ⟨[], depth, rfl, by simpa using hleft, hdepth⟩
  | succ count ih =>
    cases tokens with
    | nil =>
      cases h
      exact ⟨[], depth, rfl, by simpa using hleft, hdepth⟩
    | cons token tokens =>
      rw [chainFrom] at h
      split at h
      · cases h
        exact ⟨[], depth, rfl, by simpa using hleft, hdepth⟩
      · rename_i op heq
        obtain ⟨rfl, hjoins⟩ := (hop _ _).mp heq
        obtain ⟨⟨right, after⟩, hright, hafter⟩ := bind_eq_ok.mp h
        obtain ⟨middle, deep, rfl, hmiddle, hdeep⟩ := hreader _ _ _ hright
        have hchain := Derives.chain hjoins hleft hmiddle
        obtain ⟨more, deepest, rfl, hmore, hle⟩ :=
          ih hchain (Nat.max_le.mpr ⟨hdepth, hdeep⟩) hafter
        refine ⟨.symbol op.symbol :: (middle ++ more), deepest, by simp, ?_, hle⟩
        simpa using hmore

theorem chain_sound
    (hop : ∀ token op, operator? token = some op ↔ token = .symbol op.symbol ∧ Joins op whole part)
    (hwhole : ∀ {tokens tree depth}, Derives part tokens tree depth → Derives whole tokens tree depth)
    (hreader : Sound part room reader) : Sound whole room (chain operator? reader) := by
  intro tokens tree rest h
  obtain ⟨⟨left, after⟩, hleft, hafter⟩ := bind_eq_ok.mp h
  obtain ⟨front, depth, rfl, hfront, hdepth⟩ := hreader _ _ _ hleft
  obtain ⟨more, deep, rfl, hmore, hdeep⟩ :=
    chainFrom_sound hop hreader (hwhole hfront) hdepth hafter
  exact ⟨front ++ more, deep, by simp, hmore, hdeep⟩

end

theorem product_sound {room : Nat} {factor : Reader} (h : Sound .factor room factor) :
    Sound .product room (product factor) :=
  chain_sound (fun _ _ => productOperator?_eq_some) .factor h

theorem sum_sound {room : Nat} {factor : Reader} (h : Sound .factor room factor) :
    Sound .sum room (sum factor) :=
  chain_sound (fun _ _ => sumOperator?_eq_some) .product (product_sound h)

theorem closing_eq_ok {tree read : Tree} {tokens rest : List Token} :
    closing tree tokens = .ok (read, rest) ↔ read = tree ∧ tokens = .symbol .closing :: rest := by
  cases tokens with
  | nil => simp [closing]
  | cons token tokens =>
    rw [closing]
    by_cases htoken : token = .symbol .closing
    · simp [htoken, eq_comm]
    · simp [htoken]

theorem factor_eq_ok {room : Nat} {tokens rest : List Token} {tree : Tree} :
    factor room tokens = .ok (tree, rest) ↔
      (∃ digits, tokens = .number digits :: rest ∧ tree = .number digits.toFloat) ∨
      (∃ name, tokens = .name name :: rest ∧ tree = .name name) ∨
      (∃ less inner, room = less + 1 ∧ tokens = .symbol .opening :: inner ∧
        sum (factor less) inner = .ok (tree, .symbol .closing :: rest)) ∨
      (∃ less sign inner operand, room = less + 1 ∧ tokens = .symbol sign.symbol :: inner ∧
        factor less inner = .ok (operand, rest) ∧ tree = .signed sign operand) := by
  constructor
  · intro h
    unfold factor at h
    split at h
    · cases h
    · cases h
      exact .inl ⟨_, rfl, rfl⟩
    · cases h
      exact .inr (.inl ⟨_, rfl, rfl⟩)
    · rename_i inner
      cases room with
      | zero => cases h
      | succ less =>
        obtain ⟨⟨read, after⟩, hread, hclosing⟩ := bind_eq_ok.mp h
        obtain ⟨rfl, rfl⟩ := closing_eq_ok.mp hclosing
        exact .inr (.inr (.inl ⟨less, inner, rfl, rfl, hread⟩))
    · rename_i token inner _ _ _
      split at h
      · cases h
      · cases h
      · rename_i sign less hsign
        obtain ⟨⟨operand, after⟩, hoperand, hrest⟩ := bind_eq_ok.mp h
        cases hrest
        obtain rfl := sign?_eq_some.mp hsign
        exact .inr (.inr (.inr ⟨less, sign, inner, operand, rfl, rfl, hoperand, rfl⟩))
  · rintro (⟨digits, rfl, rfl⟩ | ⟨name, rfl, rfl⟩ | ⟨less, inner, rfl, rfl, h⟩ |
      ⟨less, sign, inner, operand, rfl, rfl, h, rfl⟩)
    · unfold factor; rfl
    · unfold factor; rfl
    · simp [factor, h, closing]
    · cases sign <;> simp [factor, Sign.symbol, sign?, h, pure, Except.pure]

theorem factor_sound (room : Nat) : Sound .factor room (factor room) := by
  induction room using Nat.strongRecOn with
  | _ room ih =>
    intro tokens tree rest h
    rcases factor_eq_ok.mp h with ⟨digits, rfl, rfl⟩ | ⟨name, rfl, rfl⟩ |
      ⟨less, inner, rfl, rfl, hinner⟩ | ⟨less, sign, inner, operand, rfl, rfl, hinner, rfl⟩
    · exact ⟨[_], 0, rfl, .atom (.number _), Nat.zero_le _⟩
    · exact ⟨[_], 0, rfl, .atom (.name _), Nat.zero_le _⟩
    · obtain ⟨front, depth, rfl, hfront, hdepth⟩ := sum_sound (ih less (by omega)) _ _ _ hinner
      exact ⟨_, _, by simp, .atom (.parentheses hfront), by omega⟩
    · obtain ⟨front, depth, rfl, hfront, hdepth⟩ := ih less (by omega) _ _ _ hinner
      exact ⟨_, _, by simp, .signed sign hfront, by omega⟩

/-! ## What is derived is read -/

theorem chainFrom_ends {operator? : Token → Option Operator} {rest : List Token}
    (h : Ends operator? rest) (reader : Reader) (count : Nat) (tree : Tree) :
    chainFrom operator? reader count tree rest = .ok (tree, rest) := by
  cases count with
  | zero => rfl
  | succ count =>
    cases rest with
    | nil => rfl
    | cons token rest => rw [chainFrom, h token rfl]

/-- Reading a chain from the front comes to this: its derivation is done, and more parts may follow.
The count allows for as many as there can be. -/
def Continues (operator? : Token → Option Operator) (part : Reader) (tokens : List Token)
    (tree : Tree) (rest : List Token) : Prop :=
  ∃ count, rest.length ≤ count ∧
    chain operator? part (tokens ++ rest) = chainFrom operator? part count tree rest

section

variable {operator? : Token → Option Operator} {part : Reader} {tokens rest : List Token}
  {tree : Tree}

theorem Continues.start (h : part (tokens ++ rest) = .ok (tree, rest)) :
    Continues operator? part tokens tree rest := by
  refine ⟨rest.length, Nat.le_refl _, ?_⟩
  simp [chain, h]

theorem Continues.next {op : Operator} {token : Token} {left : List Token} {l : Tree}
    (hop : operator? token = some op)
    (h : Continues operator? part left l (token :: tokens ++ rest))
    (hpart : part (tokens ++ rest) = .ok (tree, rest)) :
    Continues operator? part (left ++ token :: tokens) (.binary op l tree) rest := by
  obtain ⟨count, hcount, hchain⟩ := h
  cases count with
  | zero => simp at hcount
  | succ count =>
    refine ⟨count, by simp at hcount; omega, ?_⟩
    rw [List.append_assoc, hchain, List.cons_append, chainFrom, hop]
    simp [hpart]

theorem Continues.finish (h : Continues operator? part tokens tree rest)
    (hrest : Ends operator? rest) : chain operator? part (tokens ++ rest) = .ok (tree, rest) := by
  obtain ⟨count, -, hchain⟩ := h
  rw [hchain, chainFrom_ends hrest]

end

def ReadBefore (room : Nat) (tokens : List Token) (tree : Tree) (rest : List Token) : Part → Prop
  | .sum => Ends productOperator? rest →
      Continues sumOperator? (product (factor room)) tokens tree rest
  | .product => Continues productOperator? (factor room) tokens tree rest
  | .factor | .atom => factor room (tokens ++ rest) = .ok (tree, rest)

theorem readBefore_of_derives {part : Part} {tokens : List Token} {tree : Tree} {depth : Nat}
    (h : Derives part tokens tree depth) {room : Nat} (hroom : depth ≤ room) (rest : List Token) :
    ReadBefore room tokens tree rest part := by
  induction h generalizing room rest with
  | number digits => exact factor_eq_ok.mpr (.inl ⟨digits, rfl, rfl⟩)
  | name name => exact factor_eq_ok.mpr (.inr (.inl ⟨name, rfl, rfl⟩))
  | parentheses _ ih =>
    obtain ⟨less, rfl⟩ : ∃ less, room = less + 1 := ⟨room - 1, by omega⟩
    have hends := ends_closing rest
    have hinner := (@ih less (by omega) (.symbol .closing :: rest) hends.2).finish hends.1
    exact factor_eq_ok.mpr (.inr (.inr (.inl ⟨less, _, rfl, rfl, by simpa [sum] using hinner⟩)))
  | atom _ ih => exact ih hroom rest
  | signed sign _ ih =>
    obtain ⟨less, rfl⟩ : ∃ less, room = less + 1 := ⟨room - 1, by omega⟩
    have hinner := @ih less (by omega) rest
    exact factor_eq_ok.mpr (.inr (.inr (.inr ⟨less, sign, _, _, rfl, rfl, hinner, rfl⟩)))
  | factor _ ih => exact Continues.start (ih hroom rest)
  | product _ ih => exact fun hends => Continues.start ((ih hroom rest).finish hends)
  | chain hop _ _ ihleft ihright =>
    have hl := ihleft (Nat.le_trans (Nat.le_max_left _ _) hroom)
    have hr := ihright (Nat.le_trans (Nat.le_max_right _ _) hroom) rest
    cases hop with
    | add | subtract =>
      intro hends
      exact (hl _ (by rintro token ⟨⟩; rfl)).next rfl (hr.finish hends)
    | multiply | divide => exact (hl _).next rfl hr

/-! ## Why a row is refused -/

/-- What is wrong with a row of tokens that is no part. -/
inductive Refusal (tokens : List Token) : FormulaError → Prop where
  | unexpectedEnd : Refusal tokens .unexpectedEnd
  | unexpectedToken {token} : token ∈ tokens → Refusal tokens (.unexpectedToken token.text)
  | missingClosing : Refusal tokens .missingClosing
  | tooNested : Refusal tokens .tooNested

theorem Refusal.mono {tokens row : List Token} {e : FormulaError} (h : Refusal tokens e)
    (hsub : tokens ⊆ row) : Refusal row e := by
  cases h with
  | unexpectedEnd => exact .unexpectedEnd
  | unexpectedToken hmem => exact .unexpectedToken (hsub hmem)
  | missingClosing => exact .missingClosing
  | tooNested => exact .tooNested

/-- A reader refuses a row for such a reason, and leaves a part of a row that it does not refuse. -/
structure Refuses (reader : Reader) : Prop where
  refusal : ∀ {tokens e}, reader tokens = .error e → Refusal tokens e
  rest : ∀ {tokens tree rest}, reader tokens = .ok (tree, rest) → rest ⊆ tokens

theorem Sound.rest_subset {part : Part} {room : Nat} {reader : Reader} (h : Sound part room reader)
    {tokens rest : List Token} {tree : Tree} (hread : reader tokens = .ok (tree, rest)) :
    rest ⊆ tokens := by
  obtain ⟨front, depth, rfl, -⟩ := h _ _ _ hread
  exact List.subset_append_right front rest

theorem chainFrom_refuses {operator? : Token → Option Operator} {part : Reader}
    (hpart : Refuses part) {count : Nat} {left : Tree} {tokens : List Token} {e : FormulaError}
    (h : chainFrom operator? part count left tokens = .error e) : Refusal tokens e := by
  induction count generalizing left tokens with
  | zero => cases h
  | succ count ih =>
    cases tokens with
    | nil => cases h
    | cons token tokens =>
      rw [chainFrom] at h
      split at h
      · cases h
      · rcases bind_eq_error.mp h with h | ⟨⟨right, rest⟩, hright, h⟩
        · exact (hpart.refusal h).mono (List.subset_cons_self ..)
        · exact (ih h).mono (List.subset_cons_of_subset _ (hpart.rest hright))

theorem chain_refuses {operator? : Token → Option Operator} {part : Reader} (hpart : Refuses part)
    {tokens : List Token} {e : FormulaError} (h : chain operator? part tokens = .error e) :
    Refusal tokens e := by
  rcases bind_eq_error.mp h with h | ⟨⟨left, rest⟩, hleft, h⟩
  · exact hpart.refusal h
  · exact (chainFrom_refuses hpart h).mono (hpart.rest hleft)

theorem sum_refuses {room : Nat} (h : Refuses (factor room)) : Refuses (sum (factor room)) := by
  have hproduct := product_sound (factor_sound room)
  refine ⟨chain_refuses ⟨chain_refuses h, hproduct.rest_subset⟩, ?_⟩
  exact (sum_sound (factor_sound room)).rest_subset

theorem closing_refuses {tree : Tree} {tokens : List Token} {e : FormulaError}
    (h : closing tree tokens = .error e) : Refusal tokens e := by
  cases tokens with
  | nil =>
    cases h
    exact .unexpectedEnd
  | cons token tokens =>
    rw [closing] at h
    split at h <;> cases h
    exact .missingClosing

theorem factor_refuses (room : Nat) : Refuses (factor room) := by
  refine ⟨?_, (factor_sound room).rest_subset⟩
  induction room using Nat.strongRecOn with
  | _ room ih =>
    intro tokens e h
    have hless : ∀ less, less < room → Refuses (factor less) :=
      fun less hless => ⟨ih less hless, (factor_sound less).rest_subset⟩
    unfold factor at h
    split at h
    · cases h
      exact .unexpectedEnd
    · cases h
    · cases h
    · cases room with
      | zero =>
        cases h
        exact .tooNested
      | succ less =>
        have hsum := sum_refuses (hless less (Nat.lt_succ_self less))
        rcases bind_eq_error.mp h with h | ⟨⟨tree, rest⟩, hread, h⟩
        · exact (hsum.refusal h).mono (List.subset_cons_self ..)
        · exact (closing_refuses h).mono (List.subset_cons_of_subset _ (hsum.rest hread))
    · split at h
      · cases h
        exact .unexpectedToken (List.mem_cons_self ..)
      · cases h
        exact .tooNested
      · rename_i sign less hsign
        rcases bind_eq_error.mp h with h | ⟨⟨operand, rest⟩, -, h⟩
        · exact (ih less (Nat.lt_succ_self less) h).mono (List.subset_cons_self ..)
        · cases h

/-! ## Rows of tokens -/

theorem sum_of_derives {tokens : List Token} {tree : Tree} {depth room : Nat}
    (h : Derives .sum tokens tree depth) (hroom : depth ≤ room) :
    sum (factor room) tokens = .ok (tree, []) := by
  have hends : Ends productOperator? [] ∧ Ends sumOperator? [] := ⟨nofun, nofun⟩
  simpa [sum] using (readBefore_of_derives h hroom [] hends.1).finish hends.2

theorem tree_unique {tokens : List Token} {tree other : Tree} {m n : Nat}
    (h : Derives .sum tokens tree m) (hother : Derives .sum tokens other n) : tree = other := by
  have hread := sum_of_derives h (Nat.le_max_left m n)
  rw [sum_of_derives hother (Nat.le_max_right m n)] at hread
  cases hread
  rfl

theorem parseTokens_eq_ok {tokens : List Token} {tree : Tree} :
    parseTokens tokens = .ok tree ↔
      ∃ depth, Derives .sum tokens tree depth ∧ depth ≤ FormulaError.nestingLimit := by
  unfold parseTokens
  constructor
  · intro h
    split at h
    · cases h
    · obtain ⟨⟨read, rest⟩, hread, hrest⟩ := bind_eq_ok.mp h
      cases rest with
      | cons => cases hrest
      | nil =>
        cases hrest
        obtain ⟨front, depth, rfl, hfront, hdepth⟩ := sum_sound (factor_sound _) _ _ _ hread
        exact ⟨depth, by simpa using hfront, hdepth⟩
  · rintro ⟨depth, h, hdepth⟩
    have hne : tokens.isEmpty = false := by simpa using h.ne_nil
    rw [hne, sum_of_derives h hdepth]
    rfl

theorem parseTokens_error {tokens : List Token} {error : FormulaError}
    (h : parseTokens tokens = .error error) :
    tokens = [] ∧ error = .empty ∨ Refusal tokens error := by
  cases tokens with
  | nil =>
    cases h
    exact .inl ⟨rfl, rfl⟩
  | cons token tokens =>
    refine .inr ?_
    have hsum := sum_refuses (factor_refuses FormulaError.nestingLimit)
    rcases bind_eq_error.mp h with h | ⟨⟨tree, rest⟩, hread, h⟩
    · exact hsum.refusal h
    · cases rest with
      | nil => cases h
      | cons token rest =>
        cases h
        exact .unexpectedToken (hsum.rest hread (List.mem_cons_self ..))

/-- The readers accept exactly what the grammar derives within the limit, and refuse all else, for
what is wrong with the row. A row of tokens has one tree at most, whatever its depth, and parts side
by side have the whole limit each. -/
theorem parseTokens_accepts_grammar (tokens : List Token) :
    (∀ tree, parseTokens tokens = .ok tree ↔
      ∃ depth, Derives .sum tokens tree depth ∧ depth ≤ FormulaError.nestingLimit) ∧
    ((∃ error, parseTokens tokens = .error error) ↔
      ¬ ∃ tree depth, Derives .sum tokens tree depth ∧ depth ≤ FormulaError.nestingLimit) ∧
    (∀ error, parseTokens tokens = .error error →
      tokens = [] ∧ error = .empty ∨ Refusal tokens error) ∧
    (∀ tree other m n,
      Derives .sum tokens tree m → Derives .sum tokens other n → tree = other) ∧
    (∀ op whole part right l r m n, Joins op whole part →
      Derives whole tokens l m → Derives part right r n →
      m ≤ FormulaError.nestingLimit → n ≤ FormulaError.nestingLimit →
      parseTokens (tokens ++ .symbol op.symbol :: right) = .ok (.binary op l r)) := by
  refine ⟨fun _ => parseTokens_eq_ok, ?_, fun _ => parseTokens_error, fun _ _ _ _ => tree_unique,
    ?_⟩
  · constructor
    · rintro ⟨error, h⟩ ⟨tree, hderived⟩
      rw [parseTokens_eq_ok.mpr hderived] at h
      cases h
    · intro hnone
      cases h : parseTokens tokens with
      | ok tree => exact absurd ⟨tree, parseTokens_eq_ok.mp h⟩ hnone
      | error error => exact ⟨error, rfl⟩
  · intro op whole part right l r m n hop hleft hright hm hn
    have hchain := Derives.chain hop hleft hright
    exact parseTokens_eq_ok.mpr ⟨max m n, hchain.toSum hop, Nat.max_le.mpr ⟨hm, hn⟩⟩

end Quotation.Formula
