import Quotation.Formula.Tree

/-!
# Reading formulas

A sum is a chain of products joined by plus and minus, a product a chain of factors joined by times
and divided by; chains group to the left. A factor is a number, a name, a sum in parentheses, or a
sign before a factor. Parentheses and signs may stand inside each other up to a limit: each reader
is told how much room is left, and what stands beside a part takes nothing of its room.
-/

namespace Quotation.Formula

/-- Reads one part of a formula from the front of a row of tokens and gives back the rest. -/
abbrev Reader := List Token → Except FormulaError (Tree × List Token)

def sumOperator? : Token → Option Operator
  | .symbol .plus => some .add
  | .symbol .minus => some .subtract
  | _ => none

def productOperator? : Token → Option Operator
  | .symbol .times => some .multiply
  | .symbol .divide => some .divide
  | _ => none

def sign? : Token → Option Sign
  | .symbol .plus => some .plus
  | .symbol .minus => some .minus
  | _ => none

/-- Reads on after the first `left` parts of a chain. The count bounds how many parts may follow. -/
def chainFrom (operator? : Token → Option Operator) (part : Reader) : Nat → Tree → Reader
  | 0, left, tokens => .ok (left, tokens)
  | _, left, [] => .ok (left, [])
  | count + 1, left, token :: tokens =>
    match operator? token with
    | none => .ok (left, token :: tokens)
    | some op => do
      let (right, rest) ← part tokens
      chainFrom operator? part count (.binary op left right) rest

def chain (operator? : Token → Option Operator) (part : Reader) : Reader := fun tokens => do
  let (left, rest) ← part tokens
  chainFrom operator? part rest.length left rest

def product (factor : Reader) : Reader := chain productOperator? factor

def sum (factor : Reader) : Reader := chain sumOperator? (product factor)

def closing (tree : Tree) : List Token → Except FormulaError (Tree × List Token)
  | [] => .error .unexpectedEnd
  | token :: rest =>
    if token = .symbol .closing then .ok (tree, rest) else .error .missingClosing

/-- Reads a factor around which `room` more parentheses and signs may stand. -/
def factor (room : Nat) : Reader
  | [] => .error .unexpectedEnd
  | .number digits :: rest => .ok (.number digits.toFloat, rest)
  | .name name :: rest => .ok (.name name, rest)
  | .symbol .opening :: rest =>
    match room with
    | 0 => .error .tooNested
    | room + 1 => do
      let (tree, rest) ← sum (factor room) rest
      closing tree rest
  | token :: rest =>
    match sign? token, room with
    | none, _ => .error (.unexpectedToken token.text)
    | some _, 0 => .error .tooNested
    | some sign, room + 1 => do
      let (operand, rest) ← factor room rest
      return (.signed sign operand, rest)

def parseTokens (tokens : List Token) : Except FormulaError Tree := do
  if tokens.isEmpty then
    throw .empty
  match ← sum (factor FormulaError.nestingLimit) tokens with
  | (tree, []) => return tree
  | (_, token :: _) => throw (.unexpectedToken token.text)

def parse (s : String) : Except FormulaError Tree := do parseTokens (← tokens s)

/-- The tree of a formula as an author wrote it: characters that no formula has are left out. -/
def parseFormula (s : String) : Except FormulaError Tree := parse (keepFormula s)

/-- The names that a formula mentions, sorted; none if it cannot be read. -/
def namesIn (s : String) : List String :=
  match parseFormula s with
  | .ok tree => tree.names.eraseDups.mergeSort
  | .error _ => []

end Quotation.Formula
