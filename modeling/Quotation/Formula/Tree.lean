import Quotation.Formula.Token

/-!
# Formula trees

What a formula says, without the way it is written: numbers and names joined by signs and operators.
-/

namespace Quotation.Formula

inductive Sign where
  | plus
  | minus
  deriving DecidableEq

inductive Operator where
  | add
  | subtract
  | multiply
  | divide
  deriving DecidableEq

def Sign.symbol : Sign → Symbol
  | plus => .plus
  | minus => .minus

def Operator.symbol : Operator → Symbol
  | add => .plus
  | subtract => .minus
  | multiply => .times
  | divide => .divide

inductive Tree where
  | number (x : Float)
  | name (name : String)
  | signed (sign : Sign) (operand : Tree)
  | binary (op : Operator) (left right : Tree)
  deriving DecidableEq

namespace Tree

/-- The names in a tree, from left to right. -/
def names : Tree → List String
  | number _ => []
  | name n => [n]
  | signed _ operand => operand.names
  | binary _ left right => left.names ++ right.names

def depth : Tree → Nat
  | number _ => 1
  | name _ => 1
  | signed _ operand => operand.depth + 1
  | binary _ left right => max left.depth right.depth + 1

end Tree

end Quotation.Formula
