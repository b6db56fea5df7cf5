import Quotation.Value

/-!
# What can be wrong with a formula

The errors of a formula, and how each is told to the author of the schema. What else can end the
working off of a formula is no error of the formula and is told apart from these.
-/

namespace Quotation

inductive FormulaError where
  /-- No token starts after the given count of characters; `c` is the character there. -/
  | unexpectedCharacter (c : Char) (position : Nat)
  | empty
  | unexpectedEnd
  | unexpectedToken (text : String)
  | missingClosing
  | tooNested
  | unknownName (name : String)
  | divisionByZero
  | notFinite
  /-- A name stands for a number beyond the largest double. -/
  | overflow (cause : ValueFault)
  /-- The formula is a chain of more operators than can be worked off. -/
  | tooLong
  deriving DecidableEq

namespace FormulaError

/-- How many parentheses and signs may stand around a part of a formula. -/
def nestingLimit : Nat := 100

def message : FormulaError → String
  | unexpectedCharacter c position =>
    "Unexpected character " ++ Text.quoted c.toString ++ " at position " ++ toString position
  | empty => "Empty expression"
  | unexpectedEnd => "Unexpected end of expression"
  | unexpectedToken text => "Unexpected token " ++ Text.quoted text
  | missingClosing => "Expected ')'"
  | tooNested => "Expression nested deeper than " ++ toString nestingLimit ++ " levels"
  | unknownName name => "Unknown name " ++ Text.quoted name
  | divisionByZero => "Division by zero"
  | notFinite => "Formula produced a non-finite result"
  | overflow cause => "Formula could not be evaluated: " ++ cause.message
  | tooLong => "Formula could not be evaluated: too many operators in a row"

end FormulaError

end Quotation
