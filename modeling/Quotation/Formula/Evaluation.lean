import Quotation.Formula.Parser

/-!
# The value of a formula

A tree is worked off from left to right, with names read from a binding. Chains are worked off by
descending into their first operand. Three things end this before there is a number: an error of the
formula, a name that stands for what is not a number, and a tree with more levels than there is room
for. A formula takes the last, and a number that is too large, for errors of its own and lets other
faults of values through. A text without names counts as zero for every error of its own.
-/

namespace Quotation.Formula

/-- How many levels of a tree are worked off. This stands for the stack of a machine; what a caller
has already used of it is left out. -/
def depthLimit : Nat := 1000

inductive Halt where
  | formula (cause : FormulaError)
  | value (cause : ValueFault)
  | tooDeep
  deriving DecidableEq

/-- Why a formula has no value. -/
inductive Fault where
  | formula (cause : FormulaError)
  /-- A name stands for what is not a number. -/
  | value (cause : ValueFault)
  deriving DecidableEq

def Operator.apply : Operator → Float → Float → Except Halt Float
  | add, x, y => .ok (x + y)
  | subtract, x, y => .ok (x - y)
  | multiply, x, y => .ok (x * y)
  | divide, x, y => if y == 0 then .error (.formula .divisionByZero) else .ok (x / y)

def Sign.apply : Sign → Float → Float
  | plus, x => x
  | minus, x => -x

def Tree.value (read : String → Except Halt Float) : Nat → Tree → Except Halt Float
  | 0, _ => .error .tooDeep
  | _ + 1, .number x => .ok x
  | _ + 1, .name n => read n
  | levels + 1, .signed sign operand => do return sign.apply (← operand.value read levels)
  | levels + 1, .binary op left right => do
    let x ← left.value read levels
    let y ← right.value read levels
    op.apply x y

def readBinding (bindings : List (String × Value)) (name : String) : Except Halt Float :=
  match bindings.lookup name with
  | none => .error (.formula (.unknownName name))
  | some value => value.toFloat.mapError .value

def work (bindings : List (String × Value)) (s : String) : Except Halt Float := do
  (← (parse s).mapError .formula).value (readBinding bindings) depthLimit

def Halt.toFault : Halt → Fault
  | formula cause => .formula cause
  | value cause => if cause.isOverflow then .formula (.overflow cause) else .value cause
  | tooDeep => .formula .tooLong

/-- The value of a formula in which names stand for the values that they are bound to. -/
def evaluate (formula : String) (bindings : List (String × Value)) : Except Fault Float := do
  let x ← (work bindings (keepFormula formula)).mapError Halt.toFault
  if x.isFinite then return x else throw (.formula .notFinite)

/-- Whether a text without names counts as zero when its working off ends in this way. -/
def Halt.countsAsZero : Halt → Bool
  | formula _ | tooDeep => true
  | value cause => cause.isOverflow

def evaluateArithmetic (s : String) : Except Halt Float :=
  match work [] (keepArithmetic s) with
  | .ok x => .ok (if x.isFinite then x else 0)
  | .error halt => if halt.countsAsZero then .ok 0 else .error halt

end Quotation.Formula
