import Quotation.Number.Display
import Quotation.Number.Numeral
import Quotation.Text.Quoted

/-!
# Loose values

A form field and a hand-written schema hold values of any kind: nothing, a truth value, a whole
number of any size, a double, text, a list or an object. This module says how such a value is shown,
when it counts as given, which number it is read as and when two values are the same answer.

What stands where a number should be but is none is a value of its own kind. It carries a mark, for
it is the same as itself only.
-/

namespace Quotation

inductive Value where
  | null
  | bool (b : Bool)
  | int (n : Int)
  | float (x : Float)
  /-- The double that is no number. -/
  | nan (mark : Nat)
  | text (s : String)
  | list (items : List Value)
  | object (fields : List (String × Value))

namespace Value

instance : Inhabited Value := ⟨.null⟩

instance : Coe String Value := ⟨.text⟩

/-! ## Showing -/

mutual

/-- A value inside a list or an object, or inside a message about it: text stands between quotes. -/
def quoted : Value → String
  | null => "None"
  | bool b => if b then "True" else "False"
  | int n => toString n
  | float x => Number.fullText x
  | nan _ => Number.fullText Number.notANumber
  | text s => Text.quoted s
  | list items => "[" ++ ", ".intercalate (quotedItems items) ++ "]"
  | object fields => "\x7b" ++ ", ".intercalate (quotedFields fields) ++ "\x7d"

def quotedItems : List Value → List String
  | [] => []
  | item :: items => quoted item :: quotedItems items

def quotedFields : List (String × Value) → List String
  | [] => []
  | (key, value) :: fields => (Text.quoted key ++ ": " ++ quoted value) :: quotedFields fields

end

def shown : Value → String
  | text s => s
  | value => value.quoted

/-! ## Being given -/

/-- Nothing, false, zero and what is empty count as not given. -/
def isGiven : Value → Bool
  | null => false
  | bool b => b
  | int n => n != 0
  | float x => !(x == 0)
  | nan _ => true
  | text s => s != ""
  | list items => !items.isEmpty
  | object fields => !fields.isEmpty

/-- A field that the buyer has left empty. -/
def isBlank : Value → Bool
  | null => true
  | text s => s == ""
  | _ => false

def orElse (value other : Value) : Value := if value.isGiven then value else other

def field? (value : Value) (key : String) : Option Value :=
  match value with
  | object fields => fields.lookup key
  | _ => none

/-! ## Sameness -/

/-- The whole number that a value counts as in a comparison. -/
def wholeNumber? : Value → Option Int
  | bool b => some (if b then 1 else 0)
  | int n => some n
  | float x => Number.wholeNumber? x
  | _ => none

mutual

/-- Whether two values are the same answer. Numbers are compared by size, whatever their kind, and
truth values count as one and zero. -/
def sameAs : Value → Value → Bool
  | null, null => true
  | text s, text t => s == t
  | list xs, list ys => sameItems xs ys
  | object fs, object gs => fs.length == gs.length && sameFields fs gs
  | nan mark, nan other => mark == other
  | float x, float y => x == y || decide (x = y)
  | x, y =>
    match x.wholeNumber?, y.wholeNumber? with
    | some m, some n => m == n
    | _, _ => false

def sameItems : List Value → List Value → Bool
  | [], [] => true
  | x :: xs, y :: ys => sameAs x y && sameItems xs ys
  | _, _ => false

def sameFields : List (String × Value) → List (String × Value) → Bool
  | [], _ => true
  | (key, x) :: fs, gs =>
    (match gs.lookup key with
      | some y => sameAs x y
      | none => false) && sameFields fs gs

end

end Value

/-! ## Faults -/

inductive ValueFault where
  /-- A whole number beyond the largest double. -/
  | tooLarge
  | quotientTooLarge
  | notNumeral (s : String)
  /-- A value of a kind that is never a number. -/
  | notNumeric
  /-- A list or an object, which nothing can be called by. -/
  | notName
  | notText
  deriving DecidableEq

def ValueFault.message : ValueFault → String
  | tooLarge => "int too large to convert to float"
  | quotientTooLarge => "integer division result too large for a float"
  | notNumeral s => "could not convert string to float: " ++ Text.quoted s
  | notNumeric => "a number is expected here"
  | notName => "a name is expected here"
  | notText => "text is expected here"

def ValueFault.isOverflow : ValueFault → Bool
  | tooLarge | quotientTooLarge => true
  | _ => false

/-! ## Reading numbers -/

def intToFloat (n : Int) : Except ValueFault Float :=
  match Number.ofInt n with
  | some x => .ok x
  | none => .error .tooLarge

namespace Value

/-- The number that a value has to be. Text has to be a number from end to end. -/
def toFloat : Value → Except ValueFault Float
  | bool b => .ok (if b then 1 else 0)
  | int n => intToFloat n
  | float x => .ok x
  | nan _ => .ok Number.notANumber
  | text s =>
    match Number.readNumber? s with
    | some x => .ok x
    | none => .error (.notNumeral s)
  | null | list _ | object _ => .error .notNumeric

/-- The number that a value is. Text is not read as a number here. -/
def amount : Value → Except ValueFault Float
  | text _ => .error .notNumeric
  | value => value.toFloat

/-- An amount in plain form. A whole number keeps its own digits, also where doubles are too coarse
for them. -/
def plainText (value : Value) : Except ValueFault String := do
  let x ← value.amount
  match value with
  | int n => return if n.natAbs < Number.plainLimit then toString n else Number.fullText x
  | _ => return Number.plainText x

def unitsText (value : Value) : Except ValueFault String := do
  let x ← value.amount
  match value with
  | int n => return Number.signed (n < 0) (Number.groupThrees (Nat.toDigits 10 n.natAbs))
  | _ => return Number.unitsText x

def leadingNumber? (s : String) : Option Float :=
  match Number.Numeral.scan? (s.toList.dropWhile Text.isBlank) with
  | some (numeral, _) => Number.finite? numeral.toFloat
  | none => none

/-- The number that a form value is read as, if any. Text is read as far as it is a numeral. Truth
values are not numbers here. -/
def number? : Value → Except ValueFault (Option Float)
  | null | bool _ | nan _ => .ok none
  | int n => do return Number.finite? (← intToFloat n)
  | float x => .ok (Number.finite? x)
  | value => .ok (leadingNumber? value.shown)

def numberOrZero (value : Value) : Except ValueFault Float := do
  return (← value.number?).getD 0

/-- The text that a value is compared by when an option is looked up. Numbers are compared by their
plain form, so that `1` and `1.0` choose the same option. -/
def optionKey : Value → Except ValueFault String
  | int n => do return Number.plainText (← intToFloat n)
  | float x => .ok (Number.plainText x)
  | nan _ => .ok (Number.plainText Number.notANumber)
  | value => .ok value.shown

end Value

end Quotation
