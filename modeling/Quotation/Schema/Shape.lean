import Quotation.Value

/-!
# Shapes of loose data

What a loose value has to look like: text, a number, a flag, a list of values of one shape or a
record of named fields. Checking a value against a shape gives the value in its exact form, numbers
as doubles and records with their known fields only, or every place where the value differs from the
shape, in the order of the shape. A place is told by the keys that the value itself uses.
-/

namespace Quotation

/-! ## Issues -/

/-- One step into a value: to a field of an object or to an item of a list. -/
inductive PathStep where
  | field (key : String)
  | item (index : Nat)
  deriving DecidableEq

/-- How a value can differ from its shape. -/
inductive Misfit where
  | missing
  | notText
  | emptyText
  | notAllowed
  | notList
  | notRecord
  /-- A text that does not read as a number. -/
  | notNumeral
  | notNumber
  /-- A text or a whole number that does not stand for a flag. -/
  | notFlagWord
  | notFlag
  deriving DecidableEq

def Misfit.label : Misfit → String
  | missing => "missing"
  | notText => "string_type"
  | emptyText => "string_too_short"
  | notAllowed => "literal_error"
  | notList => "list_type"
  | notRecord => "model_type"
  | notNumeral => "float_parsing"
  | notNumber => "float_type"
  | notFlagWord => "bool_parsing"
  | notFlag => "bool_type"

structure Issue where
  path : List PathStep
  misfit : Misfit
  deriving DecidableEq

/-- What a check gives: a value, or all issues in order. -/
abbrev Checked (α : Type) := Except (List Issue) α

namespace Checked

def misfit {α : Type} (m : Misfit) : Checked α := .error [⟨[], m⟩]

def inside {α : Type} (step : PathStep) (checked : Checked α) : Checked α :=
  checked.mapError fun issues => issues.map fun issue => { issue with path := step :: issue.path }

/-- All values, or the issues of all. -/
def all {α : Type} : List (Checked α) → Checked (List α)
  | [] => .ok []
  | .ok a :: rest => (all rest).map (a :: ·)
  | .error issues :: rest =>
    match all rest with
    | .ok _ => .error issues
    | .error more => .error (issues ++ more)

end Checked

/-! ## Single values -/

/-- The number that a row of characters stands for, in the digits 0 to 9 only. -/
def plainNumber? (cs : List Char) : Option Float :=
  if cs.all fun c => c.toNat < 0x80 then Number.readSigned? cs else none

/-- A text without its underscores, if each stands alone and inside. -/
def withoutUnderscores? (cs : List Char) : Option (List Char) :=
  let groups := cs.splitOn '_'
  if groups.length = 1 ∨ groups.any List.isEmpty then none else some groups.flatten

/-- The number that a text stands for. Spaces around a number do not count, nor do single
underscores inside. -/
def looseNumber? (s : String) : Option Float :=
  (plainNumber? (Text.trim Text.isSpace s.toList)).or
    ((withoutUnderscores? s.toList).bind plainNumber?)

def checkNumber : Value → Checked Float
  | .bool b => .ok (if b then 1 else 0)
  | .float x => .ok x
  | .nan _ => .ok Number.notANumber
  | .int n =>
    match Number.ofInt n with
    | some x => .ok x
    | none => .misfit .notNumber
  | .text s =>
    match looseNumber? s with
    | some x => .ok x
    | none => .misfit .notNumeral
  | .null | .list _ | .object _ => .misfit .notNumber

def flagWords : List (String × Bool) :=
  [("0", false), ("off", false), ("f", false), ("false", false), ("n", false), ("no", false),
    ("1", true), ("on", true), ("t", true), ("true", true), ("y", true), ("yes", true)]

def fitsWord (n : Int) : Bool := -0x8000000000000000 ≤ n && n < 0x8000000000000000

def wordFlag (n : Int) : Checked Bool :=
  if n = 0 then .ok false
  else if n = 1 then .ok true
  else .misfit .notFlagWord

/-- The flag that a value stands for. A double is read as a word only if the word fits with either
sign. -/
def checkFlag : Value → Checked Bool
  | .bool b => .ok b
  | .text s =>
    match flagWords.lookup (String.ofList (s.toList.map Char.toLower)) with
    | some b => .ok b
    | none => .misfit .notFlagWord
  | .int n => if fitsWord n then wordFlag n else .misfit .notFlag
  | .float x =>
    match Number.wholeNumber? x with
    | some n => if fitsWord n && fitsWord (-n) then wordFlag n else .misfit .notFlag
    | none => .misfit .notFlag
  | .null | .nan _ | .list _ | .object _ => .misfit .notFlag

def checkText : Value → Checked String
  | .text s => .ok s
  | _ => .misfit .notText

def checkNonEmptyText : Value → Checked String
  | .text s => if s = "" then .misfit .emptyText else .ok s
  | _ => .misfit .notText

def checkOneOf (labels : List String) : Value → Checked String
  | .text s => if s ∈ labels then .ok s else .misfit .notAllowed
  | _ => .misfit .notAllowed

/-! ## Shapes -/

mutual

inductive Shape where
  | text
  | nonEmptyText
  | oneOf (labels : List String)
  | number
  | flag
  | optional (shape : Shape)
  | list (item : Shape)
  | record (fields : List FieldShape)

/-- A field of a record. It may stand under a second key, which counts if the first is missing. A
field without a default has to be there. -/
structure FieldShape where
  key : String
  otherKey : Option String
  default : Option Value
  shape : Shape

end

def givenField? (given : List (String × Value)) (key : String) : Option (String × Value) :=
  (given.lookup key).map (key, ·)

/-- The value of a field of an object, with the key that it stands under, or its default. -/
def fieldOrDefault (given : List (String × Value)) (key : String) (otherKey : Option String)
    (default : Option Value) : Option (String × Value) :=
  (givenField? given key).or ((otherKey.bind (givenField? given)).or (default.map (key, ·)))

def withoutNulls (fields : List (String × Value)) : List (String × Value) :=
  fields.filter fun (_, value) =>
    match value with
    | .null => false
    | _ => true

mutual

/-- The exact form of a value of a shape. A field that holds nothing is left out of a record. -/
def Shape.check : Shape → Value → Checked Value
  | .text, value => (checkText value).map .text
  | .nonEmptyText, value => (checkNonEmptyText value).map .text
  | .oneOf labels, value => (checkOneOf labels value).map .text
  | .number, value => (checkNumber value).map .float
  | .flag, value => (checkFlag value).map .bool
  | .optional shape, value =>
    match value with
    | .null => .ok .null
    | value => shape.check value
  | .list item, value =>
    match value with
    | .list values =>
      (Checked.all (values.mapIdx fun i value => (item.check value).inside (.item i))).map .list
    | _ => .misfit .notList
  | .record fields, value =>
    match value with
    | .object given =>
      (Checked.all (Shape.checkFields fields given)).map fun checked =>
        .object (withoutNulls checked)
    | _ => .misfit .notRecord

def Shape.checkFields : List FieldShape → List (String × Value) → List (Checked (String × Value))
  | [], _ => []
  | field :: fields, given => Shape.checkField field given :: Shape.checkFields fields given

def Shape.checkField : FieldShape → List (String × Value) → Checked (String × Value)
  | ⟨key, otherKey, default, shape⟩, given =>
    (match fieldOrDefault given key otherKey default with
      | some (found, value) => (shape.check value).inside (.field found)
      | none => (Checked.misfit .missing).inside (.field key)).map fun value => (key, value)

end

end Quotation
