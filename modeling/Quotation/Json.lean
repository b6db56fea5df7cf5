import Quotation.Text.Half
import Quotation.Value

/-!
# Reading JSON

The value that a JSON text stands for. Besides the standard the names of the three doubles that are
not finite are read. Of two fields with one key the later counts. A text is read from front to back,
up to the first fault: it is not JSON, or it goes beyond what is read of whole numbers and of nested
lists and objects.
-/

namespace Quotation.Json

/-! ## Faults -/

/-- How many digits a whole number may have. -/
def digitLimit : Nat := 4300

/-- How many lists and objects may stand around a value. -/
def depthLimit : Nat := 980

inductive Fault where
  | notJson
  /-- A whole number has more digits than the limit. -/
  | tooLong (digits : Nat)
  | tooNested
  deriving DecidableEq

def Fault.message : Fault → String
  | notJson => "not valid JSON"
  | tooLong digits =>
    "Exceeds the limit (" ++ toString digitLimit ++ " digits) for integer string conversion: " ++
      "value has " ++ toString digits ++
      " digits; use sys.set_int_max_str_digits() to increase the limit"
  | tooNested => "nested too deeply"

/-! ## Blanks -/

def isJsonBlank (c : Char) : Bool := c == ' ' || c == '\t' || c == '\n' || c == '\r'

def skipBlanks (cs : List Char) : List Char := cs.dropWhile isJsonBlank

/-- What follows a given row of characters at the front of a text. -/
def after? : List Char → List Char → Option (List Char)
  | [], cs => some cs
  | _ :: _, [] => none
  | x :: xs, c :: cs => if x = c then after? xs cs else none

/-! ## Strings -/

def hexDigit? (c : Char) : Option Nat :=
  if c.isDigit then some (c.toNat - '0'.toNat)
  else if 'a' ≤ c ∧ c ≤ 'f' then some (c.toNat - 'a'.toNat + 10)
  else if 'A' ≤ c ∧ c ≤ 'F' then some (c.toNat - 'A'.toNat + 10)
  else none

def hexCode? (a b c d : Char) : Option Nat := do
  return (((← hexDigit? a) * 16 + (← hexDigit? b)) * 16 + (← hexDigit? c)) * 16 + (← hexDigit? d)

def codeChar (code : Nat) : Char :=
  if Text.isHalfCode code then Text.ofHalfCode code else Char.ofNat code

/-- The character that the two halves of a pair stand for. -/
def pairChar? (high low : Nat) : Option Char :=
  if 0xD800 ≤ high ∧ high < 0xDC00 ∧ 0xDC00 ≤ low ∧ low < 0xE000 then
    some (Char.ofNat (0x10000 + (high - 0xD800) * 0x400 + (low - 0xDC00)))
  else
    none

def escaped? (c : Char) : Option Char :=
  [('"', '"'), ('\\', '\\'), ('/', '/'), ('b', '\x08'), ('f', '\x0c'), ('n', '\n'), ('r', '\r'),
    ('t', '\t')].lookup c

/-- Reads a string behind its opening quote. The characters read so far are in reverse. -/
def readString (read : List Char) : List Char → Except Fault (String × List Char)
  | [] => .error .notJson
  | '"' :: rest => .ok (String.ofList read.reverse, rest)
  | '\\' :: 'u' :: a :: b :: c :: d :: '\\' :: 'u' :: e :: f :: g :: h :: rest =>
    match hexCode? a b c d with
    | none => .error .notJson
    | some high =>
      match (hexCode? e f g h).bind (pairChar? high) with
      | some c => readString (c :: read) rest
      | none => readString (codeChar high :: read) ('\\' :: 'u' :: e :: f :: g :: h :: rest)
  | '\\' :: 'u' :: a :: b :: c :: d :: rest =>
    match hexCode? a b c d with
    | some code => readString (codeChar code :: read) rest
    | none => .error .notJson
  | '\\' :: c :: rest =>
    match escaped? c with
    | some c => readString (c :: read) rest
    | none => .error .notJson
  | c :: rest =>
    if c.toNat < 0x20 || c == '\\' then .error .notJson else readString (c :: read) rest

/-! ## Numbers -/

def readDigits (cs : List Char) : List Char × List Char :=
  (cs.takeWhile Char.isDigit, cs.dropWhile Char.isDigit)

def readFraction : List Char → Option (List Char) × List Char
  | '.' :: rest =>
    let (digits, after) := readDigits rest
    if digits.isEmpty then (none, '.' :: rest) else (some digits, after)
  | cs => (none, cs)

def readPower (cs : List Char) : Option Int × List Char :=
  match cs with
  | c :: rest =>
    if c = 'e' ∨ c = 'E' then
      let (negative, rest) := Number.scanSign rest
      let (digits, after) := readDigits rest
      let size : Int := Text.digitsValue digits
      if digits.isEmpty then (none, cs) else (some (if negative then -size else size), after)
    else (none, cs)
  | [] => (none, cs)

/-- Reads a number: a whole number unless it has a fraction or a power of ten. -/
def readNumber (cs : List Char) : Except Fault (Value × List Char) :=
  let (negative, unsigned) :=
    match cs with
    | '-' :: rest => (true, rest)
    | _ => (false, cs)
  let (whole, rest) :=
    match unsigned with
    | '0' :: rest => (['0'], rest)
    | _ => readDigits unsigned
  if whole.isEmpty then .error .notJson
  else
    let (fraction, rest) := readFraction rest
    let (power, rest) := readPower rest
    if fraction.isNone && power.isNone then
      if whole.length ≤ digitLimit then
        let size : Int := Text.digitsValue whole
        .ok (.int (if negative then -size else size), rest)
      else
        .error (.tooLong whole.length)
    else
      let numeral : Number.Numeral := ⟨negative, ⟨whole, fraction⟩, power.getD 0⟩
      .ok (.float numeral.toFloat, rest)

/-- The words of JSON, and the names of doubles that are not finite. -/
def words : List (List Char × Value) :=
  [("null".toList, .null), ("true".toList, .bool true), ("false".toList, .bool false),
    ("NaN".toList, .nan 0), ("Infinity".toList, .float (Number.infinity false)),
    ("-Infinity".toList, .float (Number.infinity true))]

def readWord (cs : List Char) : Option (Value × List Char) :=
  words.findSome? fun (word, value) => (after? word cs).map fun rest => (value, rest)

/-- Reads a value that holds no others. -/
def readSingle (cs : List Char) : Except Fault (Value × List Char) :=
  match readWord cs with
  | some reading => .ok reading
  | none => readNumber cs

/-! ## Values -/

/-- Gives a key of an object a value, in its old place or at the end. -/
def setField (key : String) (value : Value) : List (String × Value) → List (String × Value)
  | [] => [(key, value)]
  | field :: fields =>
    if field.1 = key then (key, value) :: fields else field :: setField key value fields

mutual

/-- Reads a value, blanks before it skipped, that may hold so many levels of others. The count
bounds the steps; every step takes at least one character. -/
def readValue : Nat → Nat → List Char → Except Fault (Value × List Char)
  | 0, _, _ => .error .notJson
  | count + 1, levels, cs =>
    match skipBlanks cs with
    | '"' :: rest => do
      let (s, rest) ← readString [] rest
      return (.text s, rest)
    | '[' :: rest =>
      match levels with
      | 0 => .error .tooNested
      | levels + 1 =>
        match skipBlanks rest with
        | ']' :: rest => .ok (.list [], rest)
        | rest => do
          let (items, rest) ← readItems count levels rest
          return (.list items, rest)
    | '\x7b' :: rest =>
      match levels with
      | 0 => .error .tooNested
      | levels + 1 =>
        match skipBlanks rest with
        | '\x7d' :: rest => .ok (.object [], rest)
        | rest => do
          let (fields, rest) ← readFields count levels [] rest
          return (.object fields, rest)
    | cs => readSingle cs

def readItems : Nat → Nat → List Char → Except Fault (List Value × List Char)
  | 0, _, _ => .error .notJson
  | count + 1, levels, cs => do
    let (item, rest) ← readValue count levels cs
    match skipBlanks rest with
    | ',' :: rest =>
      let (items, rest) ← readItems count levels rest
      return (item :: items, rest)
    | ']' :: rest => return ([item], rest)
    | _ => throw .notJson

def readFields : Nat → Nat → List (String × Value) → List Char →
    Except Fault (List (String × Value) × List Char)
  | 0, _, _, _ => .error .notJson
  | count + 1, levels, fields, cs =>
    match skipBlanks cs with
    | '"' :: rest => do
      let (key, rest) ← readString [] rest
      match skipBlanks rest with
      | ':' :: rest =>
        let (value, rest) ← readValue count levels rest
        let fields := setField key value fields
        match skipBlanks rest with
        | ',' :: rest => readFields count levels fields rest
        | '\x7d' :: rest => return (fields, rest)
        | _ => throw .notJson
      | _ => throw .notJson
    | _ => .error .notJson

end

def read (s : String) : Except Fault Value := do
  let cs := s.toList
  let (value, rest) ← readValue (cs.length + 1) depthLimit cs
  if (skipBlanks rest).isEmpty then return value else throw .notJson

end Quotation.Json
