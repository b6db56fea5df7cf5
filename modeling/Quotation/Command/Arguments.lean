import Quotation.Text.Digit

/-!
# Arguments of the quote command

A sample and the values of its fields, with options before and after. A long option may be shortened
as long as no other starts so, and takes its value from behind an equals sign or from the next
argument. A short option takes no value; letters behind it are short options as well. After a double
dash nothing is an option. The sample and the values stand together: what follows later, behind an
option, is out of place.
-/

namespace Quotation.Command

inductive Switch where
  | help
  | currency
  | csv
  deriving DecidableEq

def switches : List (String × Switch) :=
  [("-h", .help), ("--help", .help), ("--currency", .currency), ("--csv", .csv)]

inductive Argument where
  | plain (s : String)
  | separator
  | switch (name : Switch) (value : Option String)
  /-- Looks like an option but is none. -/
  | stranger
  deriving DecidableEq

/-! ## One argument -/

/-- The two sides of the first equals sign. -/
def splitEquals (cs : List Char) : List Char × Option (List Char) :=
  match cs.dropWhile (· != '=') with
  | [] => (cs, none)
  | _ :: value => (cs.takeWhile (· != '='), some value)

def isShortOption (c : Char) : Bool := (switches.lookup (String.ofList ['-', c])).isSome

/-- What stands behind a short option besides more short options. -/
def shortValue (letters : List Char) : Option String :=
  if !letters.isEmpty && letters.all isShortOption then none else some (String.ofList letters)

def valueBehind (name : List Char) (value : List Char) : Option String :=
  if "--".toList.isPrefixOf name then some (String.ofList value) else shortValue value

/-- The options that a text may stand for, each with its value: long ones that start with it, or a
short one with what follows the letter. -/
def meanings (s : String) : List (Switch × Option String) :=
  match s.toList with
  | '-' :: '-' :: _ =>
    let (name, value) := splitEquals s.toList
    switches.filterMap fun (text, switch) =>
      if name.isPrefixOf text.toList then some (switch, value.map String.ofList) else none
  | '-' :: c :: letters =>
    switches.filterMap fun (text, switch) =>
      if text.toList = ['-', c] then some (switch, shortValue letters) else none
  | _ => []

def withoutLineEnd (cs : List Char) : List Char := if cs.getLast? = some '\n' then cs.dropLast else cs

/-- A minus sign and digits, with a point before the last of them or none. A line end may follow. -/
def isNegativeNumber (cs : List Char) : Bool :=
  match withoutLineEnd cs with
  | '-' :: rest =>
    match rest.dropWhile Text.isDigit with
    | [] => !rest.isEmpty
    | '.' :: fraction => !fraction.isEmpty && fraction.all Text.isDigit
    | _ => false
  | _ => false

/-- What an argument before a double dash is; none if it is short for more than one option. -/
def Argument.ofText (s : String) : Option Argument :=
  let (name, value) := splitEquals s.toList
  match s.toList with
  | '-' :: c :: rest =>
    match switches.lookup (String.ofList name), meanings s with
    | some option, _ => some (.switch option (value.bind (valueBehind name)))
    | none, [(option, value)] => some (.switch option value)
    | none, _ :: _ :: _ => none
    | none, [] =>
      if isNegativeNumber s.toList ∨ ' ' ∈ c :: rest then some (.plain s) else some .stranger
  | _ => some (.plain s)

def classify : List String → Option (List Argument)
  | [] => some []
  | "--" :: rest => some (.separator :: rest.map .plain)
  | s :: rest => do return (← Argument.ofText s) :: (← classify rest)

/-! ## All arguments -/

structure Request where
  sample : String
  pairs : List String := []
  currency : Option String := none
  csv : Option String := none
  deriving DecidableEq

inductive Reading where
  | request (r : Request)
  | help
  | misuse
  deriving DecidableEq

structure Progress where
  sample : Option String := none
  pairs : List String := []
  /-- An option has followed the sample and its values. -/
  closed : Bool := false
  currency : Option String := none
  csv : Option String := none
  strays : Bool := false

namespace Progress

def close (p : Progress) : Progress := { p with closed := p.closed || p.sample.isSome }

/-- Takes the value of an option; the last one counts. A double dash takes it back. -/
def withOption (p : Progress) (name : Switch) (value : String) : Progress :=
  let value := if value = "--" then none else some value
  match name with
  | .currency => { p.close with currency := value }
  | .csv => { p.close with csv := value }
  | .help => p

/-- What is asked for in the end. Of the double dashes among the values the first does not count. -/
def finish (p : Progress) : Reading :=
  match p.sample with
  | some sample =>
    if p.strays then .misuse
    else .request ⟨sample, p.pairs.erase "--", p.currency, p.csv⟩
  | none => .misuse

/-- Takes an argument that is no option. The first has to be one of the samples. -/
def take (samples : List String) (p : Progress) (s : String) : Option Progress :=
  if p.closed then some { p with strays := true }
  else if p.sample.isSome then some { p with pairs := p.pairs ++ [s] }
  else if s ∈ samples then some { p with sample := some s }
  else none

/-- Takes the double dash. Right before or after the sample it leaves no trace. -/
def takeSeparator (p : Progress) : Progress :=
  if p.closed then { p with strays := true }
  else if p.pairs.isEmpty then p
  else { p with pairs := p.pairs ++ ["--"] }

end Progress

def readFrom (samples : List String) : Progress → List Argument → Reading
  | p, [] => p.finish
  | p, .plain s :: rest =>
    match p.take samples s with
    | some p => readFrom samples p rest
    | none => .misuse
  | p, .separator :: rest => readFrom samples p.takeSeparator rest
  | p, .stranger :: rest => readFrom samples { p.close with strays := true } rest
  | _, .switch .help value :: _ => if value.isNone then .help else .misuse
  | p, .switch name (some value) :: rest => readFrom samples (p.withOption name value) rest
  | p, .switch name none :: .plain value :: rest =>
    readFrom samples (p.withOption name value) rest
  | _, .switch _ none :: _ => .misuse

def readRequest (samples : List String) (arguments : List String) : Reading :=
  match classify arguments with
  | some arguments => readFrom samples {} arguments
  | none => .misuse

end Quotation.Command
