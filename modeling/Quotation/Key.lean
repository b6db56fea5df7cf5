import Quotation.Value

/-!
# Keys

What a name is looked up by. A name may be any single value: names that are the same answer, such as
`1`, `1.0` and a true flag, are one key, and a number and its text are two. Entries are values under
names. Of two entries with one key the later value counts, under the earlier name.
-/

namespace Quotation

inductive Key where
  | null
  | whole (n : Int)
  /-- A double that is no whole number. -/
  | fraction (x : Float)
  | nan (mark : Nat)
  | text (s : String)
  /-- The key of lists and objects. Nothing can be called by it. -/
  | unusable
  deriving DecidableEq

instance : Coe String Key := ⟨.text⟩

namespace Value

def key : Value → Key
  | null => .null
  | bool b => .whole (if b then 1 else 0)
  | int n => .whole n
  | float x =>
    match Number.wholeNumber? x with
    | some n => .whole n
    | none => .fraction x
  | nan mark => .nan mark
  | text s => .text s
  | list _ | object _ => .unusable

def isName (value : Value) : Bool := value.key != .unusable

end Value

def requireNames (values : List Value) : Except ValueFault Unit :=
  if values.all Value.isName then .ok () else .error .notName

def requireTexts : List Value → Except ValueFault Unit
  | [] => .ok ()
  | .text _ :: values => requireTexts values
  | _ :: _ => .error .notText

/-! ## Entries -/

structure Entry (α : Type) where
  name : Value
  value : α

namespace Entry

def key {α : Type} (e : Entry α) : Key := e.name.key

def find? {α : Type} (key : Key) : List (Entry α) → Option α
  | [] => none
  | e :: entries => if e.key = key then some e.value else find? key entries

/-- Puts a value under a name: in the place of the entry with its key, or at the end. -/
def put {α : Type} (name : Value) (value : α) : List (Entry α) → List (Entry α)
  | [] => [⟨name, value⟩]
  | e :: entries =>
    if e.key = name.key then { e with value } :: entries else e :: put name value entries

theorem find?_put {α : Type} (name : Value) (value : α) (entries : List (Entry α)) (key : Key) :
    find? key (put name value entries) =
      if key = name.key then some value else find? key entries := by
  induction entries with
  | nil => simp [put, find?, Entry.key, eq_comm]
  | cons e entries ih => grind [put, find?, Entry.key]

theorem mem_of_find? {α : Type} {key : Key} {entries : List (Entry α)} {value : α}
    (h : find? key entries = some value) : ∃ e ∈ entries, e.key = key ∧ e.value = value := by
  induction entries with
  | nil => simp [find?] at h
  | cons e entries ih =>
    rw [find?] at h
    split at h
    · rename_i hkey
      exact ⟨e, List.mem_cons_self .., hkey, Option.some.inj h⟩
    · obtain ⟨e', hmem, he'⟩ := ih h
      exact ⟨e', List.mem_cons_of_mem _ hmem, he'⟩

theorem put_eq_self {α : Type} {name : Value} {value : α} {entries : List (Entry α)}
    (h : find? name.key entries = some value) : put name value entries = entries := by
  induction entries with
  | nil => simp [find?] at h
  | cons e entries ih =>
    rw [find?] at h
    rw [put]
    split at h
    · rename_i hkey
      cases h
      rw [if_pos hkey]
    · rename_i hkey
      rw [if_neg hkey, ih h]

end Entry

end Quotation
