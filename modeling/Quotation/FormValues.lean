import Quotation.Key

/-!
# Form values

What a quote form holds: values under names. A name that is absent reads as nothing, which is not
the same form as a name that is there and holds nothing. No name is a list or an object; to read or
write under one is an error.
-/

namespace Quotation

structure FormValues where
  entries : List (Entry Value)

namespace FormValues

def empty : FormValues := ⟨[]⟩

def get? (v : FormValues) (key : Key) : Option Value := Entry.find? key v.entries

/-- The value under a key; nothing if the key is absent. -/
def get (v : FormValues) (key : Key) : Value := (v.get? key).getD .null

def contains (v : FormValues) (key : Key) : Bool := (v.get? key).isSome

def set (v : FormValues) (name value : Value) : FormValues := ⟨Entry.put name value v.entries⟩

def read (v : FormValues) (name : Value) : Except ValueFault Value :=
  if name.isName then .ok (v.get name.key) else .error .notName

/-- Puts a value under what has to be a name. -/
def write (v : FormValues) (name value : Value) : Except ValueFault FormValues :=
  if name.isName then .ok (v.set name value) else .error .notName

def ofFields (fields : List (String × Value)) : FormValues :=
  fields.foldl (fun v field => v.set field.1 field.2) empty

/-- Whether every key of one form is there in another with the same answer. -/
def within (v w : FormValues) : Bool :=
  v.entries.all fun e =>
    match w.get? e.key with
    | some other => e.value.sameAs other
    | none => false

def sameAs (v w : FormValues) : Bool := v.within w && w.within v

theorem get?_set (v : FormValues) (name value : Value) (key : Key) :
    (v.set name value).get? key = if key = name.key then some value else v.get? key :=
  Entry.find?_put name value v.entries key

theorem get?_set_self (v : FormValues) (name value : Value) :
    (v.set name value).get? name.key = some value := by
  rw [get?_set, if_pos rfl]

theorem get?_set_of_ne (v : FormValues) {name : Value} (value : Value) {key : Key}
    (h : key ≠ name.key) : (v.set name value).get? key = v.get? key := by
  rw [get?_set, if_neg h]

theorem set_eq_self {v : FormValues} {name value : Value} (h : v.get? name.key = some value) :
    v.set name value = v := by
  rw [set, Entry.put_eq_self h]

end FormValues

end Quotation
