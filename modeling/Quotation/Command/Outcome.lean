import Quotation.Schema.ProductSchema

/-!
# What a command does

A command prints lines, may write one file, and ends with a code that says how it went.
-/

namespace Quotation.Command

structure Outcome where
  exitCode : Nat := 0
  lines : List String := []
  /-- The path and the text of a file to write. -/
  file : Option (String × String) := none

def Outcome.output (o : Outcome) : String := String.join (o.lines.map fun line => line ++ "\n")

inductive Failure where
  | schema (cause : SchemaError)
  | fault (cause : ValueFault)
  /-- A file cannot be written in the place of a directory. -/
  | directory (path : String)

def Failure.message : Failure → String
  | schema cause => cause.message
  | fault cause => cause.message
  | directory path => "[Errno 21] Is a directory: " ++ Text.quoted path

end Quotation.Command
