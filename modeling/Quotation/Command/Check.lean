import Quotation.Catalogue
import Quotation.Command.Outcome

/-!
# The check command

Checks all schemas of a catalogue and prints what is wrong with each, then how many there are.
-/

namespace Quotation.Command

def resultLines (name : String) (result : CheckResult) : List String :=
  [(if result.valid then "✅ " else "❌ ") ++ name] ++
    (result.errors.map fun error => "    ERROR: " ++ error) ++
    (result.warnings.map fun warning => "    WARNING: " ++ warning)

def statisticsLines (s : Statistics) : List String :=
  ["", "Schemas: " ++ toString s.total ++ " (" ++ toString s.invalid ++ " unparseable)"] ++
    s.parameters.map fun (kind, count) => "  " ++ kind.label ++ ": " ++ toString count

def failedLines (count : Nat) : List String :=
  if count = 0 then [] else ["", "❌ " ++ toString count ++ " schema(s) failed checks"]

/-- The check command on the schemas at a place. Without schemas, or with one that is not valid, the
command ends with the code one. -/
def check (place : String) (schemas : Catalogue) : Except Failure Outcome := do
  let heading := "Checking schemas in " ++ place ++ "..."
  let results ← schemas.check.mapError .schema
  if results.isEmpty then
    return { exitCode := 1, lines := [heading, "No schema files found."] }
  let statistics ← schemas.statistics.mapError .schema
  let failed := results.countP fun (_, result) => !result.valid
  return {
    exitCode := if failed = 0 then 0 else 1
    lines := heading :: results.flatMap (fun (name, result) => resultLines name result) ++
      statisticsLines statistics ++ failedLines failed
  }

end Quotation.Command
