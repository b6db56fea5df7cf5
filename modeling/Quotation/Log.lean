import Quotation.Text.Uppercase
import Quotation.Value

/-!
# Log levels

How much is logged. The first set-up decides; later ones change nothing.
-/

namespace Quotation.Log

inductive Level where
  | notSet
  | debug
  | info
  | warning
  | error
  | critical
  deriving DecidableEq

def Level.number : Level → Nat
  | notSet => 0
  | debug => 10
  | info => 20
  | warning => 30
  | error => 40
  | critical => 50

/-- The names of the levels. Two levels have a second name. -/
def levelNames : List (String × Level) :=
  [("NOTSET", .notSet), ("DEBUG", .debug), ("INFO", .info), ("WARNING", .warning),
    ("WARN", .warning), ("ERROR", .error), ("CRITICAL", .critical), ("FATAL", .critical)]

/-- A name in the place of a level that belongs to something else. -/
inductive LevelFault where
  | layout
  | styles
  deriving DecidableEq

def LevelFault.message : LevelFault → String
  | layout => "Unknown level: '%(levelname)s:%(name)s:%(message)s'"
  | styles => "Level not an integer or a valid string"

def otherNames : List (String × LevelFault) := [("BASIC_FORMAT", .layout), ("_STYLES", .styles)]

/-- The level with a name, in small or capital letters; `info` if nothing has the name. -/
def Level.ofName (name : Value) : Except LevelFault Level :=
  let name := Text.uppercase name.shown
  match otherNames.lookup name with
  | some fault => .error fault
  | none => .ok ((levelNames.lookup name).getD .info)

structure Logger where
  level : Level := .warning
  outputs : List Level := []

/-- Sets a logger up to write from a level on, unless it writes already. -/
def Logger.setUp (logger : Logger) (name : Value) : Except LevelFault Logger := do
  if logger.outputs.isEmpty then
    let level ← Level.ofName name
    return { level, outputs := [level] }
  else
    return logger

end Quotation.Log
