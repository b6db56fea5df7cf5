import Quotation.Command.Check
import Quotation.Command.Quote

/-!
# The command line

`quote` prices a sample, `check` checks the schemas in a folder. This module reads the environment
and the files, and prints and writes what the commands come to.
-/

namespace Quotation.CommandLine

def readSettings : IO Settings := do
  let names := ["QUOTE_TOOL_CURRENCY", "QUOTE_TOOL_MAX_ITERATIONS", "QUOTE_TOOL_LOG_LEVEL",
    "QUOTE_TOOL_SAMPLES_DIR"]
  let values ← names.mapM fun name => IO.getEnv name
  return Settings.ofEnvironment fun name => ((names.zip values).lookup name).join

/-- The schema files directly inside a directory, as a folder that holds them at its top. -/
def readFolder (directory : String) : IO Folder := do
  try
    let place ← IO.FS.realPath directory
    let entries ← place.readDir
    let files ← (entries.toList.filter fun entry => entry.fileName.endsWith schemaSuffix).mapM
      fun entry => do return (entry.fileName, ← IO.FS.readFile entry.path)
    return ⟨files⟩
  catch _ => return ⟨[]⟩

def readSamples (settings : Settings) : IO Catalogue := do
  match settings.samplesFolder with
  | some directory => return (← readFolder directory).catalogue ""
  | none => return Samples.catalogue "samples"

def usage : String := "usage: quote SAMPLE [NAME=VALUE ...] | check [FOLDER]"

/-- Prints and writes what a command comes to, and gives its exit code. -/
def carryOut : Except Command.Failure Command.Outcome → IO UInt32
  | .error failure => do
    IO.eprintln failure.message
    return 1
  | .ok outcome => do
    if let some (path, text) := outcome.file then
      let folder := Path.root path ++ "/".intercalate (Path.names path).dropLast
      if folder != "" then
        IO.FS.createDirAll folder
      IO.FS.writeFile path text
    if outcome.lines.isEmpty then
      IO.eprintln usage
    IO.print outcome.output
    return UInt32.ofNat outcome.exitCode

def run (arguments : List String) : IO UInt32 := do
  let settings ← readSettings
  match arguments with
  | "quote" :: rest => carryOut (Command.quote "quote" settings (← readSamples settings) rest)
  | ["check"] =>
    let place := settings.samplesFolder.getD "samples"
    carryOut (Command.check place (← readSamples settings))
  | "check" :: directory :: _ =>
    let folder ← readFolder directory
    carryOut (Command.check (Path.normalize directory) (folder.catalogue ""))
  | _ =>
    IO.eprintln usage
    return 2

end Quotation.CommandLine

def main (arguments : List String) : IO UInt32 := Quotation.CommandLine.run arguments
