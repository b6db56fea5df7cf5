/-!
# The help of the quote command

How the command is called, then what its arguments mean. A line that would get too wide is broken
between two words.
-/

namespace Quotation.Command

def padEnd (width : Nat) (s : String) : String := s.pushn ' ' (width - s.length)

def padStart (width : Nat) (s : String) : String := "".pushn ' ' (width - s.length) ++ s

def helpWidth : Nat := 78

/-- Adds words to a line as long as it stays within the width, and starts a new line where it would
not. New lines are indented. -/
def fillLines (indent : Nat) (line : String) : List String → List String
  | [] => [line]
  | word :: words =>
    if line.length + 1 + word.length ≤ helpWidth then
      fillLines indent (line ++ " " ++ word) words
    else
      line :: fillLines indent (padStart indent "" ++ word) words

def choices (samples : List String) : String := "\x7b" ++ ",".intercalate samples ++ "\x7d"

def usageLines (program : String) (samples : List String) : List String :=
  let head := "usage: " ++ program
  let options := ["[-h]", "[--currency CURRENCY]", "[--csv CSV]"]
  let values := ["[values ...]"]
  let line := " ".intercalate (head :: options ++ choices samples :: values)
  if line.length ≤ helpWidth then [line]
  else
    let indent := head.length + 1
    fillLines indent head options ++
      fillLines indent (padStart indent "" ++ choices samples) values

def argumentLine (argument meaning : String) : String := padEnd 24 ("  " ++ argument) ++ meaning

def helpLines (program : String) (samples : List String) : List String :=
  usageLines program samples ++
    ["", "Price a sample quote form", "",
      "positional arguments:",
      "  " ++ choices samples,
      argumentLine "values" "name=value pairs",
      "",
      "options:",
      argumentLine "-h, --help" "show this help message and exit",
      "  --currency CURRENCY",
      argumentLine "--csv CSV" "write the breakdown to CSV"]

end Quotation.Command
