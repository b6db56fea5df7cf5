/-!
# Paths

A path is a row of names with slashes between them. Empty names and single dots do not count. A path
that starts with one slash, or with three or more, starts at the root; two slashes are kept as they
are.
-/

namespace Quotation.Path

/-- The names of a path that count. -/
def names (path : String) : List String :=
  (path.splitOn "/").filter fun name => name != "" && name != "."

def root (path : String) : String :=
  match path.toList with
  | ['/', '/'] => "//"
  | '/' :: '/' :: '/' :: _ => "/"
  | '/' :: '/' :: _ => "//"
  | '/' :: _ => "/"
  | _ => ""

/-- A path with nothing in it that does not count. -/
def normalize (path : String) : String :=
  let text := root path ++ "/".intercalate (names path)
  if text = "" then "." else text

/-- A path inside a folder; a path from the root stays as it is. -/
def join (folder path : String) : String :=
  if root path = "" ∧ folder ≠ "" then normalize (folder ++ "/" ++ path) else normalize path

def fileName (path : String) : String := ((names path).getLast?).getD ""

/-- Whether a path leads to a directory whatever there is: it has no names, or leads back at the
end. -/
def endsInDirectory (path : String) : Bool := ((names path).getLast?.getD "..") == ".."

/-- A file name up to its last dot. A dot at either end does not count. -/
def stem (name : String) : String :=
  let cs := name.toList
  let suffix := cs.reverse.takeWhile (· != '.')
  let front := cs.take (cs.length - suffix.length - 1)
  if suffix.isEmpty ∨ front.isEmpty ∨ suffix.length = cs.length then name else String.ofList front

end Quotation.Path
