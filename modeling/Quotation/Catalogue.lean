import Quotation.Path
import Quotation.Schema.Check
import Quotation.Schema.ProductSchema

/-!
# Catalogues

A catalogue offers schemas by name. A folder is one: every file in it whose name ends in `.json`
holds a schema. All schemas of a catalogue can be checked and counted at once.
-/

namespace Quotation

structure Catalogue where
  /-- The names of the schemas, sorted. -/
  names : List String
  load : String → Except SchemaError ProductSchema

/-! ## Folders -/

/-- Files by their paths. -/
structure Folder where
  files : List (String × String)

def schemaSuffix : String := ".json"

namespace Folder

/-- The files by the names on their paths. -/
def entries (folder : Folder) : List (List String × String) :=
  folder.files.map fun (path, text) => (Path.names path, text)

/-- Whether some file lies inside. The folder itself is always there. -/
def isDirectory (folder : Folder) (place : List String) : Bool :=
  place.isEmpty || folder.entries.any fun (names, _) =>
    place.isPrefixOf names && place.length < names.length

/-- One name further, from a place that can be entered. Two dots lead back. -/
def step (folder : Folder) (place : List String) (name : String) : Option (List String) :=
  if !folder.isDirectory place then none
  else if name != ".." then some (place ++ [name])
  else if place.isEmpty then none
  else some place.dropLast

def follow (folder : Folder) (path : String) : Option (List String) :=
  (Path.names path).foldlM folder.step []

def text? (folder : Folder) (path : String) : Option String :=
  (folder.follow path).bind fun place => folder.entries.lookup place

def namesIn (folder : Folder) (place : List String) : List String :=
  (folder.entries.filterMap fun (names, _) =>
    if place.isPrefixOf names then names[place.length]? else none).eraseDups

/-- The names of the schemas directly inside a directory; none if there is no such directory. -/
def schemaNames (folder : Folder) (directory : String) : List String :=
  match folder.follow directory with
  | none => []
  | some place =>
    (((folder.namesIn place).filter fun name => name.endsWith schemaSuffix).map Path.stem).mergeSort

def load (folder : Folder) (directory name : String) : Except SchemaError ProductSchema :=
  let path := Path.join directory (name ++ schemaSuffix)
  match folder.text? path with
  | some text => ProductSchema.ofText (Path.fileName path) text (Path.stem (Path.fileName path))
  | none => .error (.notFound path)

def catalogue (folder : Folder) (directory : String) : Catalogue where
  names := folder.schemaNames directory
  load := folder.load directory

end Folder

/-! ## Checks and counts -/

structure CheckResult where
  errors : List String
  warnings : List String := []

def CheckResult.valid (result : CheckResult) : Bool := result.errors.isEmpty

def Schema.Report.result (report : Schema.Report) : CheckResult :=
  ⟨report.errors.map Schema.Error.message, report.warnings.map Schema.Warning.message⟩

structure Statistics where
  loaded : Nat
  invalid : Nat
  parameters : List (ParameterKind × Nat)

def Statistics.total (s : Statistics) : Nat := s.loaded + s.invalid

namespace Catalogue

/-- A schema, or the error that it is reported with. -/
def attempt (c : Catalogue) (name : String) :
    Except SchemaError (Except SchemaError ProductSchema) :=
  match c.load name with
  | .ok schema => .ok (.ok schema)
  | .error error => if error.isReported then .ok (.error error) else .error error

/-- The result of every schema. One that cannot be loaded has one error. -/
def check (c : Catalogue) : Except SchemaError (List (String × CheckResult)) :=
  c.names.mapM fun name => do
    match ← c.attempt name with
    | .ok schema =>
      let report ← (Schema.check schema.parameters).mapError fun cause => .unreadable (.fault cause)
      return (name, report.result)
    | .error error => return (name, ⟨[error.message], []⟩)

def countKinds (parameters : List Parameter) : List (ParameterKind × Nat) :=
  ([.derivedCalc, .fixedOption, .numericValue].map fun kind =>
    (kind, parameters.countP (·.kind = kind))).filter fun (_, count) => count > 0

def statistics (c : Catalogue) : Except SchemaError Statistics := do
  let attempts ← c.names.mapM c.attempt
  let schemas := attempts.filterMap Except.toOption
  return {
    loaded := schemas.length
    invalid := attempts.length - schemas.length
    parameters := countKinds (schemas.flatMap ProductSchema.parameters)
  }

end Catalogue

end Quotation
