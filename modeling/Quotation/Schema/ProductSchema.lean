import Quotation.FileConnection
import Quotation.Json
import Quotation.Schema.Payload
import Quotation.Text.Uppercase

/-!
# Schemas of products

The quote form of a product: its parameters, what it is called and which currency it is priced in.
A schema is read from an object, or from the bare list of its parameters.
-/

namespace Quotation

structure ProductSchema where
  name : Value
  title : Value
  description : String := ""
  currency : String := "USD"
  parameters : List Parameter
  connections : List FileConnection := []

inductive SchemaError where
  | invalid (name : Value) (issues : List Issue)
  /-- The parameters cannot be read or checked. Data without issues never comes to this. -/
  | unreadable (cause : ReadError)
  | badText (fileName : String) (fault : Json.Fault)
  | notFound (path : String)

/-- Whether an error is put down to the schema. Others are not expected and end all work. -/
def SchemaError.isReported : SchemaError → Bool
  | invalid _ _ | badText _ .notJson => true
  | unreadable _ | badText _ _ | notFound _ => false

def SchemaError.message : SchemaError → String
  | invalid name issues =>
    "Invalid schema " ++ name.quoted ++ ": " ++ toString issues.length ++
      (if issues.length = 1 then " validation error" else " validation errors") ++
      " for SchemaPayload"
  | unreadable cause => cause.message
  | badText fileName .notJson => fileName ++ " is " ++ Json.Fault.notJson.message
  | badText _ fault => fault.message
  | notFound path => "Schema file not found: " ++ path

namespace ProductSchema

/-- A bare list is the list of parameters of a schema that says no more. -/
def toObject : Value → Value
  | .list parameters => .object [("parameters", .list parameters)]
  | data => data

def givenName (data : Value) : String := ((data.field? "name").getD "").shown

/-- The schema that checked data stands for. -/
def ofFields (fields : List (String × Value)) (name : Value) : Except ReadError ProductSchema := do
  let parameters ← readParameters (← (fieldOf fields "parameters").asItems)
  let connections ← (← (fieldOf fields "fileConnections").asItems).mapM FileConnection.ofValue
  let schemaName := (fieldOf fields "name").orElse name
  return {
    name := schemaName
    title := (fieldOf fields "title").orElse schemaName
    description := (fieldOf fields "description").shown
    currency := Text.uppercase (fieldOf fields "currency").shown
    parameters
    connections
  }

/-- The schema that data stands for. The name counts unless the data gives one itself. -/
def ofValue (data : Value) (name : Value := .text "") : Except SchemaError ProductSchema :=
  let data := toObject data
  match Payload.schema.check data with
  | .error issues => .error (.invalid (name.orElse (givenName data)) issues)
  | .ok checked =>
    (do ofFields (← checked.asObject) name).mapError .unreadable

def ofText (fileName text name : String) : Except SchemaError ProductSchema :=
  match Json.read text with
  | .ok data => ofValue data name
  | .error fault => .error (.badText fileName fault)

def parameter? (schema : ProductSchema) (name : Value) : Option Parameter :=
  schema.parameters.find? fun p => p.name.sameAs name

end ProductSchema

end Quotation
