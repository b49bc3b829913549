import CrdForge.OpenApi.Document
import CrdForge.OpenApi.VendorKey
import CrdForge.Yaml.Shape

/-! Documents from YAML values.

Unknown fields are passed over and missing ones take their defaults. Within the schema of additional
properties reading is stricter than elsewhere: nothing there may be tagged or absent in place of a list,
but a schema may be given as the list of its fields in order. Parts of documents that are given on their
own are read in this way, too. -/
namespace CrdForge

namespace OpenApi

open Yaml (Value Misfit)

/-! ### Schemas -/

/-- How absent values and lists are taken. -/
inductive Reading where
  | lenient
  | strict
  deriving DecidableEq

/-- The fields of a schema, in order. -/
def Schema.fieldNames : List String :=
  ["$ref", "type", "format", "title", "description", "default", "example", "enum", "multipleOf", "required",
    "readOnly", "items", "properties", "additionalProperties", "allOf", "oneOf", "anyOf", "not"]

/-- The field that a key stands for. Strict reading also takes the number of a field. -/
def fieldName (reading : Reading) (key : Value) : Except Misfit String :=
  match reading, key.untagged with
  | _, .string name => .ok name
  | .strict, .number (.int n) =>
    if 0 ≤ n then .ok (Schema.fieldNames.getD n.toNat "") else .error (.expected "a field")
  | _, _ => .error (.expected "a field")

/-- What a value is if a field nests a schema, a list of schemas or named schemas. -/
structure Nested where
  schema : Unit → Except Misfit Schema
  strictSchema : Unit → Except Misfit Schema
  schemas : Unit → Except Misfit (List Schema)
  properties : Unit → Except Misfit (List (String × Schema))

/-- A list whose elements nest no schema. -/
def plainList {α : Type} (reading : Reading) (read : Value → Except Misfit α) (value : Value) :
    Except Misfit (List α) :=
  if reading = .strict && value.isNull then .error (.expected "a sequence") else value.list read

def typeNames (value : Value) : Except Misfit TypeNames :=
  match value with
  | .string name => .ok (.one name)
  | .sequence names => .many <$> names.mapM fun
    | .string name => .ok name
    | _ => .error (.expected "a type name")
  | _ => .error (.expected "a type name or a list of them")

def additional (value : Value) (nested : Nested) : Except Misfit (Additional Schema) :=
  match value with
  | .bool allowed => .ok (.flag allowed)
  | value =>
    if value.hasTag then .error (.expected "a value without tags") else .schema <$> nested.strictSchema ()

/-- Sets a field. Fields without meaning are passed over. -/
def Schema.set (schema : Schema) (reading : Reading) (name : String) (value : Value) (nested : Nested) :
    Except Misfit Schema := do
  let optionally {α : Type} (read : Unit → Except Misfit α) : Except Misfit (Option α) :=
    if value.isNull then .ok none else some <$> read ()
  match name with
  | "$ref" => return { schema with reference := ← value.optional Value.text }
  | "type" => return { schema with type := ← value.optional typeNames }
  | "format" => return { schema with format := ← value.optional Value.text }
  | "title" => return { schema with title := ← value.optional Value.text }
  | "description" => return { schema with description := ← value.optional Value.text }
  | "default" => return { schema with default := ← value.optional Value.json }
  | "example" => return { schema with sample := ← value.optional Value.json }
  | "enum" => return { schema with enumeration := ← plainList reading Value.json value }
  | "multipleOf" => return { schema with multipleOf := ← value.optional Value.float }
  | "required" => return { schema with required := ← plainList reading Value.text value }
  | "readOnly" => return { schema with readOnly := ← value.flag }
  | "items" => return { schema with items := ← optionally nested.schema }
  | "properties" => return { schema with properties := ← nested.properties () }
  | "additionalProperties" =>
    return { schema with additional := ← optionally fun _ => OpenApi.additional value nested }
  | "allOf" => return { schema with allOf := ← nested.schemas () }
  | "oneOf" => return { schema with oneOf := ← nested.schemas () }
  | "anyOf" => return { schema with anyOf := ← nested.schemas () }
  | "not" => return { schema with not := ← optionally nested.schema }
  | _ => return schema

mutual
/-- The schema that a value describes. -/
def schemaOf (reading : Reading) : Value → Except Misfit Schema
  | .mapping entries => schemaOfEntries reading [] {} entries
  | .tagged _ value => schemaOf reading value
  | .null => if reading = .strict then .error (.expected "a mapping") else .ok {}
  | .sequence items =>
    if reading = .strict then schemaOfItems Schema.fieldNames {} items else .error (.expected "a mapping")
  | _ => .error (.expected "a mapping")
termination_by structural x => x

/-- Sets the fields that are given by name, none of them twice. -/
def schemaOfEntries (reading : Reading) (given : List String) (schema : Schema) :
    List (Value × Value) → Except Misfit Schema
  | [] => .ok schema
  | entry :: rest => do
    let name ← fieldName reading entry.1
    if given.contains name && Schema.fieldNames.contains name then throw (.repeated name)
    schemaOfEntries reading (name :: given) (← schemaOfEntry reading schema name entry) rest
termination_by structural x => x

def schemaOfEntry (reading : Reading) (schema : Schema) (name : String) : Value × Value → Except Misfit Schema
  | (_, value) => schema.set reading name value {
      schema := fun _ => schemaOf reading value
      strictSchema := fun _ => schemaOf .strict value
      schemas := fun _ => schemasOf reading value
      properties := fun _ => propertiesOf reading value }
termination_by structural x => x

/-- Sets the fields that are given in order. -/
def schemaOfItems (names : List String) (schema : Schema) : List Value → Except Misfit Schema
  | [] => .ok schema
  | value :: rest =>
    match names with
    | [] => .error (.expected "no more fields")
    | name :: names => do
      let schema ← schema.set .strict name value {
        schema := fun _ => schemaOf .strict value
        strictSchema := fun _ => schemaOf .strict value
        schemas := fun _ => schemasOf .strict value
        properties := fun _ => propertiesOf .strict value }
      schemaOfItems names schema rest
termination_by structural x => x

def schemasOf (reading : Reading) : Value → Except Misfit (List Schema)
  | .sequence items => schemasOfItems reading items
  | .tagged _ value => schemasOf reading value
  | .null => if reading = .strict then .error (.expected "a sequence") else .ok []
  | _ => .error (.expected "a sequence")
termination_by structural x => x

def schemasOfItems (reading : Reading) : List Value → Except Misfit (List Schema)
  | [] => .ok []
  | item :: rest => do
    let schema ← schemaOf reading item
    return schema :: (← schemasOfItems reading rest)
termination_by structural x => x

def propertiesOf (reading : Reading) : Value → Except Misfit (List (String × Schema))
  | .mapping entries => propertiesOfEntries reading [] entries
  | .tagged _ value => propertiesOf reading value
  | .null => if reading = .strict then .error (.expected "a mapping") else .ok []
  | _ => .error (.expected "a mapping")
termination_by structural x => x

def propertiesOfEntries (reading : Reading) (read : List (String × Schema)) :
    List (Value × Value) → Except Misfit (List (String × Schema))
  | [] => .ok read
  | entry :: rest => do
    let (name, schema) ← propertyOfEntry reading entry
    propertiesOfEntries reading (Keyed.put name schema read) rest
termination_by structural x => x

def propertyOfEntry (reading : Reading) : Value × Value → Except Misfit (String × Schema)
  | (key, value) => do return (← key.text, ← schemaOf reading value)
termination_by structural x => x
end

/-! ### Everything else -/

open Yaml.Value (fields field list named text flag optional)

/-- The fields of a structure. Strict reading also takes the list of them in order. -/
def structureFields (reading : Reading) (names : List String) (value : Value) :
    Except Misfit (List (String × Value)) :=
  match reading, value with
  | .strict, .sequence items =>
    if names.length < items.length then .error (.expected "no more fields") else .ok (names.zip items)
  | _, value => fields value

def schemaField (reading : Reading) (fields : List (String × Value)) : Except Misfit (Option Schema) :=
  field fields "schema" none (optional (schemaOf reading))

def Parameter.ofValue (reading : Reading) (value : Value) : Except Misfit Parameter := do
  let given ← structureFields reading ["$ref", "name", "in", "description", "required", "schema"] value
  return {
    reference := ← field given "$ref" none (optional text)
    name := ← field given "name" "" text
    location := ← field given "in" "" text
    description := ← field given "description" none (optional text)
    required := ← field given "required" false flag
    schema := ← schemaField reading given }

def mediaType (reading : Reading) (value : Value) : Except Misfit (Option Schema) := do
  schemaField reading (← structureFields reading ["schema"] value)

def RequestBody.ofValue (reading : Reading) (value : Value) : Except Misfit RequestBody := do
  let given ← structureFields reading ["$ref", "description", "content", "required"] value
  return {
    reference := ← field given "$ref" none (optional text)
    description := ← field given "description" none (optional text)
    content := ← field given "content" [] (named (mediaType reading))
    required := ← field given "required" false flag }

def Operation.ofValue (value : Value) : Except Misfit Operation := do
  let given ← fields value
  return {
    operationId := ← field given "operationId" none (optional text)
    summary := ← field given "summary" none (optional text)
    parameters := ← field given "parameters" [] (list (Parameter.ofValue .lenient))
    requestBody := ← field given "requestBody" none (optional (RequestBody.ofValue .lenient)) }

def PathItem.ofValue (value : Value) : Except Misfit PathItem := do
  let given ← fields value
  return {
    get := ← field given "get" none (optional Operation.ofValue)
    post := ← field given "post" none (optional Operation.ofValue)
    put := ← field given "put" none (optional Operation.ofValue)
    delete := ← field given "delete" none (optional Operation.ofValue)
    patch := ← field given "patch" none (optional Operation.ofValue)
    parameters := ← field given "parameters" [] (list (Parameter.ofValue .lenient)) }

def Info.ofValue (value : Value) : Except Misfit Info := do
  let given ← fields value
  return { title := ← field given "title" "" text, version := ← field given "version" "" text }

def Components.ofValue (value : Value) : Except Misfit Components := do
  let given ← fields value
  return {
    schemas := ← field given "schemas" [] (named (schemaOf .lenient))
    parameters := ← field given "parameters" [] (named (Parameter.ofValue .lenient))
    requestBodies := ← field given "requestBodies" [] (named (RequestBody.ofValue .lenient)) }

def Document.ofValue (value : Value) : Except Misfit Document := do
  let given ← fields value
  return {
    version := ← field given "openapi" "" text
    info := ← field given "info" {} Info.ofValue
    paths := ← field given "paths" [] (named PathItem.ofValue)
    components := ← field given "components" {} Components.ofValue }

/-! ### Texts -/

/-- Why a text holds no document, in words. -/
abbrev Fault := String

/-- The value that a text holds. -/
def readValue (source : String) : Except Fault Value := do
  let node ← (Yaml.Node.read source).mapError Yaml.Problem.message
  node.value.mapError Misfit.message

/-- The document that a text holds, without its change logs. -/
def Document.read (source : String) : Except Fault Document := do
  let value ← readValue source
  (Document.ofValue (withoutKey changelogKey value)).mapError Misfit.message

end OpenApi

end CrdForge
