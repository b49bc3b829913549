import CrdForge.OpenApi.Document

/-! Documents as JSON. What is not set is left out, and maps keep their order. -/
namespace CrdForge

namespace Json

/-- An entry that is left out when there is no value. -/
def optional (name : String) (value : Option Json) : List (String × Json) :=
  match value with
  | some value => [(name, value)]
  | none => []

/-- A list that is left out when it is empty. -/
def listed (name : String) (items : List Json) : List (String × Json) :=
  if items.isEmpty then [] else [(name, .array items)]

/-- A map that is left out when it is empty. -/
def mapped (name : String) (entries : List (String × Json)) : List (String × Json) :=
  if entries.isEmpty then [] else [(name, .object entries)]

end Json

namespace OpenApi

open Json (optional listed mapped)

def TypeNames.toJson : TypeNames → Json
  | .one name => .string name
  | .many names => Json.strings names

mutual
def Schema.toJson : Schema → Json
  | ⟨reference, type, format, title, description, default, sample, enumeration, multipleOf,
      required, readOnly, items, properties, additional, allOf, oneOf, anyOf, not⟩ =>
    .object (
      optional "$ref" (reference.map .string) ++
      optional "type" (type.map TypeNames.toJson) ++
      optional "format" (format.map .string) ++
      optional "title" (title.map .string) ++
      optional "description" (description.map .string) ++
      optional "default" default ++
      optional "example" sample ++
      listed "enum" enumeration ++
      optional "multipleOf" (multipleOf.map Json.ofFloat) ++
      listed "required" (required.map .string) ++
      [("readOnly", .bool readOnly)] ++
      optional "items" (schemaJson? items) ++
      mapped "properties" (propertiesJson properties) ++
      optional "additionalProperties" (additionalJson? additional) ++
      listed "allOf" (schemasJson allOf) ++
      listed "oneOf" (schemasJson oneOf) ++
      listed "anyOf" (schemasJson anyOf) ++
      optional "not" (schemaJson? not))
termination_by structural x => x

def schemaJson? : Option Schema → Option Json
  | none => none
  | some schema => some schema.toJson
termination_by structural x => x

def schemasJson : List Schema → List Json
  | [] => []
  | schema :: rest => schema.toJson :: schemasJson rest
termination_by structural x => x

def propertiesJson : List (String × Schema) → List (String × Json)
  | [] => []
  | property :: rest => propertyJson property :: propertiesJson rest
termination_by structural x => x

def propertyJson : String × Schema → String × Json
  | (name, schema) => (name, schema.toJson)
termination_by structural x => x

def additionalJson? : Option (Additional Schema) → Option Json
  | none => none
  | some additional => some (additionalJson additional)
termination_by structural x => x

def additionalJson : Additional Schema → Json
  | .flag allowed => .bool allowed
  | .schema schema => schema.toJson
termination_by structural x => x
end

def Parameter.toJson (parameter : Parameter) : Json :=
  .object (
    optional "$ref" (parameter.reference.map .string) ++
    [("name", .string parameter.name), ("in", .string parameter.location)] ++
    optional "description" (parameter.description.map .string) ++
    [("required", .bool parameter.required)] ++
    optional "schema" (parameter.schema.map Schema.toJson))

/-- A media type. -/
def mediaTypeJson (schema : Option Schema) : Json := .object (optional "schema" (schema.map Schema.toJson))

/-- A map of named values. -/
def namedJson {α : Type} (toJson : α → Json) (entries : List (String × α)) : Json :=
  .object (entries.map fun (name, value) => (name, toJson value))

def RequestBody.toJson (body : RequestBody) : Json :=
  .object (
    optional "$ref" (body.reference.map .string) ++
    optional "description" (body.description.map .string) ++
    [("content", namedJson mediaTypeJson body.content), ("required", .bool body.required)])

def Operation.toJson (operation : Operation) : Json :=
  .object (
    optional "operationId" (operation.operationId.map .string) ++
    optional "summary" (operation.summary.map .string) ++
    listed "parameters" (operation.parameters.map Parameter.toJson) ++
    optional "requestBody" (operation.requestBody.map RequestBody.toJson))

def PathItem.toJson (item : PathItem) : Json :=
  .object (
    optional "get" (item.get.map Operation.toJson) ++
    optional "post" (item.post.map Operation.toJson) ++
    optional "put" (item.put.map Operation.toJson) ++
    optional "delete" (item.delete.map Operation.toJson) ++
    optional "patch" (item.patch.map Operation.toJson) ++
    listed "parameters" (item.parameters.map Parameter.toJson))

def Document.toJson (document : Document) : Json :=
  .object [
    ("openapi", .string document.version),
    ("info", .object [
      ("title", .string document.info.title),
      ("version", .string document.info.version)]),
    ("paths", namedJson PathItem.toJson document.paths),
    ("components", .object [
      ("schemas", namedJson Schema.toJson document.components.schemas),
      ("parameters", namedJson Parameter.toJson document.components.parameters),
      ("requestBodies", namedJson RequestBody.toJson document.components.requestBodies)])]

end OpenApi

end CrdForge
