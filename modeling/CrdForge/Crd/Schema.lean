import CrdForge.Crd.Rule
import CrdForge.OpenApi.Encode

/-! Schemas of resource definitions, and the edits that are made on them. -/
namespace CrdForge.Crd

/-- The formats that a cluster knows. -/
def supportedFormats : List String :=
  ["int32", "int64", "float", "double", "byte", "date", "date-time", "password"]

structure Schema where
  /-- The name under which the parent lists this property, if not its own. It is never written. -/
  id : Option String := none
  type : Option String := none
  format : Option String := none
  title : Option String := none
  description : Option String := none
  default : Option Json := none
  sample : Option Json := none
  enumeration : List Json := []
  multipleOf : Option Float := none
  required : List String := []
  items : Option Schema := none
  /-- Sorted by name. -/
  properties : List (String × Schema) := []
  additional : Option (Additional Schema) := none
  allOf : List Schema := []
  oneOf : List Schema := []
  anyOf : List Schema := []
  not : Option Schema := none
  /-- Whether fields that are not listed are kept. -/
  preserveUnknown : Option Bool := none
  listType : Option String := none
  listMapKeys : List String := []
  rules : List Rule := []
  deriving Inhabited

namespace Schema

/-- An object without properties. -/
def object (description : String) : Schema where
  type := some "object"
  description := some description

def string (description : String) : Schema where
  type := some "string"
  description := some description

def typeName (schema : Schema) : String := schema.type.getD ""

def isObject (schema : Schema) : Bool := schema.typeName == "object"

def preservesUnknown (schema : Schema) : Bool := schema.preserveUnknown == some true

def property? (schema : Schema) (name : String) : Option Schema := schema.properties.lookup name

/-- Lists a property, in place of the one of that name. -/
def insert (schema : Schema) (name : String) (property : Schema) : Schema :=
  { schema with properties := Keyed.insert name property schema.properties }

/-- The node at the end of a chain of properties. -/
def descend? (schema : Schema) : List String → Option Schema
  | [] => some schema
  | name :: rest => (schema.property? name).bind fun property => property.descend? rest

/-- Changes the node at the end of a chain of properties, if it is there. -/
def modifyAt? (schema : Schema) : List String → (Schema → Schema) → Option Schema
  | [], change => some (change schema)
  | name :: rest, change =>
    (schema.property? name).bind fun property =>
      (property.modifyAt? rest change).map fun changed => schema.insert name changed

/-! ### Edits -/

/-- Adds a rule, unless the same one is there. -/
def addRule (schema : Schema) (rule : Rule) : Schema :=
  if schema.rules.contains rule then schema else { schema with rules := schema.rules ++ [rule] }

/-- Requires a property. The names of required properties are sorted when one is added. -/
def addRequired (schema : Schema) (name : String) : Schema :=
  if schema.required.contains name then schema
  else { schema with required := Keyed.ascending (name :: schema.required) }

/-- Requires a property no more. -/
def removeRequired (schema : Schema) (name : String) : Schema :=
  { schema with required := schema.required.filter (· != name) }

end Schema

/-! ### Schemas as JSON -/

open Json (optional listed mapped)

def Rule.toJson (rule : Rule) : Json :=
  .object (("rule", .string rule.rule) :: if rule.message = "" then []
    else [("message", .string rule.message)])

mutual
def Schema.toJson : Schema → Json
  | ⟨_, type, format, title, description, default, sample, enumeration, multipleOf, required,
      items, properties, additional, allOf, oneOf, anyOf, not, preserveUnknown, listType,
      listMapKeys, rules⟩ =>
    .object (
      optional "type" (type.map .string) ++
      optional "format" (format.map .string) ++
      optional "title" (title.map .string) ++
      optional "description" (description.map .string) ++
      optional "default" default ++
      optional "example" sample ++
      listed "enum" enumeration ++
      optional "multipleOf" (multipleOf.map Json.ofFloat) ++
      listed "required" (required.map .string) ++
      optional "items" (schemaJson? items) ++
      mapped "properties" (propertiesJson properties) ++
      optional "additionalProperties" (additionalJson? additional) ++
      listed "allOf" (schemasJson allOf) ++
      listed "oneOf" (schemasJson oneOf) ++
      listed "anyOf" (schemasJson anyOf) ++
      optional "not" (schemaJson? not) ++
      optional "x-kubernetes-preserve-unknown-fields" (preserveUnknown.map .bool) ++
      optional "x-kubernetes-list-type" (listType.map .string) ++
      listed "x-kubernetes-list-map-keys" (listMapKeys.map .string) ++
      listed "x-kubernetes-validations" (rules.map Rule.toJson))
termination_by structural x => x

def schemaJson? : Option Schema → Option Json
  | none => none
  | some schema => some schema.toJson
termination_by structural x => x

def schemasJson : List Schema → List Json
  | [] => []
  | schema :: rest => schema.toJson :: schemasJson rest
termination_by structural x => x

def propertiesJson : List (String × Schema) → List (String × Json)
  | [] => []
  | property :: rest => propertyJson property :: propertiesJson rest
termination_by structural x => x

def propertyJson : String × Schema → String × Json
  | (name, schema) => (name, schema.toJson)
termination_by structural x => x

def additionalJson? : Option (Additional Schema) → Option Json
  | none => none
  | some additional => some (additionalJson additional)
termination_by structural x => x

def additionalJson : Additional Schema → Json
  | .flag allowed => .bool allowed
  | .schema schema => schema.toJson
termination_by structural x => x
end

end CrdForge.Crd
