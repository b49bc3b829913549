import CrdForge.Crd.Definition

/-! Resource definitions from JSON.

Unknown entries are passed over, and those that are missing or null take their defaults. A structure may
also be given as the list of its entries in order. -/
namespace CrdForge

namespace Json

def flag? : Json → Option Bool
  | .bool value => some value
  | _ => none

def float? : Json → Option Float
  | .number n => some n.toFloat
  | _ => none

/-- A structure with the names of its entries, which a list leaves out. -/
def withNames (names : List String) : Json → Json
  | .array items => .object (names.zip items)
  | value => value

/-- An entry that may be missing or null. -/
def entry {α : Type} (value : Json) (name : String) (otherwise : α) (read : Json → Option α) : Option α :=
  match value.get? name with
  | none | some .null => some otherwise
  | some given => read given

/-- An entry whose absence is told apart. -/
def entry? {α : Type} (value : Json) (name : String) (read : Json → Option α) : Option (Option α) :=
  value.entry name none fun given => (read given).map some

def list? {α : Type} (read : Json → Option α) : Json → Option (List α)
  | .array items => items.mapM read
  | _ => none

/-- Named values, sorted by name. -/
def map? {α : Type} (read : Json → Option α) : Json → Option (List (String × α))
  | .object entries => do
    return Keyed.sort (← entries.mapM fun entry => do return (entry.1, ← read entry.2))
  | _ => none

end Json

namespace Crd

/-! ### Schemas -/

def Rule.ofJson? (value : Json) : Option Rule := do
  let value := value.withNames ["rule", "message"]
  return { rule := ← value.entry "rule" "" Json.text?, message := ← value.entry "message" "" Json.text? }

/-- The entries of a schema, in order. -/
def Schema.entryNames : List String :=
  ["type", "format", "title", "description", "default", "example", "enum", "multipleOf", "required", "items",
    "properties", "additionalProperties", "allOf", "oneOf", "anyOf", "not",
    "x-kubernetes-preserve-unknown-fields", "x-kubernetes-list-type", "x-kubernetes-list-map-keys",
    "x-kubernetes-validations"]

/-- What a value is if an entry nests a schema, a list of schemas or named schemas. -/
structure Nested where
  schema : Unit → Option Schema
  schemas : Unit → Option (List Schema)
  properties : Unit → Option (List (String × Schema))

/-- Sets what an entry says. -/
def Schema.set? (schema : Schema) (name : String) (value : Json) (nested : Nested) : Option Schema := do
  if value matches .null then return schema
  match name with
  | "type" => return { schema with type := some (← value.text?) }
  | "format" => return { schema with format := some (← value.text?) }
  | "title" => return { schema with title := some (← value.text?) }
  | "description" => return { schema with description := some (← value.text?) }
  | "default" => return { schema with default := some value.sorted }
  | "example" => return { schema with sample := some value.sorted }
  | "enum" => return { schema with enumeration := ← value.list? fun item => some item.sorted }
  | "multipleOf" => return { schema with multipleOf := some (← value.float?) }
  | "required" => return { schema with required := ← value.list? Json.text? }
  | "items" => return { schema with items := some (← nested.schema ()) }
  | "properties" => return { schema with properties := ← nested.properties () }
  | "additionalProperties" =>
    match value with
    | .bool allowed => return { schema with additional := some (.flag allowed) }
    | _ => return { schema with additional := some (.schema (← nested.schema ())) }
  | "allOf" => return { schema with allOf := ← nested.schemas () }
  | "oneOf" => return { schema with oneOf := ← nested.schemas () }
  | "anyOf" => return { schema with anyOf := ← nested.schemas () }
  | "not" => return { schema with not := some (← nested.schema ()) }
  | "x-kubernetes-preserve-unknown-fields" => return { schema with preserveUnknown := some (← value.flag?) }
  | "x-kubernetes-list-type" => return { schema with listType := some (← value.text?) }
  | "x-kubernetes-list-map-keys" => return { schema with listMapKeys := ← value.list? Json.text? }
  | "x-kubernetes-validations" => return { schema with rules := ← value.list? Rule.ofJson? }
  | _ => return schema

mutual
/-- The schema that a value describes. -/
def schemaOf? : Json → Option Schema
  | .object entries => schemaOfEntries? {} entries
  | .array items => schemaOfItems? Schema.entryNames {} items
  | _ => none
termination_by structural x => x

def schemaOfEntries? (schema : Schema) : List (String × Json) → Option Schema
  | [] => some schema
  | entry :: rest => do
    let schema ← schemaOfEntry? schema entry
    schemaOfEntries? schema rest
termination_by structural x => x

def schemaOfEntry? (schema : Schema) : String × Json → Option Schema
  | (name, value) => schema.set? name value {
      schema := fun _ => schemaOf? value
      schemas := fun _ => schemasOf? value
      properties := fun _ => propertiesOf? value }
termination_by structural x => x

/-- Sets the entries that are given in order. -/
def schemaOfItems? (names : List String) (schema : Schema) : List Json → Option Schema
  | [] => some schema
  | value :: rest =>
    match names with
    | [] => none
    | name :: names => do
      let schema ← schema.set? name value {
        schema := fun _ => schemaOf? value
        schemas := fun _ => schemasOf? value
        properties := fun _ => propertiesOf? value }
      schemaOfItems? names schema rest
termination_by structural x => x

def schemasOf? : Json → Option (List Schema)
  | .array items => schemasOfItems? items
  | _ => none
termination_by structural x => x

def schemasOfItems? : List Json → Option (List Schema)
  | [] => some []
  | item :: rest => do
    let schema ← schemaOf? item
    return schema :: (← schemasOfItems? rest)
termination_by structural x => x

def propertiesOf? : Json → Option (List (String × Schema))
  | .object entries => propertiesOfEntries? [] entries
  | _ => none
termination_by structural x => x

def propertiesOfEntries? (read : List (String × Schema)) :
    List (String × Json) → Option (List (String × Schema))
  | [] => some read
  | entry :: rest => do
    let (name, schema) ← propertyOfEntry? entry
    propertiesOfEntries? (Keyed.insert name schema read) rest
termination_by structural x => x

def propertyOfEntry? : String × Json → Option (String × Schema)
  | (name, value) => do return (name, ← schemaOf? value)
termination_by structural x => x
end

/-! ### Definitions -/

def Names.ofJson? (value : Json) : Option Names := do
  let value := value.withNames ["plural", "singular", "kind", "listKind", "shortNames", "categories"]
  return {
    plural := ← value.entry "plural" "" Json.text?
    singular := ← value.entry "singular" "" Json.text?
    kind := ← value.entry "kind" "" Json.text?
    listKind := ← value.entry "listKind" "" Json.text?
    shortNames := ← value.entry "shortNames" [] (Json.list? Json.text?)
    categories := ← value.entry "categories" [] (Json.list? Json.text?) }

/-- A scope is its name, or an object that has null at its name. -/
def Scope.ofJson? : Json → Option Scope
  | .string "Namespaced" | .object [("Namespaced", .null)] => some .namespaced
  | .string "Cluster" | .object [("Cluster", .null)] => some .cluster
  | _ => none

def Version.ofJson? (value : Json) : Option Version := do
  let value := value.withNames ["name", "served", "storage"]
  return {
    name := ← value.entry "name" "" Json.text?
    served := ← value.entry "served" false Json.flag?
    storage := ← value.entry "storage" false Json.flag? }

def Column.ofJson? (value : Json) : Option Column := do
  let value := value.withNames ["name", "type", "jsonPath", "description"]
  return {
    name := ← value.entry "name" "" Json.text?
    type := ← value.entry "type" "" Json.text?
    jsonPath := ← value.entry "jsonPath" "" Json.text?
    description := ← value.entry? "description" Json.text? }

def Subresources.ofJson? (value : Json) : Option Subresources := do
  let value := value.withNames ["status"]
  return { status := (← value.entry? "status" some).isSome }

/-- The schema inside the entry that holds it. -/
def schemaEntryOf? (value : Json) : Option Schema := do
  schemaOf? (← (value.withNames ["openAPIV3Schema"]).get? "openAPIV3Schema")

/-- A definition as it is kept, with one schema. -/
def Definition.ofJson? (value : Json) : Option Definition := do
  let value := value.withNames ["metadata", "spec", "status"]
  let metadata := (← value.get? "metadata").withNames ["name", "annotations"]
  let spec := (← value.get? "spec").withNames ["group", "names", "scope", "versions", "validation",
    "subresources", "additionalPrinterColumns", "preserveUnknownFields"]
  let status := ((value.get? "status").getD (.object [])).withNames ["storedVersions"]
  return {
    name := ← metadata.entry "name" "" Json.text?
    annotations := ← metadata.entry "annotations" [] (Json.map? Json.text?)
    group := ← spec.entry "group" "" Json.text?
    names := ← spec.entry "names" {} Names.ofJson?
    scope := ← spec.entry "scope" .namespaced Scope.ofJson?
    versions := ← spec.entry "versions" [] (Json.list? Version.ofJson?)
    schema := ← spec.entry? "validation" schemaEntryOf?
    subresources := ← spec.entry? "subresources" Subresources.ofJson?
    columns := ← spec.entry "additionalPrinterColumns" [] (Json.list? Column.ofJson?)
    preserveUnknown := ← spec.entry? "preserveUnknownFields" Json.flag?
    storedVersions := ← status.entry "storedVersions" [] (Json.list? Json.text?) }

end Crd

end CrdForge
