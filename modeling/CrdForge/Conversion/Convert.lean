import CrdForge.Conversion.PropertyPlugin
import CrdForge.Text.Case

/-! Schemas of the API made into schemas of resource definitions.

A schema is converted together with a node of the annotation tree: properties and items get nodes of their
own, branches share the node of the schema that they belong to. What nests deeper than a bound is left
out, so that schemas which refer to themselves have a conversion too. -/
namespace CrdForge.Conversion

open Extension (NodeId Tree)

/-- How many schemas may nest in each other. -/
def maxDepth : Nat := 10

/-- What does not change during a conversion. -/
structure Setting where
  document : OpenApi.Document
  filters : Config.Filters := {}
  plugins : List PropertyPlugin := PropertyPlugin.all

/-- Something to convert: a schema of the API, if there is one, and where its conversion stands. -/
structure Place where
  schema : Option OpenApi.Schema
  node : NodeId := Tree.root
  path : List String := [Path.root]

/-- A place below this one, under a segment of its own or under the same path. -/
def Place.below (place : Place) (schema : OpenApi.Schema) (node : NodeId) (segment : Option String) : Place :=
  ⟨some schema, node, place.path ++ segment.toList⟩

/-- The result of a place, if it has one. -/
abbrev Converter := Place → Step (Option Crd.Schema)

/-! ### Parts of a schema -/

def convertOption (convert : Converter) (place : Place) (schema : Option OpenApi.Schema) :
    Step (Option Crd.Schema) :=
  match schema with
  | some schema => convert (place.below schema place.node none)
  | none => return none

/-- Branches of a schema, without those that have no conversion. -/
def convertBranches (convert : Converter) (place : Place) : List OpenApi.Schema → Step (List Crd.Schema)
  | [] => return []
  | branch :: rest => do
    let converted ← convert (place.below branch place.node none)
    return converted.toList ++ (← convertBranches convert place rest)

def convertItems (convert : Converter) (place : Place) (items : Option OpenApi.Schema) :
    Step (Option Crd.Schema) := do
  match items with
  | some items =>
    let node ← modifyGet fun tree => tree.items place.node
    convert (place.below items node (some Path.wildcard))
  | none => return none

/-- Properties that are not listed are allowed at least, if their schema has no conversion. -/
def convertAdditional (convert : Converter) (place : Place) (additional : Option OpenApi.Schema) :
    Step (Option (Additional Crd.Schema)) := do
  match additional with
  | some additional =>
    match ← convert (place.below additional place.node none) with
    | some schema => return some (.schema schema)
    | none => return some (.flag true)
  | none => return none

/-! ### Properties -/

/-- Converted properties, sorted by name, and the new names of those that were renamed. -/
structure Properties where
  properties : List (String × Crd.Schema) := []
  renames : List (String × String) := []

/-- Lists a converted property, under its own name or under the one that its conversion asks for, and links
its node. -/
def Properties.add (found : Properties) (place : Place) (key : String) (node : NodeId) (schema : Crd.Schema) :
    Step Properties := do
  let name := schema.id.getD key
  modify fun tree => tree.attach place.node name node
  return {
    properties := Keyed.insert name { schema with id := none } found.properties
    renames := if schema.id.isSome then Keyed.insert key name found.renames else found.renames }

/-- Each property gets a node, which is linked only if the property has a conversion. -/
def convertProperties (convert : Converter) (place : Place) (found : Properties) :
    List (String × OpenApi.Schema) → Step Properties
  | [] => return found
  | (key, schema) :: rest => do
    let node ← modifyGet fun tree => tree.alloc
    match ← convert (place.below schema node (some key)) with
    | some converted => convertProperties convert place (← found.add place key node converted) rest
    | none => convertProperties convert place found rest

/-! ### Unions -/

/-- Whether the schema is a choice between references. -/
def isUnion (source : OpenApi.Schema) : Bool :=
  !source.oneOf.isEmpty && source.oneOf.all (·.reference.isSome)

/-- The names of the branches of a union. -/
def optionNames (branches : List OpenApi.Schema) : List String :=
  (branches.filterMap (·.reference)).map fun reference => Text.camelCase (OpenApi.referenceName reference)

/-- The property that says which branch of a union is meant. -/
def discriminator (options : List String) : Crd.Schema :=
  { Crd.Schema.string "Type is the discriminator for the different possible values" with
    enumeration := options.map .string }

/-- Lists a property for each branch of a union that has a conversion. -/
def convertOptions (convert : Converter) (place : Place) (schema : Crd.Schema) :
    List OpenApi.Schema → Step Crd.Schema
  | [] => return schema
  | branch :: rest => do
    match branch.reference with
    | none => convertOptions convert place schema rest
    | some reference =>
      let name := Text.camelCase (OpenApi.referenceName reference)
      let node ← modifyGet fun tree => tree.alloc
      match ← convert (place.below branch node (some name)) with
      | some converted =>
        modify fun tree => tree.attach place.node name node
        convertOptions convert place (schema.insert name converted) rest
      | none => convertOptions convert place schema rest

/-- Makes a union an object with a property for each branch and a discriminator. -/
def taggedUnion (convert : Converter) (place : Place) (source : OpenApi.Schema) (schema : Crd.Schema) :
    Step Crd.Schema := do
  let bare : Crd.Schema := { schema with
    type := some "object"
    oneOf := []
    preserveUnknown := if source.allowsAdditional then schema.preserveUnknown else none }
  let listed ← convertOptions convert place bare source.oneOf
  return listed.insert "type" (discriminator (optionNames source.oneOf))

/-! ### Whole schemas -/

/-- Requires the properties that are there, under their new names. -/
def reconcileRequired (renames : List (String × String)) (schema : Crd.Schema) : Crd.Schema :=
  let renamed := schema.required.map fun key => (renames.lookup key).getD key
  { schema with required := Keyed.distinct (renamed.filter fun key => Keyed.has key schema.properties) }

/-- What is taken over as it is. -/
def plainPart (source : OpenApi.Schema) : Crd.Schema where
  type := source.typeName
  format := source.format
  title := source.title
  description := source.description
  sample := source.sample
  enumeration := source.enumeration
  multipleOf := source.multipleOf
  required := source.required

/-- Whether nothing is said about what the value of an object may be. -/
def isOpen (schema : Crd.Schema) : Bool :=
  schema.isObject && schema.items.isNone && schema.properties.isEmpty && schema.additional.isNone

/-- Makes a schema one that a cluster takes: every node has a type, objects of which nothing is said keep
what they are given, and formats that a cluster does not know are left out. -/
def settle (source : OpenApi.Schema) (schema : Crd.Schema) : Crd.Schema :=
  let typed : Crd.Schema := { schema with type := some (schema.type.getD "object") }
  { typed with
    preserveUnknown := if isOpen typed || source.allowsAdditional then some true else typed.preserveUnknown
    format := typed.format.filter Crd.supportedFormats.contains }

/-- Converts the parts of a schema. -/
def convertParts (convert : Converter) (place : Place) (source : OpenApi.Schema) :
    Step (Crd.Schema × List (String × String)) := do
  let items ← convertItems convert place source.items
  let allOf ← convertBranches convert place source.allOf
  let anyOf ← convertBranches convert place source.anyOf
  let oneOf ← if isUnion source then pure [] else convertBranches convert place source.oneOf
  let found ← convertProperties convert place {} source.properties
  let not ← convertOption convert place source.not
  let additional ← convertAdditional convert place source.additionalSchema
  let schema : Crd.Schema := { plainPart source with
    items := items
    properties := found.properties
    additional := additional
    allOf := allOf
    oneOf := oneOf
    anyOf := anyOf
    not := not }
  return (schema, found.renames)

/-- Converts the branches of a union. If nothing else is said about the object they become properties. -/
def convertUnion (convert : Converter) (place : Place) (source : OpenApi.Schema) (schema : Crd.Schema) :
    Step Crd.Schema := do
  if !isUnion source then return schema
  if schema.properties.isEmpty && schema.additional.isNone then taggedUnion convert place source schema
  else return { schema with oneOf := ← convertBranches convert place source.oneOf }

/-- Converts a schema, all references followed, given the conversion of what it nests. -/
def convertSource (setting : Setting) (convert : Converter) (place : Place) (source : OpenApi.Schema) :
    Step (Option Crd.Schema) := do
  let (parts, renames) ← convertParts convert place source
  let site : Site := ⟨setting.document, setting.filters, source, place.node, place.path⟩
  match ← applyAll site setting.plugins parts with
  | none => return none
  | some kept =>
    return some (reconcileRequired renames (← convertUnion convert place source (settle source kept)))

/-- Converts the schema of a place, if it is there and its references lead to one, with no more schemas
nested in each other than the second argument says. An empty path stands for the root. -/
def convertWithin (setting : Setting) : Nat → Converter
  | 0, _ => return none
  | depth + 1, place =>
    let place := { place with path := if place.path.isEmpty then [Path.root] else place.path }
    match place.schema.bind setting.document.resolve with
    | some source => convertSource setting (convertWithin setting depth) place source
    | none => return none

/-- Converts the schema of a place that is nested in as many schemas as `depth` says. -/
def convert (setting : Setting) (place : Place) (depth : Nat) : Step (Option Crd.Schema) :=
  convertWithin setting (maxDepth - depth) place

end CrdForge.Conversion
