import CrdForge.Crd.Schema

/-! Resource definitions.

One schema is kept for all versions of a resource; the document that a cluster takes has it once for each
version. -/
namespace CrdForge.Crd

open Json (optional listed mapped)

/-- What a resource is called. -/
structure Names where
  plural : String := ""
  singular : String := ""
  kind : String := ""
  listKind : String := ""
  shortNames : List String := []
  categories : List String := []
  deriving DecidableEq

inductive Scope where
  | namespaced
  | cluster
  deriving DecidableEq

def Scope.name : Scope → String
  | .namespaced => "Namespaced"
  | .cluster => "Cluster"

structure Version where
  name : String
  served : Bool
  storage : Bool
  deriving DecidableEq

/-- Parts of a resource that are written apart from it. -/
structure Subresources where
  status : Bool := false
  deriving DecidableEq

/-- A column in listings of the resource. -/
structure Column where
  name : String
  type : String
  jsonPath : String
  description : Option String := none
  deriving DecidableEq

structure Definition where
  name : String := ""
  /-- Sorted by name. -/
  annotations : List (String × String) := []
  group : String := ""
  names : Names := {}
  scope : Scope := .namespaced
  versions : List Version := []
  schema : Option Schema := none
  subresources : Option Subresources := none
  columns : List Column := []
  preserveUnknown : Option Bool := none
  storedVersions : List String := []

namespace Definition

/-- A property of the schema's root. -/
def part? (definition : Definition) (part : String) : Option Schema :=
  definition.schema.bind fun root => root.property? part

/-- Changes a property of the schema's root, if it is there. -/
def modifyPart? (definition : Definition) (part : String) (change : Schema → Schema) : Option Definition :=
  definition.schema.bind fun root =>
    (root.modifyAt? [part] change).map fun changed => { definition with schema := some changed }

end Definition

/-! ### As JSON -/

def Names.toJson (names : Names) : Json :=
  .object ([
    ("plural", .string names.plural),
    ("singular", .string names.singular),
    ("kind", .string names.kind),
    ("listKind", .string names.listKind)] ++
    listed "shortNames" (names.shortNames.map .string) ++
    listed "categories" (names.categories.map .string))

def Version.entries (version : Version) : List (String × Json) :=
  [("name", .string version.name), ("served", .bool version.served), ("storage", .bool version.storage)]

def Column.toJson (column : Column) : Json :=
  .object ([
    ("name", .string column.name),
    ("type", .string column.type),
    ("jsonPath", .string column.jsonPath)] ++
    optional "description" (column.description.map .string))

def Subresources.toJson (subresources : Subresources) : Json :=
  .object (if subresources.status then [("status", .object [])] else [])

namespace Definition

def schemaEntry (schema : Schema) : Json := .object [("openAPIV3Schema", schema.toJson)]

def metadataJson (definition : Definition) : Json :=
  .object (("name", .string definition.name) ::
    mapped "annotations" (definition.annotations.map fun (name, text) => (name, .string text)))

/-- The definition as it is kept, with one schema. -/
def toJson (definition : Definition) : Json :=
  .object [
    ("metadata", definition.metadataJson),
    ("spec", .object ([
      ("group", .string definition.group),
      ("names", definition.names.toJson),
      ("scope", .string definition.scope.name),
      ("versions", .array (definition.versions.map fun version => .object version.entries))] ++
      optional "validation" (definition.schema.map schemaEntry) ++
      optional "subresources" (definition.subresources.map Subresources.toJson) ++
      listed "additionalPrinterColumns" (definition.columns.map Column.toJson) ++
      optional "preserveUnknownFields" (definition.preserveUnknown.map .bool))),
    ("status", .object (listed "storedVersions" (definition.storedVersions.map .string)))]

/-- One version with everything that is written for it. -/
def servedVersion (definition : Definition) (version : Version) : Json :=
  .object (version.entries ++
    optional "schema" (definition.schema.map schemaEntry) ++
    listed "additionalPrinterColumns" (definition.columns.map Column.toJson) ++
    optional "subresources" (definition.subresources.map Subresources.toJson))

/-- The document that a cluster takes, with the entries of all objects sorted. -/
def document (definition : Definition) : Json :=
  Json.sorted (.object [
    ("apiVersion", .string "apiextensions.k8s.io/v1"),
    ("kind", .string "CustomResourceDefinition"),
    ("metadata", definition.metadataJson),
    ("spec", .object [
      ("group", .string definition.group),
      ("names", definition.names.toJson),
      ("scope", .string definition.scope.name),
      ("versions", .array (definition.versions.map definition.servedVersion))])])

end Definition

end CrdForge.Crd
