import CrdForge.Crd.Definition
import CrdForge.Text.Blank
import CrdForge.Text.Case

/-! What a cluster asks of a resource definition: its names, its versions, the structure of its schema and
the columns of its listings. -/
namespace CrdForge.Crd

/-- What is wrong with a definition, and where. -/
inductive Finding where
  | kindMissing
  | pluralMissing
  | pluralNotLower (plural : String)
  | nameMismatch (name expected : String)
  | noVersions
  | storageVersions (count : Nat)
  | schemaMissing
  | rootNotObject
  | typeMissing (path : String)
  | unknownFormat (path format : String)
  | itemsMissing (path : String)
  | additionalBesideProperties (path : String)
  | requiredWithoutProperty (path name : String)
  | emptyRule (path : String)
  | columnPath (column path : String)
  deriving DecidableEq

open Text (quoted)

def schemaPath : String := "spec.validation.openAPIV3Schema"

def Finding.message : Finding → String
  | .kindMissing => "spec.names.kind: Required value"
  | .pluralMissing => "spec.names.plural: Required value"
  | .pluralNotLower plural => "spec.names.plural: Invalid value: " ++ quoted plural ++ ": must be lowercase"
  | .nameMismatch name expected =>
    "metadata.name: Invalid value: " ++ quoted name ++ ": must be spec.names.plural+\".\"+spec.group (" ++
      quoted expected ++ ")"
  | .noVersions => "spec.versions: Invalid value: must have at least one version"
  | .storageVersions count =>
    "spec.versions: Invalid value: must have exactly one version marked as storage version, found " ++
      toString count
  | .schemaMissing => schemaPath ++ ": Required value"
  | .rootNotObject => schemaPath ++ ".type: Unsupported value: must be object at the root"
  | .typeMissing path => path ++ ".type: Required value: must not be empty for specified object fields"
  | .unknownFormat path format => path ++ ".format: Unsupported value: " ++ quoted format
  | .itemsMissing path => path ++ ".items: Required value: must be specified for array types"
  | .additionalBesideProperties path =>
    path ++ ".additionalProperties: Forbidden: additionalProperties and properties are mutual exclusive"
  | .requiredWithoutProperty path name =>
    path ++ ".required: Invalid value: " ++ quoted name ++ ": no such property"
  | .emptyRule path => path ++ ".x-kubernetes-validations: Required value: rule is empty"
  | .columnPath column path =>
    "spec.additionalPrinterColumns[" ++ column ++ "].jsonPath: Invalid value: " ++ quoted path ++
      ": must be a simple json path starting with ."

/-! ### Single nodes -/

/-- The finding, if what is expected does not hold. -/
def expect (fine : Bool) (finding : Finding) : List Finding := if fine then [] else [finding]

def formatFindings (schema : Schema) (path : String) : List Finding :=
  match schema.format with
  | some format => expect (supportedFormats.contains format) (.unknownFormat path format)
  | none => []

/-- What is wrong with a node itself. -/
def nodeFindings (schema : Schema) (path : String) : List Finding :=
  expect (schema.type.isSome || schema.preservesUnknown) (.typeMissing path) ++
  formatFindings schema path ++
  expect (schema.typeName != "array" || schema.items.isSome) (.itemsMissing path) ++
  expect (schema.properties.isEmpty || schema.additional.isNone) (.additionalBesideProperties path) ++
  schema.required.flatMap (fun name =>
    expect (Keyed.has name schema.properties || schema.preservesUnknown)
      (.requiredWithoutProperty path name)) ++
  schema.rules.flatMap fun rule => expect (!Text.isBlank rule.rule) (.emptyRule path)

/-! ### Whole schemas -/

/-- What a list of branches hangs on. -/
def branchPath (path keyword : String) (index : Nat) : String :=
  path ++ "." ++ keyword ++ "[" ++ toString index ++ "]"

mutual
/-- What is wrong with a node and all that it nests. A branch may lack a type, and of its own nodes only
its format and its properties are looked at. -/
def schemaFindings (path : String) : Schema → List Finding
  | ⟨id, type, format, title, description, default, sample, enumeration, multipleOf, required,
      items, properties, additional, allOf, oneOf, anyOf, not, preserveUnknown, listType,
      listMapKeys, rules⟩ =>
    nodeFindings ⟨id, type, format, title, description, default, sample, enumeration,
      multipleOf, required, items, properties, additional, allOf, oneOf, anyOf, not, preserveUnknown,
      listType, listMapKeys, rules⟩ path ++
    propertiesFindings path properties ++
    itemsFindings path items ++
    additionalFindings? path additional ++
    branchesFindings path "allOf" 0 allOf ++
    branchesFindings path "oneOf" 0 oneOf ++
    branchesFindings path "anyOf" 0 anyOf
termination_by structural x => x

def propertiesFindings (path : String) : List (String × Schema) → List Finding
  | [] => []
  | property :: rest => propertyFindings path property ++ propertiesFindings path rest
termination_by structural x => x

def propertyFindings (path : String) : String × Schema → List Finding
  | (name, schema) => schemaFindings (path ++ ".properties[" ++ name ++ "]") schema
termination_by structural x => x

def itemsFindings (path : String) : Option Schema → List Finding
  | none => []
  | some items => schemaFindings (path ++ ".items") items
termination_by structural x => x

def additionalFindings? (path : String) : Option (Additional Schema) → List Finding
  | none => []
  | some additional => additionalFindings path additional
termination_by structural x => x

def additionalFindings (path : String) : Additional Schema → List Finding
  | .flag _ => []
  | .schema schema => schemaFindings (path ++ ".additionalProperties") schema
termination_by structural x => x

def branchesFindings (path keyword : String) (index : Nat) : List Schema → List Finding
  | [] => []
  | branch :: rest =>
    branchFindings (branchPath path keyword index) branch ++ branchesFindings path keyword (index + 1) rest
termination_by structural x => x

def branchFindings (path : String) : Schema → List Finding
  | ⟨id, type, format, title, description, default, sample, enumeration, multipleOf, required,
      items, properties, additional, allOf, oneOf, anyOf, not, preserveUnknown, listType,
      listMapKeys, rules⟩ =>
    formatFindings ⟨id, type, format, title, description, default, sample, enumeration,
      multipleOf, required, items, properties, additional, allOf, oneOf, anyOf, not, preserveUnknown,
      listType, listMapKeys, rules⟩ path ++
    propertiesFindings path properties
termination_by structural x => x
end

/-! ### Definitions -/

namespace Definition

def nameFindings (definition : Definition) : List Finding :=
  let plural := definition.names.plural
  let expected := plural ++ "." ++ definition.group
  expect (definition.names.kind != "") .kindMissing ++
  (if plural = "" then [.pluralMissing] else expect (plural == Text.lower plural) (.pluralNotLower plural)) ++
  expect (definition.name == expected) (.nameMismatch definition.name expected)

def versionFindings (definition : Definition) : List Finding :=
  if definition.versions.isEmpty then [.noVersions]
  else
    let count := (definition.versions.filter (·.storage)).length
    expect (count == 1) (.storageVersions count)

def rootFindings (definition : Definition) : List Finding :=
  match definition.schema with
  | none => [.schemaMissing]
  | some root => expect root.isObject .rootNotObject ++ schemaFindings schemaPath root

def columnFindings (definition : Definition) : List Finding :=
  definition.columns.flatMap fun column =>
    expect (Text.startsWith "." column.jsonPath) (.columnPath column.name column.jsonPath)

/-- Everything that is wrong with a definition, in the order in which it is looked at. -/
def findings (definition : Definition) : List Finding :=
  definition.nameFindings ++ definition.versionFindings ++ definition.rootFindings ++
    definition.columnFindings

end Definition

end CrdForge.Crd
