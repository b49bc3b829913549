import CrdForge.Conversion.Basic

/-! Plugins that run on every converted node: they keep it, change it, or leave it out. -/
namespace CrdForge

namespace Conversion

/-- What the description of a sensitive field starts with. -/
def sensitivePrefix : String := "SENSITIVE FIELD"

inductive PropertyPlugin where
  | readOnly
  | readWrite
  | skipped
  | sensitive
  deriving DecidableEq

namespace PropertyPlugin

def name : PropertyPlugin → String
  | .readOnly => "read_only_property"
  | .readWrite => "read_write_property"
  | .skipped => "skipped_properties"
  | .sensitive => "sensitive_properties"

/-- All of them, in the order in which they usually run. -/
def all : List PropertyPlugin := [readOnly, readWrite, skipped, sensitive]

end PropertyPlugin

/-! ### Keeping and leaving out -/

/-- Requires only the properties that pass a test. -/
def requireOnly (test : String → Bool) (schema : Crd.Schema) : Crd.Schema :=
  { schema with required := schema.required.filter test }

/-- Keeps what is read-only. Of the rest only the root stays, and requires what is read-only in it. -/
def keepReadOnly (site : Site) (schema : Crd.Schema) : Option Crd.Schema :=
  if !site.filters.readOnly || site.source.readOnly then some schema
  else if Path.isRoot site.path then some (requireOnly site.hasReadOnly schema)
  else none

/-- Leaves out what is read-only. -/
def keepReadWrite (site : Site) (schema : Crd.Schema) : Option Crd.Schema :=
  if !site.filters.readWriteOnly then some schema
  else if site.source.readOnly then none
  else some (requireOnly (fun property => !site.hasReadOnly property) schema)

/-- Leaves out what the configuration lists by path. -/
def keepUnlisted (site : Site) (schema : Crd.Schema) : Option Crd.Schema :=
  let skipped := site.filters.skipped
  if skipped.contains site.location then none
  else if skipped.isEmpty || schema.properties.isEmpty then some schema
  else some (requireOnly (fun property => !skipped.contains (Path.render (site.path ++ [property]))) schema)

/-! ### References to secrets -/

/-- The object that stands in for a sensitive field: the name of a secret and a key of its data. -/
def secretReference (leaf : String) (description : Option String) : Crd.Schema :=
  let key : Crd.Schema :=
    { Crd.Schema.string "Key of the secret data containing the sensitive field value." with
      default := some (.string (".data." ++ leaf)) }
  let described := match description with
    | some text => if text = "" then sensitivePrefix else sensitivePrefix ++ "\n\n" ++ text
    | none => sensitivePrefix
  let name := Crd.Schema.string "Name of the secret containing the sensitive field value."
  { (((Crd.Schema.object described).insert "name" name).insert "key" key) with
    id := some (leaf ++ "SecretRef") }

/-- How a reference to a secret leads to the secret. -/
def secretMapping : Json :=
  .object [
    ("nameSelector", .string ".name"),
    ("propertySelectors", Json.strings ["$.data.#"]),
    ("type", .object [
      ("kind", .string "Secret"),
      ("resource", .string "secrets"),
      ("version", .string "v1")])]

/-- Which field of the API a reference to a secret stands in for. -/
def secretOrigin (site : Site) : Json :=
  .object [("property", .string site.location), ("type", .string (site.source.typeName.getD ""))]

/-- Puts a reference to a secret in place of what the configuration lists as sensitive. Nothing that was
said below it is left. -/
def hideSensitive (site : Site) (schema : Crd.Schema) : Step Crd.Schema := do
  if !site.filters.sensitive.contains site.location then return schema
  match site.path.getLast? with
  | none => return schema
  | some leaf =>
    modify fun tree =>
      ((tree.modify site.node fun node => { node with properties := [], items := none })
        |>.annotate site.node Extension.clusterMapping secretMapping)
        |>.annotate site.node Extension.apiMapping (secretOrigin site)
    return secretReference leaf schema.description

/-- What becomes of a converted node. -/
def PropertyPlugin.apply (plugin : PropertyPlugin) (site : Site) (schema : Crd.Schema) :
    Step (Option Crd.Schema) :=
  match plugin with
  | .readOnly => return keepReadOnly site schema
  | .readWrite => return keepReadWrite site schema
  | .skipped => return keepUnlisted site schema
  | .sensitive => some <$> hideSensitive site schema

/-- What becomes of a node after all plugins of a chain, which ends when one leaves the node out. -/
def applyAll (site : Site) : List PropertyPlugin → Crd.Schema → Step (Option Crd.Schema)
  | [], schema => return some schema
  | plugin :: rest, schema => do
    match ← plugin.apply site schema with
    | some schema => applyAll site rest schema
    | none => return none

end Conversion

end CrdForge
