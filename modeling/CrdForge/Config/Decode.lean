import CrdForge.Config.Basic
import CrdForge.Yaml.Reading

/-! Configurations from YAML trees. Unknown fields are passed over. -/
namespace CrdForge.Config

open Yaml (Reading Tree)
open Yaml.Reading (text flag optional list fields field requiredField)

def DocumentSource.ofTree (tree : Tree) : Reading DocumentSource := do
  let given ← fields tree
  return {
    name := ← requiredField given "name" text
    path := ← field given "path" none (optional text)
    package := ← field given "package" none (optional text) }

/-- The media type of a request body. -/
def mimeTypeOfTree (tree : Tree) : Reading String := do field (← fields tree) "mimeType" "" text

def Endpoint.ofTree (tree : Tree) : Reading Endpoint := do
  let given ← fields tree
  return {
    name := ← field given "name" "" text
    verb := ← field given "verb" "" text
    mimeType := ← field given "requestBody" "" mimeTypeOfTree }

def Filters.ofTree (tree : Tree) : Reading Filters := do
  let given ← fields tree
  return {
    readOnly := ← field given "readOnly" false flag
    readWriteOnly := ← field given "readWriteOnly" false flag
    skipped := ← field given "skipProperties" [] (list text)
    sensitive := ← field given "sensitiveProperties" [] (list text) }

def TargetType.ofTree (tree : Tree) : Reading TargetType := do
  let given ← fields tree
  return {
    kind := ← requiredField given "kind" text
    group := ← field given "group" "" text
    version := ← requiredField given "version" text
    resource := ← requiredField given "resource" text }

def Target.ofTree (tree : Tree) : Reading Target := do
  let given ← fields tree
  return {
    type := ← requiredField given "type" TargetType.ofTree
    properties := ← field given "properties" [] (list text) }

def Reference.ofTree (tree : Tree) : Reading Reference := do
  let given ← fields tree
  return {
    name := ← requiredField given "name" text
    property := ← requiredField given "property" text
    target := ← requiredField given "target" Target.ofTree }

def Selection.ofTree (tree : Tree) : Reading Selection := do
  let given ← fields tree
  return {
    schema := ← field given "schema" none (optional text)
    endpoint := ← field given "path" {} Endpoint.ofTree
    filters := ← field given "filters" {} Filters.ofTree
    references := ← field given "references" [] (list Reference.ofTree) }

/-- The name inside a reference to a document. -/
def documentNameOfTree (tree : Tree) : Reading String := do requiredField (← fields tree) "name" text

def Mapping.ofTree (tree : Tree) : Reading Mapping := do
  let given ← fields tree
  return {
    majorVersion := ← requiredField given "majorVersion" text
    document := ← requiredField given "openAPIRef" documentNameOfTree
    parameters := ← field given "parametersMapping" {} Selection.ofTree
    entry := ← field given "entryMapping" {} Selection.ofTree
    status := ← field given "statusMapping" {} Selection.ofTree }

/-- Group, version and kind. -/
def gvkOfTree (tree : Tree) : Reading (String × String × String) := do
  let given ← fields tree
  return (← requiredField given "group" text, ← requiredField given "version" text,
    ← requiredField given "kind" text)

def Resource.ofTree (tree : Tree) : Reading Resource := do
  let given ← fields tree
  let (group, version, kind) ← requiredField given "gvk" gvkOfTree
  return {
    group := group
    version := version
    kind := kind
    categories := ← field given "categories" [] (list text)
    shortNames := ← field given "shortNames" [] (list text)
    pluginSet := ← field given "pluginSet" none (optional text)
    mappings := ← field given "mappings" [] (list Mapping.ofTree) }

def SetDeclaration.ofTree (tree : Tree) : Reading SetDeclaration := do
  let given ← fields tree
  return {
    name := ← requiredField given "name" text
    default := ← field given "default" false flag
    inherit := ← field given "inherit" none (optional text)
    plugins := ← field given "plugins" [] (list text) }

/-- What a configuration says besides its kind and version. -/
def bodyOfTree (kind apiVersion : String) (tree : Tree) : Reading Config := do
  let given ← fields tree
  return {
    kind := kind
    apiVersion := apiVersion
    documents := ← field given "openapi" [] (list DocumentSource.ofTree)
    resources := ← field given "crd" [] (list Resource.ofTree)
    sets := ← field given "pluginSets" [] (list SetDeclaration.ofTree)
    failFast := ← field given "failFast" false flag }

def ofTree (tree : Tree) : Reading Config := do
  let given ← fields tree
  let kind ← requiredField given "kind" text
  let apiVersion ← requiredField given "apiVersion" text
  requiredField given "spec" (bodyOfTree kind apiVersion)

end CrdForge.Config
