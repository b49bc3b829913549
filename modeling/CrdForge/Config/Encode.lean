import CrdForge.Config.Basic
import CrdForge.OpenApi.Encode

/-! Configurations as JSON. Values that are optional are left out when they are not there. -/
namespace CrdForge.Config

open Json (optional strings)

def DocumentSource.toJson (source : DocumentSource) : Json :=
  .object (("name", .string source.name) ::
    (optional "path" (source.path.map .string) ++ optional "package" (source.package.map .string)))

def Endpoint.toJson (endpoint : Endpoint) : Json :=
  .object [
    ("name", .string endpoint.name),
    ("verb", .string endpoint.verb),
    ("requestBody", .object [("mimeType", .string endpoint.mimeType)])]

def Filters.toJson (filters : Filters) : Json :=
  .object [
    ("readOnly", .bool filters.readOnly),
    ("readWriteOnly", .bool filters.readWriteOnly),
    ("skipProperties", strings filters.skipped),
    ("sensitiveProperties", strings filters.sensitive)]

def TargetType.toJson (type : TargetType) : Json :=
  .object (("kind", .string type.kind) ::
    (if type.group = "" then [] else [("group", .string type.group)]) ++
    [("version", .string type.version), ("resource", .string type.resource)])

def Target.toJson (target : Target) : Json :=
  .object [("type", target.type.toJson), ("properties", strings target.properties)]

def Reference.toJson (reference : Reference) : Json :=
  .object [
    ("name", .string reference.name),
    ("property", .string reference.property),
    ("target", reference.target.toJson)]

def Selection.toJson (selection : Selection) : Json :=
  .object (optional "schema" (selection.schema.map .string) ++ [
    ("path", selection.endpoint.toJson),
    ("filters", selection.filters.toJson),
    ("references", .array (selection.references.map Reference.toJson))])

def Mapping.toJson (mapping : Mapping) : Json :=
  .object [
    ("majorVersion", .string mapping.majorVersion),
    ("openAPIRef", .object [("name", .string mapping.document)]),
    ("parametersMapping", mapping.parameters.toJson),
    ("entryMapping", mapping.entry.toJson),
    ("statusMapping", mapping.status.toJson)]

def Resource.toJson (resource : Resource) : Json :=
  .object ([
    ("gvk", .object [
      ("group", .string resource.group),
      ("version", .string resource.version),
      ("kind", .string resource.kind)]),
    ("categories", strings resource.categories),
    ("shortNames", strings resource.shortNames)] ++
    optional "pluginSet" (resource.pluginSet.map .string) ++
    [("mappings", .array (resource.mappings.map Mapping.toJson))])

def SetDeclaration.toJson (declaration : SetDeclaration) : Json :=
  .object ([
    ("name", .string declaration.name),
    ("default", .bool declaration.default)] ++
    optional "inherit" (declaration.inherit.map .string) ++
    [("plugins", strings declaration.plugins)])

def toJson (config : Config) : Json :=
  .object [
    ("kind", .string config.kind),
    ("apiVersion", .string config.apiVersion),
    ("spec", .object [
      ("openapi", .array (config.documents.map DocumentSource.toJson)),
      ("crd", .array (config.resources.map Resource.toJson)),
      ("pluginSets", .array (config.sets.map SetDeclaration.toJson)),
      ("failFast", .bool config.failFast)])]

end CrdForge.Config
