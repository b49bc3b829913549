import CrdForge.Path

/-! Configurations: which documents there are, which resources are made from them, and with which sets of
plugins. -/
namespace CrdForge

namespace Config

/-- A document, by its path or as part of a package. -/
structure DocumentSource where
  name : String
  path : Option String := none
  package : Option String := none
  deriving DecidableEq

/-- The request body of an operation, by path, verb and media type. -/
structure Endpoint where
  name : String := ""
  verb : String := ""
  mimeType : String := ""
  deriving DecidableEq

/-- Which properties are kept, and which become references to secrets. -/
structure Filters where
  readOnly : Bool := false
  readWriteOnly : Bool := false
  skipped : List String := []
  sensitive : List String := []
  deriving DecidableEq

/-- What kind of object a reference points to. -/
structure TargetType where
  kind : String
  group : String := ""
  version : String
  resource : String
  deriving DecidableEq

structure Target where
  type : TargetType
  /-- Properties of the target, the first ones preferred. -/
  properties : List String := []
  deriving DecidableEq

/-- A property that points to another object and stands in for one of the API's. -/
structure Reference where
  name : String
  /-- The path of the property that it stands in for. -/
  property : String
  target : Target
  deriving DecidableEq

/-- What a part of a resource is made from: a named schema or an endpoint, filters and references. -/
structure Selection where
  schema : Option String := none
  endpoint : Endpoint := {}
  filters : Filters := {}
  references : List Reference := []
  deriving DecidableEq

/-- One major version of a resource. -/
structure Mapping where
  majorVersion : String
  /-- The name of the document that it is made from. -/
  document : String
  parameters : Selection := {}
  entry : Selection := {}
  status : Selection := {}
  deriving DecidableEq

/-- A resource that a definition is made for. -/
structure Resource where
  group : String
  version : String
  kind : String
  categories : List String := []
  shortNames : List String := []
  /-- The set of plugins, if not the default one. -/
  pluginSet : Option String := none
  mappings : List Mapping := []
  deriving DecidableEq

/-- A set of plugins as it is declared. -/
structure SetDeclaration where
  name : String
  default : Bool := false
  /-- The set whose plugins come first. -/
  inherit : Option String := none
  plugins : List String := []
  deriving DecidableEq

end Config

structure Config where
  kind : String
  apiVersion : String
  documents : List Config.DocumentSource := []
  resources : List Config.Resource := []
  sets : List Config.SetDeclaration := []
  /-- Whether the first failure ends everything. -/
  failFast : Bool := false
  deriving DecidableEq

namespace Config

/-- The last name in the path of the property that a reference stands in for. -/
def Reference.leaf (reference : Reference) : String := Path.leaf reference.property

/-- The name of a schema. An empty name is none. -/
def Selection.schemaName? (selection : Selection) : Option String :=
  selection.schema.filter (· != "")

def Endpoint.isSet (endpoint : Endpoint) : Bool := endpoint.name != ""

def Resource.majorVersions (resource : Resource) : List String := resource.mappings.map (·.majorVersion)

/-- The document of a name. -/
def document? (config : Config) (name : String) : Option DocumentSource :=
  config.documents.find? (·.name == name)

end Config

end CrdForge
