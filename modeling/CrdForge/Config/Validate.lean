import CrdForge.Config.Decode
import CrdForge.Host.FileSystem
import CrdForge.Text.Quoted

/-! What a configuration must satisfy, and configurations from texts. -/
namespace CrdForge.Config

open Text (quoted)

def expectedKind : String := "Config"

def expectedApiVersion : String := "atlas2crd.mongodb.com/v1alpha1"

/-- What is wrong with a configuration that could be read. -/
inductive Flaw where
  | unnamedDocument
  | sourceNotUnique (document : String)
  | duplicateDocument (document : String)
  | incompleteResource (kind : String)
  | emptyMajorVersion (kind : String)
  | undeclaredDocument (kind majorVersion document : String)
  deriving DecidableEq

def Flaw.message : Flaw → String
  | .unnamedDocument => "OpenAPI definition name cannot be empty"
  | .sourceNotUnique document =>
    "OpenAPI definition " ++ quoted document ++ " must set exactly one of path or package"
  | .duplicateDocument document => "duplicate OpenAPI definition name " ++ quoted document
  | .incompleteResource kind => "CRD " ++ quoted kind ++ ": gvk group, version and kind must all be set"
  | .emptyMajorVersion kind => "CRD " ++ kind ++ ": mapping major version cannot be empty"
  | .undeclaredDocument kind majorVersion document =>
    "CRD " ++ kind ++ ": mapping " ++ majorVersion ++ " references undeclared OpenAPI definition " ++
      quoted document

/-- Why a text is no configuration that may be used. -/
inductive Fault where
  | file (name : String) (fault : Host.FileFault)
  | unparsable (detail : String)
  | wrongDocument (kind apiVersion : String)
  | flawed (flaw : Flaw)
  deriving DecidableEq

def Fault.message : Fault → String
  | .file name fault => "failed to read configuration file " ++ name ++ ": " ++ fault.message
  | .unparsable detail => "failed to parse configuration: " ++ detail
  | .wrongDocument kind apiVersion =>
    "unsupported configuration document " ++ quoted kind ++ " " ++ quoted apiVersion ++ ", expected kind " ++
      quoted expectedKind ++ " and apiVersion " ++ quoted expectedApiVersion
  | .flawed flaw => "invalid configuration: " ++ flaw.message

/-! ### Checks -/

def DocumentSource.check (source : DocumentSource) : Except Flaw Unit :=
  if source.name = "" then .error .unnamedDocument
  else if source.path.isSome == source.package.isSome then .error (.sourceNotUnique source.name)
  else .ok ()

/-- Checks documents in order, given the names of those before. -/
def checkDocuments : List String → List DocumentSource → Except Flaw Unit
  | _, [] => .ok ()
  | before, source :: rest => do
    source.check
    if before.contains source.name then throw (.duplicateDocument source.name)
    checkDocuments (source.name :: before) rest

def Resource.check (resource : Resource) : Except Flaw Unit := do
  if resource.kind = "" || resource.group = "" || resource.version = "" then
    throw (.incompleteResource resource.kind)
  if resource.mappings.any (·.majorVersion == "") then throw (.emptyMajorVersion resource.kind)

/-- Each mapping names one of the documents. -/
def Resource.checkDocuments (resource : Resource) (documents : List String) : Except Flaw Unit :=
  match resource.mappings.find? fun mapping => !documents.contains mapping.document with
  | some mapping => .error (.undeclaredDocument resource.kind mapping.majorVersion mapping.document)
  | none => .ok ()

def checkResources (documents : List String) : List Resource → Except Flaw Unit
  | [] => .ok ()
  | resource :: rest => do
    resource.check
    resource.checkDocuments documents
    checkResources documents rest

/-- Whether a configuration may be used. -/
def check (config : Config) : Except Fault Unit := do
  if config.kind != expectedKind || config.apiVersion != expectedApiVersion then
    throw (.wrongDocument config.kind config.apiVersion)
  let flawed : Except Flaw Unit := do
    checkDocuments [] config.documents
    checkResources (config.documents.map fun source => source.name) config.resources
  flawed.mapError .flawed

/-- The configuration that a text holds, if it may be used. -/
def read (source : String) : Except Fault Config := do
  let document ← (Yaml.Document.read source).mapError fun problem => .unparsable problem.message
  let config ← (Yaml.Reading.run ofTree document).mapError fun misfit => .unparsable misfit.message
  config.check
  return config

end CrdForge.Config
