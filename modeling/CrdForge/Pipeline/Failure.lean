import CrdForge.Text.Quoted

/-! Why a plugin could not do its work. -/
namespace CrdForge.Pipeline

open Text (quoted)

inductive Failure where
  /-- The schema lacks a part that plugins before should have made. -/
  | missingPart (part : String)
  | versionNotFound (version : String)
  | pathNotFound (path : String)
  | unsupportedVerb (verb : String)
  | operationNotFound (path verb : String)
  | requestBodyNotFound (path verb mimeType : String)
  | schemaNotFound (part name : String)
  | emptySchema (part name : String)
  | emptyReferenceTarget
  deriving DecidableEq

def Failure.message : Failure → String
  | .missingPart part => "CRD schema has no " ++ part ++ " node"
  | .versionNotFound version => "version " ++ version ++ " not found in spec"
  | .pathNotFound path => "OpenAPI path " ++ path ++ " does not exist"
  | .unsupportedVerb verb => "verb " ++ quoted verb ++ " unsupported"
  | .operationNotFound path verb => "OpenAPI path " ++ path ++ " has no " ++ verb ++ " operation"
  | .requestBodyNotFound path verb mimeType =>
    "OpenAPI path " ++ path ++ " " ++ verb ++ " has no " ++ quoted mimeType ++ " request body schema"
  | .schemaNotFound part name => part ++ " schema " ++ quoted name ++ " not found in openapi spec"
  | .emptySchema part name => part ++ " schema " ++ quoted name ++ " produced no CRD schema"
  | .emptyReferenceTarget => "reference target must have at least one property defined"

/-- A failure, with the plugin and what it was working on. -/
structure StagedFailure where
  plugin : String
  kind : String
  /-- Empty if the plugin does not work on one version. -/
  majorVersion : String
  failure : Failure
  deriving DecidableEq

def StagedFailure.message (staged : StagedFailure) : String :=
  staged.plugin ++ " plugin failed for " ++ staged.kind ++ " " ++ staged.majorVersion ++ ": " ++
    staged.failure.message

end CrdForge.Pipeline
