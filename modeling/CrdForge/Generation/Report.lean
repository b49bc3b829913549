import CrdForge.Generation.Generator

/-! All definitions of a configuration, and a report of how they were made. -/
namespace CrdForge.Generation

structure Report where
  /-- The names of the definitions, in the order of the configuration. -/
  names : List String := []
  /-- The digests of all documents that were loaded, sorted by name. -/
  documents : List (String × String) := []
  /-- What is wrong with definitions. -/
  warnings : List String := []
  /-- What there is no definition of, and why. -/
  failures : List String := []

structure Output where
  definitions : List Crd.Definition := []
  report : Report := {}

def Report.isSuccess (report : Report) : Bool := report.failures.isEmpty

/-- The digest of a document is the one of its text. -/
def documentDigest (document : OpenApi.Document) : String := Digest.sha256 document.toJson.compact

namespace Output

/-- Adds a definition and its findings. -/
def withDefinition (output : Output) (generated : Generated) : Output :=
  let name := generated.definition.name
  { definitions := output.definitions ++ [generated.definition]
    report := { output.report with
      names := output.report.names ++ [name]
      warnings := output.report.warnings ++ generated.findings.map (name ++ ": " ++ ·) } }

/-- Adds a resource without a definition. -/
def withFailure (output : Output) (kind : String) (failure : Failure) : Output :=
  { output with report := { output.report with
      failures := output.report.failures ++ [kind ++ ": " ++ failure.message] } }

end Output

namespace Generator

/-- Makes the definitions of resources one after another. The first failure ends everything if `failFast` is
set, and is reported otherwise. -/
def generateEach (generator : Generator) (failFast : Bool) (output : Output) :
    List Config.Resource → Step Output
  | [] => return output
  | resource :: rest => do
    let output ← tryCatch (output.withDefinition <$> generator.generate resource) fun failure =>
      if failFast then throw failure else return output.withFailure resource.kind failure
    generator.generateEach failFast output rest

/-- Makes the definitions of resources. -/
def generateAll (generator : Generator) (resources : List Config.Resource) (failFast : Bool) :
    Step Output := do
  let output ← generator.generateEach failFast {} resources
  let documents := (← get).documents.map fun (name, document) => (name, documentDigest document)
  return { output with report := { output.report with documents := documents } }

end Generator

/-- Makes all definitions of a configuration with all plugins. -/
def generateConfig (loaders : OpenApi.Loaders) (config : Config) : Step Output := do
  let generator ← liftExcept (Generator.ofConfig Pipeline.Plugin.all loaders config)
  generator.generateAll config.resources config.failFast

end CrdForge.Generation
