import CrdForge.Crd.Structural
import CrdForge.Digest
import CrdForge.Generation.Failure
import CrdForge.OpenApi.Encode

/-! Definitions of resources, made by running plugins.

A document that was loaded is kept, so that definitions which are made one after another load it once. -/
namespace CrdForge.Generation

open Pipeline (Draft Build Job PluginSet StagedFailure)

/-- The annotation of a definition that holds what is said beside its schema. -/
def mappingsKey : String := "api-mappings"

/-- What definitions are made with. -/
structure Generator where
  sources : List Config.DocumentSource
  sets : List PluginSet
  loaders : OpenApi.Loaders
  /-- What is wrong with a definition. -/
  inspect : Crd.Definition → List String := fun definition => definition.findings.map Crd.Finding.message

/-- The documents that were loaded. -/
structure Cache where
  /-- Sorted by name. -/
  documents : List (String × OpenApi.Document) := []
  /-- The identifiers that loaders were asked for, the first one first. -/
  asked : List String := []

/-- A step of generation. What was loaded before a failure stays loaded. -/
abbrev Step (α : Type) := ExceptT Failure (StateM Cache) α

/-- A definition and what is wrong with it. -/
structure Generated where
  definition : Crd.Definition
  findings : List String

/-! ### Preparation -/

/-- The sets that a configuration declares, or the one of all plugins if it declares none. -/
def setsOf (catalog : Pipeline.Catalog) (config : Config) : Except Failure (List PluginSet) :=
  let declarations := if config.sets.isEmpty then [catalog.defaultDeclaration] else config.sets
  (Pipeline.resolveSets catalog declarations).mapError .unresolved

/-- The generator of a configuration, if that may be used. -/
def Generator.ofConfig (catalog : Pipeline.Catalog) (loaders : OpenApi.Loaders) (config : Config) :
    Except Failure Generator := do
  config.check.mapError .config
  return { sources := config.documents, sets := ← setsOf catalog config, loaders := loaders }

namespace Generator

/-- The set of plugins of a resource. -/
def setOf (generator : Generator) (resource : Config.Resource) : Except Failure PluginSet :=
  match resource.pluginSet with
  | some name =>
    match generator.sets.find? (·.name == name) with
    | some set => .ok set
    | none => .error (.unknownSet resource.kind name)
  | none =>
    match generator.sets.find? (·.default) with
    | some set => .ok set
    | none => .error .noDefaultSet

/-! ### Documents -/

/-- Loads a document and keeps it. -/
def load (generator : Generator) (source : Config.DocumentSource) : Step OpenApi.Document := do
  modify fun cache => { cache with asked := cache.asked ++ (OpenApi.identifier? source).toList }
  match generator.loaders.load source with
  | .error fault => throw (.unloaded source.name fault)
  | .ok document =>
    modify fun cache => { cache with documents := Keyed.insert source.name document cache.documents }
    return document

/-- The document of a name, which is loaded if it was not before. -/
def document (generator : Generator) (name : String) : Step OpenApi.Document := do
  match (← get).documents.lookup name with
  | some document => return document
  | none =>
    match generator.sources.find? (·.name == name) with
    | some source => generator.load source
    | none => throw (.unknownDocument name)

/-! ### Plugins -/

/-- The draft after a plugin, or why the plugin failed. -/
def runPlugin (kind majorVersion plugin : String) (build : Build Unit) (draft : Draft) :
    Except StagedFailure Draft :=
  match build draft with
  | (.ok (), draft) => .ok draft
  | (.error failure, _) => .error ⟨plugin, kind, majorVersion, failure⟩

/-- The draft after the plugins that run once for each resource. -/
def startDraft (set : PluginSet) (resource : Config.Resource) : Except StagedFailure Draft :=
  if set.hasBase then runPlugin resource.kind "" Pipeline.Plugin.base.name (Pipeline.startOver resource) {}
  else .ok {}

/-- The draft after the plugins that run for a version: those that change the schema first. -/
def addMapping (set : PluginSet) (job : Job) (draft : Draft) : Except StagedFailure Draft := do
  let kind := job.resource.kind
  let draft ← set.mappingPlugins.foldlM
    (fun draft plugin => runPlugin kind job.majorVersion plugin.name (plugin.run job) draft) draft
  set.extensionPlugins.foldlM
    (fun draft plugin => runPlugin kind job.majorVersion plugin.name (plugin.run job) draft) draft

/-- The draft after all versions, in order. -/
def addMappings (generator : Generator) (set : PluginSet) (resource : Config.Resource) :
    List Config.Mapping → Draft → Step Draft
  | [], draft => return draft
  | mapping :: rest, draft => do
    let document ← generator.document mapping.document
    let job : Job := ⟨resource, mapping, document, set.propertyPlugins⟩
    let draft ← liftExcept ((addMapping set job draft).mapError Failure.plugin)
    generator.addMappings set resource rest draft

/-- The definition of a draft, with what is said beside its schema as an annotation. -/
def finish (draft : Draft) : Crd.Definition :=
  match draft.tree.text? with
  | some text =>
    { draft.definition with
      annotations := Keyed.insert mappingsKey text draft.definition.annotations }
  | none => draft.definition

/-! ### Definitions -/

/-- Makes the definition of a resource. -/
def generate (generator : Generator) (resource : Config.Resource) : Step Generated := do
  match Pipeline.repeated? [] resource.majorVersions with
  | some majorVersion => throw (.duplicateMajorVersion resource.kind majorVersion)
  | none =>
    let set ← liftExcept (generator.setOf resource)
    let draft ← liftExcept ((startDraft set resource).mapError Failure.plugin)
    let definition := finish (← generator.addMappings set resource resource.mappings draft)
    return ⟨definition, generator.inspect definition⟩

end Generator

end CrdForge.Generation
