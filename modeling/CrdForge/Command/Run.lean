import CrdForge.Command.Arguments
import CrdForge.Config.Store
import CrdForge.Generation.Report

/-! What commands do: they read files, write one, and say how it went. -/
namespace CrdForge

/-! ### Failures with their causes

Each cause stands after what it caused, though most messages mention their cause already. -/

def Config.Fault.causes (fault : Config.Fault) : List String :=
  fault.message ::
    match fault with
    | .file _ fault => [fault.message]
    | .unparsable detail => [detail]
    | _ => []

def OpenApi.LoadFault.causes (fault : OpenApi.LoadFault) : List String :=
  fault.message ::
    match fault with
    | .file _ fault => [fault.message]
    | .unparsable _ detail => [detail]
    | _ => []

def Generation.Failure.causes (failure : Generation.Failure) : List String :=
  match failure with
  | .config fault => fault.causes
  | .unresolved reason => [failure.message, reason.message]
  | .unloaded _ fault => failure.message :: fault.causes
  | .plugin staged => [failure.message, staged.failure.message]
  | _ => [failure.message]

namespace Command

open Generation (Generator Output Report)
open Host (Environment FileSystem PathName.parent?)

/-- Where a command runs. -/
structure World where
  files : FileSystem := {}
  environment : Environment := []
  /-- The time, as it is shown. -/
  time : String := ""

/-- What a command has done so far. -/
structure Progress where
  files : FileSystem
  /-- Lines of what is said. -/
  said : List String := []
  /-- Lines of what is said about failures. -/
  warned : List String := []

/-- A step of a command. A failure is given with its causes. -/
abbrev Run (α : Type) := ExceptT (List String) (StateM Progress) α

def say (lines : List String) : Run Unit :=
  modify fun progress => { progress with said := progress.said ++ lines }

def warn (lines : List String) : Run Unit :=
  modify fun progress => { progress with warned := progress.warned ++ lines }

/-- Fails where something else did, with its causes. -/
def orFail {ε α : Type} (causes : ε → List String) : Except ε α → Run α
  | .ok value => return value
  | .error failure => throw (causes failure)

/-- Changes files. A failure is the cause of what could not be done. -/
def onFiles {α : Type} (failure : String) (change : Host.Change α) : Run α := do
  let progress ← get
  let (result, files) := change progress.files
  set { progress with files := files }
  orFail (fun fault => [failure, fault.message]) result

def loadConfig (name : String) : Run Config := do
  orFail (fun fault => ("failed to load configuration " ++ name) :: fault.causes)
    (Config.load (← get).files name)

/-! ### Lists of plugins -/

/-- A name, filled up with spaces. -/
def column (width : Nat) (name : String) : String :=
  name ++ String.ofList (List.replicate (width - name.length) ' ')

def pluginLine (plugin : Pipeline.Plugin) : String :=
  "  " ++ column 32 plugin.name ++ " " ++ plugin.stage.name

def defaultMark (set : Pipeline.PluginSet) : String := if set.default then " (default)" else ""

def setLines (set : Pipeline.PluginSet) : List String :=
  (set.name ++ defaultMark set ++ ":") :: set.plugins.map pluginLine

/-- The sets of a configuration, which must be one that definitions can be made from. -/
def setsOf (config : Config) : Run (List Pipeline.PluginSet) := do
  orFail Generation.Failure.causes do
    config.check.mapError .config
    Generation.setsOf Pipeline.Plugin.all config

def runPlugins (config : Option String) : Run Unit := do
  match config with
  | none => say ("Available plugins:" :: Pipeline.Plugin.all.map pluginLine)
  | some name => say ((← setsOf (← loadConfig name)).flatMap setLines)

/-! ### What a configuration holds -/

def sourceLine (source : Config.DocumentSource) : String :=
  "  - " ++ source.name ++ " (" ++ (OpenApi.identifier? source).getD "" ++ ")"

def resourceLine (resource : Config.Resource) : String :=
  "  - " ++ resource.kind ++ "." ++ resource.group ++ " (" ++
    String.intercalate ", " resource.majorVersions ++ ")"

def setLine (set : Pipeline.PluginSet) : String :=
  "Plugin set " ++ set.name ++ defaultMark set ++ ": " ++ toString set.plugins.length ++ " plugins"

def runValidate (name : String) : Run Unit := do
  let config ← loadConfig name
  let sets ← setsOf config
  say (["Configuration file is valid!", "OpenAPI definitions: " ++ toString config.documents.length] ++
    config.documents.map sourceLine ++
    ["CRDs: " ++ toString config.resources.length] ++
    config.resources.map resourceLine ++
    sets.map setLine)

/-! ### Definitions -/

/-- The text of definitions. -/
def render (definitions : List Crd.Definition) : String :=
  String.join (definitions.map fun definition => Yaml.writeDocument definition.document)

def writeDefinitions (output : String) (definitions : List Crd.Definition) : Run Unit := do
  let parent := (PathName.parent? output).getD ""
  onFiles ("failed to create directory " ++ parent) (Host.makeDirectories parent)
  onFiles ("failed to write " ++ output) (Host.writeFile output (render definitions))

def reportLines (time output : String) (report : Report) : List String :=
  ["Generation completed at " ++ time,
    "CRDs written to " ++ output ++ ": " ++ toString report.names.length] ++
    report.names.map ("  " ++ ·) ++
    (if report.documents.isEmpty then []
    else "OpenAPI definitions:" ::
      report.documents.map fun (name, digest) => "  " ++ name ++ ": sha256:" ++ digest) ++
    report.warnings.map ("  Warning: " ++ ·)

/-- The directory where the paths of a configuration's documents start. -/
def baseOf (config : String) : String := (PathName.parent? config).getD "."

/-- Makes the definitions of a configuration. -/
def makeDefinitions (world : World) (base : String) (config : Config) (failFast : Bool) : Run Output := do
  let loaders := OpenApi.fileLoaders world.environment (← get).files (some base)
  let generator ← orFail Generation.Failure.causes (Generator.ofConfig Pipeline.Plugin.all loaders config)
  orFail Generation.Failure.causes (generator.generateAll config.resources failFast {}).1

def runGenerate (world : World) (name output : String) (force failFast : Bool) : Run Unit := do
  let config ← loadConfig name
  if (← get).files.has output && !force then
    throw ["output file " ++ output ++ " already exists, use --force to overwrite"]
  let made ← makeDefinitions world (baseOf name) config (failFast || config.failFast)
  writeDefinitions output made.definitions
  say (reportLines world.time output made.report)
  warn (made.report.failures.map ("  Error: " ++ ·))
  if !made.report.isSuccess then
    throw [toString made.report.failures.length ++ " of " ++ toString config.resources.length ++
      " CRDs failed to generate"]

/-! ### All commands -/

/-- What may be told. -/
def overviewLines : List String :=
  ["Compile OpenAPI resource descriptions into Kubernetes CustomResourceDefinitions", "",
    "Commands:",
    "  generate  Generate CustomResourceDefinitions from the configured OpenAPI documents",
    "  validate  Validate configuration file and its plugin sets",
    "  plugins   List available plugins, or the resolved plugin sets of a configuration",
    "  help      Print this message or the help of the given subcommand(s)"]

def steps (world : World) : Command → Run Unit
  | .generate config output force failFast => runGenerate world config output force failFast
  | .validate config => runValidate config
  | .plugins config => runPlugins config
  | .overview => say overviewLines

/-- Does what a command says. The result is the failure with its causes, if there is one, and what was
done. -/
def run (world : World) (command : Command) : Option (List String) × Progress :=
  match (command.steps world) { files := world.files } with
  | (.ok (), progress) => (none, progress)
  | (.error causes, progress) => (some causes, progress)

end Command

end CrdForge
