import CrdForge.Pipeline.Annotate
import CrdForge.Pipeline.Connection
import CrdForge.Pipeline.Reference
import CrdForge.Pipeline.Skeleton
import CrdForge.Pipeline.Version

/-! Plugins and the stages in which they run. -/
namespace CrdForge.Pipeline

/-- Plugins that run once for each version of a resource. -/
inductive MappingPlugin where
  | majorVersion
  | parameters
  | entry
  | status
  | references
  | choices
  | versionChoice
  | connection
  | columns
  deriving DecidableEq

/-- Plugins that run after those and change nothing but annotations. -/
inductive ExtensionPlugin where
  | openApiVersion
  | referenceMetadata
  deriving DecidableEq

inductive Stage where
  | crd
  | mapping
  | property
  | extension
  deriving DecidableEq

inductive Plugin where
  /-- The only plugin that runs once for each resource. -/
  | base
  | mapping (plugin : MappingPlugin)
  | property (plugin : Conversion.PropertyPlugin)
  | extension (plugin : ExtensionPlugin)
  deriving DecidableEq

/-! ### Names -/

def MappingPlugin.name : MappingPlugin → String
  | .majorVersion => "major_version"
  | .parameters => "parameters"
  | .entry => "entry"
  | .status => "status"
  | .references => "reference"
  | .choices => "mutual_exclusive_group"
  | .versionChoice => "mutual_exclusive_major_versions"
  | .connection => "connection_secret"
  | .columns => "print_conditions"

def ExtensionPlugin.name : ExtensionPlugin → String
  | .openApiVersion => "openapi_version"
  | .referenceMetadata => "reference_metadata"

def Stage.name : Stage → String
  | .crd => "crd"
  | .mapping => "mapping"
  | .property => "property"
  | .extension => "extension"

namespace Plugin

def name : Plugin → String
  | .base => "base"
  | .mapping plugin => plugin.name
  | .property plugin => plugin.name
  | .extension plugin => plugin.name

def stage : Plugin → Stage
  | .base => .crd
  | .mapping _ => .mapping
  | .property _ => .property
  | .extension _ => .extension

def mapping? : Plugin → Option MappingPlugin
  | .mapping plugin => some plugin
  | _ => none

def property? : Plugin → Option Conversion.PropertyPlugin
  | .property plugin => some plugin
  | _ => none

def extension? : Plugin → Option ExtensionPlugin
  | .extension plugin => some plugin
  | _ => none

end Plugin

/-- All mapping plugins, in the order in which they usually run. -/
def MappingPlugin.all : List MappingPlugin :=
  [majorVersion, parameters, entry, status, references, choices, versionChoice, connection, columns]

def ExtensionPlugin.all : List ExtensionPlugin := [openApiVersion, referenceMetadata]

/-- All plugins, in the order in which they usually run. -/
def Plugin.all : List Plugin :=
  .base :: MappingPlugin.all.map .mapping ++ Conversion.PropertyPlugin.all.map .property ++
    ExtensionPlugin.all.map .extension

/-! ### Work -/

def MappingPlugin.run (plugin : MappingPlugin) (job : Job) : Build Unit :=
  match plugin with
  | .majorVersion => addVersion job
  | .parameters => addParameters job
  | .entry => addEntry job
  | .status => addStatus job
  | .references => addReferences job
  | .choices => addChoices job
  | .versionChoice => addVersionChoice job
  | .connection => addConnection job
  | .columns => setColumns

def ExtensionPlugin.run (plugin : ExtensionPlugin) (job : Job) : Build Unit :=
  match plugin with
  | .openApiVersion => annotateVersion job
  | .referenceMetadata => annotateReferences job

end CrdForge.Pipeline
