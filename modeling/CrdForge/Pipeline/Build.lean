import CrdForge.Conversion.Convert
import CrdForge.Crd.Definition
import CrdForge.Pipeline.Failure

/-! The resource definition under construction, and what plugins that run for one of its versions have at
hand. -/
namespace CrdForge.Pipeline

open Extension (NodeId Tree)

/-- A definition with the annotations beside its schema. -/
structure Draft where
  definition : Crd.Definition := {}
  tree : Tree := Tree.empty

/-- A step of the construction. What was done before a failure stays done. -/
abbrev Build (α : Type) := ExceptT Failure (StateM Draft) α

/-- The version that plugins work on. -/
structure Job where
  resource : Config.Resource
  mapping : Config.Mapping
  document : OpenApi.Document
  /-- What runs on every converted node. -/
  filters : List Conversion.PropertyPlugin

namespace Job

def majorVersion (job : Job) : String := job.mapping.majorVersion

/-- The lower-case kind of the resource. -/
def lowerKind (job : Job) : String := Text.lower job.resource.kind

end Job

/-! ### Parts of the schema -/

/-- The part of a resource that is asked for. -/
def specPart : String := "spec"

/-- The part of a resource that is observed. -/
def statusPart : String := "status"

/-- The part of a version that is neither a parameter nor a reference to one. -/
def entryPart : String := "entry"

/-- A part of the schema. -/
def readPart (part : String) : Build Crd.Schema := do
  match (← get).definition.part? part with
  | some schema => return schema
  | none => throw (.missingPart part)

/-- Changes a part of the schema. -/
def editPart (part : String) (change : Crd.Schema → Crd.Schema) : Build Unit := do
  let draft ← get
  match draft.definition.modifyPart? part change with
  | some definition => set { draft with definition := definition }
  | none => throw (.missingPart part)

/-- What the version asks for. -/
def readVersion (job : Job) : Build Crd.Schema := do
  let spec ← readPart specPart
  match spec.property? job.majorVersion with
  | some version => return version
  | none => throw (.versionNotFound job.majorVersion)

/-- Puts another schema in place of what the version asks for. -/
def writeVersion (job : Job) (version : Crd.Schema) : Build Unit :=
  editPart specPart fun spec => spec.insert job.majorVersion version

/-! ### Annotations -/

/-- Runs a step on the annotations. -/
def onTree {α : Type} (step : Conversion.Step α) : Build α :=
  modifyGet fun draft =>
    let (result, tree) := step draft.tree
    (result, { draft with tree := tree })

/-- The node at the end of a chain of properties from the root. -/
def nodeAt (path : List String) : Build NodeId := onTree (modifyGet fun tree => tree.descend Tree.root path)

/-- The node of a property. -/
def nodeBelow (parent : NodeId) (name : String) : Build NodeId :=
  onTree (modifyGet fun tree => tree.child parent name)

/-- Converts a schema of the document, with the filters of a selection. -/
def convert (job : Job) (selection : Config.Selection) (schema : OpenApi.Schema) (node : NodeId) :
    Build (Option Crd.Schema) :=
  onTree (Conversion.convert ⟨job.document, selection.filters, job.filters⟩
    ⟨some schema, node, [Path.root]⟩ 0)

end CrdForge.Pipeline
