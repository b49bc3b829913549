import CrdForge.Pipeline.Build

/-! What is said beside the schema: where versions come from, and where references lead. -/
namespace CrdForge.Pipeline

open Extension (NodeId)

def annotate (node : NodeId) (name : String) (value : Json) : Build Unit :=
  onTree (modify fun tree => tree.annotate node name value)

/-- Says which document a version is made from. -/
def annotateVersion (job : Job) : Build Unit := do
  let node ← nodeAt [specPart, job.majorVersion]
  annotate node Extension.apiMapping (.object [
    ("definition", .string job.mapping.document),
    ("version", .string job.document.info.version)])

/-- How a reference leads to its target. -/
def targetMapping (target : Config.Target) : Json :=
  .object [
    ("nameSelector", .string ".name"),
    ("properties", Json.strings target.properties),
    ("type", .object [
      ("group", .string target.type.group),
      ("kind", .string target.type.kind),
      ("resource", .string target.type.resource),
      ("version", .string target.type.version)])]

def annotateReference (parent : List String) (reference : Config.Reference) : Build Unit := do
  if reference.target.properties.isEmpty then throw .emptyReferenceTarget
  let node ← nodeBelow (← nodeAt parent) reference.name
  annotate node Extension.clusterMapping (targetMapping reference.target)
  annotate node Extension.apiMapping (.object [("property", .string reference.property)])

/-- Says where the references of a version and of its entry lead. -/
def annotateReferences (job : Job) : Build Unit := do
  for reference in job.mapping.parameters.references do
    annotateReference [specPart, job.majorVersion] reference
  for reference in job.mapping.entry.references do
    annotateReference [specPart, job.majorVersion, entryPart] reference

end CrdForge.Pipeline
