import CrdForge.Pipeline.Build

/-! References to other objects of the cluster, and the choice between a reference and the field that it
stands in for. -/
namespace CrdForge.Pipeline

/-- The property that refers to another object by its name. -/
def referenceSchema (reference : Config.Reference) (targetProperty : String) : Crd.Schema :=
  let kind := reference.target.type.kind
  let leaf := reference.leaf
  (Crd.Schema.object ("A reference to a \"" ++ kind ++ "\" resource.\nThe value of \"" ++ targetProperty ++
    "\" will be used to set \"" ++ leaf ++ "\".\nMutually exclusive with the \"" ++ leaf ++
      "\" property.")).insert
    "name" (.string ("Name of the \"" ++ kind ++ "\" resource."))

/-- Lists a reference in a schema. The field that it stands in for is required no more. -/
def withReference (target : Crd.Schema) (reference : Config.Reference) (targetProperty : String) :
    Crd.Schema :=
  (target.insert reference.name (referenceSchema reference targetProperty)).removeRequired reference.leaf

/-- Lists references in a schema, up to the first one whose target has no property. -/
def withReferences (target : Crd.Schema) : List Config.Reference → Crd.Schema × Option Failure
  | [] => (target, none)
  | reference :: rest =>
    match reference.target.properties with
    | [] => (target, some .emptyReferenceTarget)
    | targetProperty :: _ => withReferences (withReference target reference targetProperty) rest

/-- Fails, if there is a failure. -/
def raise : Option Failure → Build Unit
  | some failure => throw failure
  | none => return

/-- Adds the references of the parameters to the version, and those of the entry to its entry. -/
def addReferences (job : Job) : Build Unit := do
  let parameters := job.mapping.parameters.references
  let references := job.mapping.entry.references
  if parameters.isEmpty && references.isEmpty then return
  let (version, failure) := withReferences (← readVersion job) parameters
  writeVersion job version
  raise failure
  if references.isEmpty then return
  match version.property? entryPart with
  | none => throw (.missingPart entryPart)
  | some entry =>
    let (entry, failure) := withReferences entry references
    writeVersion job (version.insert entryPart entry)
    raise failure

/-! ### Choices -/

/-- Demands a choice between each reference and the field that it stands in for, where both are listed. -/
def withChoices (target : Crd.Schema) (references : List Config.Reference) : Crd.Schema :=
  references.foldl (fun target reference =>
    if Keyed.has reference.leaf target.properties && Keyed.has reference.name target.properties then
      target.addRule (Crd.Rule.exactlyOneOf [reference.leaf, reference.name])
    else target) target

/-- Demands the choices of the version and of its entry. -/
def versionWithChoices (mapping : Config.Mapping) (version : Crd.Schema) : Crd.Schema :=
  let version := withChoices version mapping.parameters.references
  match version.property? entryPart with
  | some entry => version.insert entryPart (withChoices entry mapping.entry.references)
  | none => version

def addChoices (job : Job) : Build Unit := do
  writeVersion job (versionWithChoices job.mapping (← readVersion job))

/-! ### The choice of a version -/

/-- Demands a choice between the versions that are there, if there are several. The demand that was made
before the current one came is taken back. -/
def withVersionChoice (configured : List String) (current : String) (spec : Crd.Schema) : Crd.Schema :=
  let present := configured.filter fun version => Keyed.has version spec.properties
  let previous := present.filter (· != current)
  if present.length < 2 then spec
  else
    let kept := if previous.length < 2 then spec
      else { spec with rules := spec.rules.filter (· != Crd.Rule.exactlyOneOf previous) }
    kept.addRule (Crd.Rule.exactlyOneOf present)

def addVersionChoice (job : Job) : Build Unit :=
  editPart specPart (withVersionChoice job.resource.majorVersions job.majorVersion)

end CrdForge.Pipeline
