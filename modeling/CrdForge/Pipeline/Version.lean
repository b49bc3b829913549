import CrdForge.Pipeline.Source

/-! What a version asks for and shows: the parameters of the operation, the entry, and the status. -/
namespace CrdForge.Pipeline

open Extension (NodeId)

/-- Adds an empty schema for the version, in place of the one that is there. -/
def addVersion (job : Job) : Build Unit :=
  editPart specPart fun spec => spec.insert job.majorVersion
    (.object ("The spec of the " ++ job.lowerKind ++ " resource for version " ++ job.majorVersion ++ "."))

/-! ### Parameters -/

/-- The verbs whose parameters can be asked for. -/
def parameterVerbs : List String := ["get", "post", "put", "patch"]

/-- Parameters about pages and formats, which no resource has. -/
def ignoredParameters : List String := ["includeCount", "itemsPerPage", "pageNum", "envelope", "pretty"]

/-- The parameters of the operation of an endpoint, those of its path first. -/
def endpointParameters (document : OpenApi.Document) (endpoint : Config.Endpoint) :
    Except Failure (List OpenApi.Parameter) :=
  match document.path? endpoint.name with
  | none => .error (.pathNotFound endpoint.name)
  | some item =>
    if !parameterVerbs.contains endpoint.verb.toLower then .error (.unsupportedVerb endpoint.verb)
    else match item.operation endpoint.verb with
      | none => .error (.operationNotFound endpoint.name endpoint.verb)
      | some operation => .ok (item.parameters ++ operation.parameters)

/-- A converted parameter as a property: it has the parameter's description and keeps its first value. -/
def parameterProperty (parameter : OpenApi.Parameter) (converted : Crd.Schema) : Crd.Schema :=
  { converted with description := parameter.description.or converted.description }.addRule
    (Crd.Rule.immutable parameter.name)

/-- Lists a converted parameter as a property. -/
def withParameter (parameter : OpenApi.Parameter) (converted : Crd.Schema) (version : Crd.Schema) :
    Crd.Schema :=
  let listed := version.insert parameter.name (parameterProperty parameter converted)
  if parameter.required then listed.addRequired parameter.name else listed

/-- Adds a property for a parameter, if it has a schema and that has a conversion. -/
def addParameter (job : Job) (node : NodeId) (parameter : OpenApi.Parameter) : Build Unit := do
  if ignoredParameters.contains parameter.name then return
  match parameter.schema with
  | none => return
  | some schema =>
    let place ← nodeBelow node parameter.name
    match ← convert job job.mapping.parameters schema place with
    | none => return
    | some converted => writeVersion job (withParameter parameter converted (← readVersion job))

/-- Adds a property for each parameter of the operation. References that lead nowhere are passed over. -/
def addParameters (job : Job) : Build Unit := do
  let endpoint := job.mapping.parameters.endpoint
  if !endpoint.isSet then return
  let parameters ← liftExcept (endpointParameters job.document endpoint)
  let node ← nodeAt [specPart, job.majorVersion]
  discard (readVersion job)
  for parameter in parameters.filterMap job.document.resolveParameter do
    addParameter job node parameter

/-! ### Entry and status -/

def entryDescription (job : Job) (plural : String) : String :=
  "The entry fields of the " ++ job.lowerKind ++
    " resource spec. These fields can be set for creating and updating " ++ plural ++ "."

/-- Adds the entry, if it has a source. Without a conversion of the source there is no entry, which is a
failure. -/
def addEntry (job : Job) : Build Unit := do
  let selection := job.mapping.entry
  match ← liftExcept (sourceSchema job.document selection entryPart) with
  | none => return
  | some schema =>
    discard (readVersion job)
    let node ← nodeAt [specPart, job.majorVersion, entryPart]
    match ← convert job selection schema node with
    | none => throw (.emptySchema entryPart (selection.schemaName?.getD selection.endpoint.name))
    | some converted =>
      let plural := (← get).definition.names.plural
      let entry := { converted with description := some (entryDescription job plural) }
      writeVersion job ((← readVersion job).insert entryPart entry)

def statusDescription (job : Job) : String :=
  "The last observed Atlas state of the " ++ job.lowerKind ++ " resource for version " ++ job.majorVersion ++
    "."

/-- Adds the status of the version, if it has a source and that has a conversion. -/
def addStatus (job : Job) : Build Unit := do
  let selection := job.mapping.status
  match ← liftExcept (sourceSchema job.document selection statusPart) with
  | none => return
  | some schema =>
    let node ← nodeAt [statusPart, job.majorVersion]
    match ← convert job selection schema node with
    | none => return
    | some converted =>
      editPart statusPart fun status =>
        status.insert job.majorVersion { converted with description := some (statusDescription job) }

end CrdForge.Pipeline
