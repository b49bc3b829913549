import CrdForge.Pipeline.Build

/-! Where in the document a part of a version comes from. -/
namespace CrdForge.Pipeline

/-- The operation of an endpoint. -/
def operationOf (document : OpenApi.Document) (endpoint : Config.Endpoint) :
    Except Failure OpenApi.Operation :=
  match document.path? endpoint.name with
  | none => .error (.pathNotFound endpoint.name)
  | some item =>
    match item.operation endpoint.verb with
    | none => .error (.operationNotFound endpoint.name endpoint.verb)
    | some operation => .ok operation

/-- The schema of a media type, or of the first one if none is named. -/
def mediaSchema? (body : OpenApi.RequestBody) (mimeType : String) : Option OpenApi.Schema :=
  if mimeType = "" then body.content.head?.bind (·.2) else (body.content.lookup mimeType).bind id

/-- The schema of the request body of an endpoint. -/
def endpointSchema (document : OpenApi.Document) (endpoint : Config.Endpoint) :
    Except Failure OpenApi.Schema := do
  let operation ← operationOf document endpoint
  let schema? := (operation.requestBody.bind document.resolveRequestBody).bind fun body =>
    mediaSchema? body endpoint.mimeType
  match schema? with
  | some schema => return schema
  | none => throw (.requestBodyNotFound endpoint.name endpoint.verb endpoint.mimeType)

/-- The schema of a part: the one that is named, or the one of the endpoint. There is none if neither is
given. -/
def sourceSchema (document : OpenApi.Document) (selection : Config.Selection) (part : String) :
    Except Failure (Option OpenApi.Schema) :=
  match selection.schemaName? with
  | some name =>
    match document.schema? name with
    | some schema => .ok (some schema)
    | none => .error (.schemaNotFound part name)
  | none =>
    if selection.endpoint.isSet then some <$> endpointSchema document selection.endpoint else .ok none

end CrdForge.Pipeline
