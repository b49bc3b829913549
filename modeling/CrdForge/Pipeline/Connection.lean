import CrdForge.Pipeline.Build

/-! The secret with the credentials of the service, which is needed where fields identify what they scope,
and the columns of listings. -/
namespace CrdForge.Pipeline

/-- The property that refers to the secret. -/
def connectionProperty : String := "connectionSecretRef"

def connectionSchema : Crd.Schema :=
  (Crd.Schema.object (Conversion.sensitivePrefix ++
    "\n\nReference to a secret containing the credentials to setup the connection to Atlas.")).insert
    "name" (.string "Name of the secret containing the Atlas credentials.")

/-- The fields that identify what a version is scoped to, in order. -/
def identities (mapping : Config.Mapping) : List String :=
  Keyed.distinct ("groupId" :: mapping.parameters.references.map Config.Reference.leaf)

/-- With a field of a version comes the secret. -/
def connectionRule (version field : String) : Crd.Rule where
  rule := (Crd.Condition.requiredIf (version ++ "." ++ field) connectionProperty).text
  message := "spec." ++ connectionProperty ++ " must be set if spec." ++ version ++ "." ++ field ++ " is set."

/-- The rules for the identities that a version lists. -/
def versionRules (identities : List String) (version : String × Crd.Schema) : List Crd.Rule :=
  if version.1 = connectionProperty then []
  else (identities.filter fun field => Keyed.has field version.2.properties).map (connectionRule version.1)

/-- Lists the secret, unless something is listed in its place. -/
def withConnection (spec : Crd.Schema) : Crd.Schema :=
  if Keyed.has connectionProperty spec.properties then spec
  else spec.insert connectionProperty connectionSchema

/-- Adds the rules for the identities of a mapping in all versions. -/
def withConnectionRules (mapping : Config.Mapping) (spec : Crd.Schema) : Crd.Schema :=
  (spec.properties.flatMap (versionRules (identities mapping))).foldl Crd.Schema.addRule spec

def addConnection (job : Job) : Build Unit := do
  editPart specPart withConnection
  discard (readVersion job)
  editPart specPart (withConnectionRules job.mapping)

/-! ### Columns -/

/-- A column for a field of the condition of a type. -/
def conditionColumn (name type field : String) : Crd.Column where
  name := name
  type := "string"
  jsonPath := ".status.conditions[?(@.type==\"" ++ type ++ "\")]." ++ field

def conditionColumns : List Crd.Column :=
  [conditionColumn "Ready" "Ready" "status", conditionColumn "Reason" "Ready" "reason",
    conditionColumn "State" "State" "reason"]

def setColumns : Build Unit :=
  modify fun draft => { draft with definition := { draft.definition with columns := conditionColumns } }

end CrdForge.Pipeline
