import CrdForge.Pipeline.Build
import CrdForge.Text.Plural

/-! The definition of a resource before any version is added: names, one version, and a schema with nothing
but the conditions of the status. -/
namespace CrdForge.Pipeline

/-- The plural and singular names of a kind. -/
def resourceNames (kind : String) : String × String :=
  if kind = "" then ("", "") else (Text.plural (Text.lower kind), Text.lower kind)

def conventions : String :=
  "More info: https://git.k8s.io/community/contributors/devel/sig-architecture/" ++
    "api-conventions.md#spec-and-status"

/-! ### Conditions -/

/-- A field of a condition. -/
def conditionField (type description : String) (format : Option String := none) : Crd.Schema where
  type := some type
  format := format
  description := some description

def conditionSchema : Crd.Schema where
  type := some "object"
  required := ["type", "status"]
  properties := [
    ("lastTransitionTime", conditionField "string"
      "Last time the condition transitioned from one status to another." (some "date-time")),
    ("message", conditionField "string" "A human readable message indicating details about the transition."),
    ("observedGeneration", conditionField "integer"
      ("observedGeneration represents the .metadata.generation that the condition was set " ++
        "based upon.")),
    ("reason", conditionField "string" "The reason for the condition's last transition."),
    ("status", conditionField "string" "Status of the condition, one of True, False, Unknown."),
    ("type", conditionField "string" "Type of condition.")]

/-- A list of conditions, one of each type. -/
def conditionsSchema : Crd.Schema where
  type := some "array"
  description := some "Represents the latest available observations of a resource's current state."
  items := some conditionSchema
  listType := some "map"
  listMapKeys := ["type"]

/-! ### The schema -/

def specSchema (singular : String) (majorVersions : List String) : Crd.Schema :=
  .object ("Specification of the " ++ singular ++ " supporting the following versions:\n\n" ++
    String.intercalate "\n" (majorVersions.map ("- " ++ ·)) ++
    "\n\nAt most one versioned spec can be specified. " ++ conventions)

def statusSchema (singular : String) : Crd.Schema :=
  (Crd.Schema.object ("Most recently observed read-only status of the " ++ singular ++
    " for the specified resource version. This data may not be up to date and is populated by the system. " ++
    conventions)).insert "conditions" conditionsSchema

def rootSchema (singular : String) (majorVersions : List String) : Crd.Schema :=
  ((Crd.Schema.object ("A " ++ singular ++ ", managed by the MongoDB Kubernetes Atlas Operator.")).insert
    specPart (specSchema singular majorVersions)).insert statusPart (statusSchema singular)

/-! ### The definition -/

def skeleton (resource : Config.Resource) : Crd.Definition :=
  let (plural, singular) := resourceNames resource.kind
  { name := plural ++ "." ++ resource.group
    group := resource.group
    names := {
      plural := plural
      singular := singular
      kind := resource.kind
      listKind := resource.kind ++ "List"
      shortNames := resource.shortNames
      categories := resource.categories }
    versions := [⟨resource.version, true, true⟩]
    schema := some (rootSchema singular resource.majorVersions)
    subresources := some { status := true }
    preserveUnknown := some false
    storedVersions := [resource.version] }

/-- Starts the definition of a resource over. -/
def startOver (resource : Config.Resource) : Build Unit :=
  modify fun draft => { draft with definition := skeleton resource }

end CrdForge.Pipeline
