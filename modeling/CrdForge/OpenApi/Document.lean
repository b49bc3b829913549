import CrdForge.Json
import CrdForge.Text.Affix

/-! OpenAPI documents: paths with their operations, and the schemas, parameters and request bodies that
references name. Only what a resource definition is made from is kept. -/
namespace CrdForge

/-- What is said about properties that are not listed: allowed or not, or a schema for them. -/
inductive Additional (α : Type) where
  | flag (allowed : Bool)
  | schema (schema : α)
  deriving Inhabited

namespace OpenApi

/-- A schema has one type name, or a list of them. -/
inductive TypeNames where
  | one (name : String)
  | many (names : List String)
  deriving DecidableEq, Inhabited

structure Schema where
  /-- Where the schema is written, if not here. -/
  reference : Option String := none
  type : Option TypeNames := none
  format : Option String := none
  title : Option String := none
  description : Option String := none
  default : Option Json := none
  sample : Option Json := none
  enumeration : List Json := []
  multipleOf : Option Float := none
  required : List String := []
  readOnly : Bool := false
  items : Option Schema := none
  properties : List (String × Schema) := []
  additional : Option (Additional Schema) := none
  allOf : List Schema := []
  oneOf : List Schema := []
  anyOf : List Schema := []
  not : Option Schema := none
  deriving Inhabited

/-- A parameter, or a reference to one. -/
structure Parameter where
  reference : Option String := none
  name : String := ""
  location : String := ""
  description : Option String := none
  required : Bool := false
  schema : Option Schema := none

/-- A request body, or a reference to one, with a schema for each media type. -/
structure RequestBody where
  reference : Option String := none
  description : Option String := none
  content : List (String × Option Schema) := []
  required : Bool := false

structure Operation where
  operationId : Option String := none
  summary : Option String := none
  parameters : List Parameter := []
  requestBody : Option RequestBody := none

structure PathItem where
  get : Option Operation := none
  post : Option Operation := none
  put : Option Operation := none
  delete : Option Operation := none
  patch : Option Operation := none
  /-- Parameters of every operation of the path. -/
  parameters : List Parameter := []

structure Info where
  title : String := ""
  version : String := ""

structure Components where
  schemas : List (String × Schema) := []
  parameters : List (String × Parameter) := []
  requestBodies : List (String × RequestBody) := []

structure Document where
  version : String := ""
  info : Info := {}
  paths : List (String × PathItem) := []
  components : Components := {}

/-! ### Schemas -/

namespace Schema

/-- The first type name. -/
def typeName (schema : Schema) : Option String :=
  match schema.type with
  | some (.one name) => some name
  | some (.many names) => names.head?
  | none => none

/-- Whether properties that are not listed are expressly allowed. -/
def allowsAdditional (schema : Schema) : Bool :=
  match schema.additional with
  | some (.flag allowed) => allowed
  | _ => false

/-- The schema of properties that are not listed. -/
def additionalSchema (schema : Schema) : Option Schema :=
  match schema.additional with
  | some (.schema additional) => some additional
  | _ => none

end Schema

/-- The operation of a verb, in either case. -/
def PathItem.operation (item : PathItem) (verb : String) : Option Operation :=
  match verb.toLower with
  | "get" => item.get
  | "post" => item.post
  | "put" => item.put
  | "delete" => item.delete
  | "patch" => item.patch
  | _ => none

/-! ### References -/

/-- The last part of a reference. -/
def referenceName (reference : String) : String :=
  Text.afterLast '/' reference

/-- What a reference names among the components of a kind. -/
def referent? {α : Type} (kind reference : String) (components : List (String × α)) : Option α :=
  (Text.after? ("#/components/" ++ kind ++ "/") reference).bind fun name => components.lookup name

/-- How many schemas a chain of references may pass. -/
def maxReferences : Nat := 32

namespace Document

def schema? (document : Document) (name : String) : Option Schema := document.components.schemas.lookup name

def path? (document : Document) (name : String) : Option PathItem := document.paths.lookup name

/-- Follows references until a schema that is none, looking at no more schemas than the first argument
says. -/
def resolveWithin (document : Document) : Nat → Schema → Option Schema
  | 0, _ => none
  | steps + 1, schema =>
    match schema.reference with
    | none => some schema
    | some reference =>
      (referent? "schemas" reference document.components.schemas).bind (resolveWithin document steps)

/-- The schema that a chain of references leads to, if it leads to one. -/
def resolve (document : Document) (schema : Schema) : Option Schema :=
  document.resolveWithin maxReferences schema

/-- The parameter itself, or the one that it refers to. -/
def resolveParameter (document : Document) (parameter : Parameter) : Option Parameter :=
  match parameter.reference with
  | none => some parameter
  | some reference => referent? "parameters" reference document.components.parameters

/-- The request body itself, or the one that it refers to. -/
def resolveRequestBody (document : Document) (body : RequestBody) : Option RequestBody :=
  match body.reference with
  | none => some body
  | some reference => referent? "requestBodies" reference document.components.requestBodies

end Document

end OpenApi

end CrdForge
