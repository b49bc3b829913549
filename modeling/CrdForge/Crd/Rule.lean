import CrdForge.Text.Quoted

/-! Rules on objects, in the expression language of the cluster, and the conditions they state.

A condition on the presence of fields is a choice between clauses, each of which asks for some fields and
excludes others. -/
namespace CrdForge.Crd

/-- A rule that an object must satisfy, and what is said when it does not. -/
structure Rule where
  rule : String
  message : String := ""
  deriving DecidableEq, Inhabited

/-- A field that must be present, or must not. -/
structure Literal where
  field : String
  present : Bool
  deriving DecidableEq

inductive Condition where
  /-- Never satisfied. -/
  | never
  | present (field : String)
  /-- All literals of one of the clauses hold. -/
  | anyOf (clauses : List (List Literal))
  /-- The value is the one that was there before. -/
  | unchanged

/-! ### Texts -/

def presenceText (field : String) : String := "has(self." ++ field ++ ")"

def Literal.text (literal : Literal) : String :=
  (if literal.present then "" else "!") ++ presenceText literal.field

def clauseText (clause : List Literal) : String :=
  "(" ++ String.intercalate " && " (clause.map Literal.text) ++ ")"

def Condition.text : Condition → String
  | .never => "false"
  | .present field => presenceText field
  | .anyOf clauses => String.intercalate " || " (clauses.map clauseText)
  | .unchanged => "self == oldSelf"

/-! ### Conditions -/

namespace Condition

/-- For each field, the clause that asks for it and excludes the others. The fields before the remaining
ones are excluded throughout. -/
def oneOfClauses (before : List String) : List String → List (List Literal)
  | [] => []
  | field :: rest =>
    ((before.map fun other => ⟨other, false⟩) ++ ⟨field, true⟩ :: rest.map fun other => ⟨other, false⟩) ::
      oneOfClauses (before ++ [field]) rest

/-- Exactly one of the fields is present. -/
def exactlyOneOf : List String → Condition
  | [] => .never
  | [field] => .present field
  | fields => .anyOf (oneOfClauses [] fields)

/-- With the field comes the dependency. -/
def requiredIf (field dependency : String) : Condition :=
  .anyOf [[⟨field, true⟩, ⟨dependency, true⟩], [⟨field, false⟩]]

end Condition

/-! ### Rules -/

namespace Rule

/-- Exactly one of the fields must be set. -/
def exactlyOneOf (fields : List String) : Rule where
  rule := (Condition.exactlyOneOf fields).text
  message := "exactly one of " ++ Text.quotedList fields ++ " must be set"

/-- The value of a name stays what it was first. -/
def immutable (name : String) : Rule where
  rule := Condition.unchanged.text
  message := name ++ " cannot be modified after creation"

end Rule

end CrdForge.Crd
