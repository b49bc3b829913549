import CrdForge.Text.Affix

/-! Paths to the nodes of a schema: the root, the names of properties, and a wildcard for the items of
an array. -/
namespace CrdForge.Path

/-- The first segment of every path. -/
def root : String := "$"

/-- The segment of the items of an array. -/
def wildcard : String := "[*]"

/-- The segments after the first, each behind a dot, except for wildcards. -/
def renderRest : List String → String
  | [] => ""
  | segment :: rest => (if segment = wildcard then "" else ".") ++ segment ++ renderRest rest

/-- The text of a path. -/
def render : List String → String
  | [] => ""
  | segment :: rest => segment ++ renderRest rest

/-- Whether nothing follows the root. -/
def isRoot (segments : List String) : Bool := segments.length ≤ 1

/-- Takes wildcards off the end of a text, given backwards. -/
def dropWildcards : List Char → List Char
  | ']' :: '*' :: '[' :: rest => dropWildcards rest
  | chars => chars

/-- The last name of a path, without the wildcards after it. -/
def leaf (path : String) : String :=
  Text.afterLast '.' (String.ofList (dropWildcards path.toList.reverse).reverse)

end CrdForge.Path
