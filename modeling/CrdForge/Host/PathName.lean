import CrdForge.Text.Affix

/-! Names of files as they are written: parts with slashes between them. -/
namespace CrdForge.Host.PathName

/-- How many bytes a name may have. -/
def maxBytes : Nat := 4095

/-- How many bytes a part of a name may have. -/
def maxPartBytes : Nat := 255

/-- Whether a name starts at the root, wherever it is used. -/
def isAbsolute (name : String) : Bool := Text.startsWith "/" name

theorem isAbsolute_iff {name : String} : isAbsolute name = true ↔ name.toList.head? = some '/' := by
  rw [isAbsolute, Text.startsWith]
  cases name.toList with
  | nil => decide
  | cons c rest =>
    rw [show "/".toList =
      ['/'] by decide, List.head?_cons, Option.some_inj, List.isPrefixOf, List.isPrefixOf_nil_left,
      Bool.and_true, beq_iff_eq, eq_comm]

/-- What a name stands for inside a directory. -/
def join (directory name : String) : String :=
  if isAbsolute name || directory = "" then name
  else if directory.toList.getLast? == some '/' then directory ++ name
  else directory ++ "/" ++ name

/-- Several names, each inside the one before. -/
def joinAll (directory : String) (names : List String) : String := names.foldl join directory

/-- The parts of a name. A name that starts or ends with a slash has an empty part there. -/
def parts (name : String) : List String := (Text.splitAll '/' name.toList).map String.ofList

/-- What stands before the last part of a name. It leads to where that part is looked for. -/
def beforeLast (name : String) : String :=
  match name.toList.reverse.dropWhile (· != '/') with
  | [] => "."
  | before => String.ofList before.reverse

/-! ### Parents -/

/-- Takes slashes, and parts that are a single dot, off the end of a name that is given backwards. What
is left is not empty, unless it was. -/
def trimEnd : List Char → List Char
  | '/' :: c :: rest => trimEnd (c :: rest)
  | '.' :: '/' :: rest => if rest.isEmpty then ['/'] else trimEnd ('/' :: rest)
  | name => name

/-- The name of the directory that a name is in. Neither the root nor an empty name is in one. -/
def parent? (name : String) : Option String :=
  match trimEnd name.toList.reverse with
  | [] | ['/'] => none
  | trimmed => some (String.ofList (trimEnd (trimmed.dropWhile (· != '/'))).reverse)

end CrdForge.Host.PathName
