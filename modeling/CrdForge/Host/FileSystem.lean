import CrdForge.Host.PathName
import CrdForge.Keyed

/-! Files and directories, and the few things that are done with them.

Every file and every directory but the root is an entry at the parts of its absolute name. A name is
followed part by part, and all that it passes must be directories. Neither a name nor any part of it may
be too long, and no name holds a zero character. -/
namespace CrdForge.Host

inductive Entry where
  | text (content : String)
  /-- A file that holds no text. -/
  | binary
  | directory
  deriving DecidableEq

/-- Why something could not be done with a file. -/
inductive FileFault where
  | notFound
  | exists
  | notDirectory
  | isDirectory
  | tooLong
  | zeroCharacter
  | notText
  deriving DecidableEq

def FileFault.message : FileFault → String
  | .notFound => "No such file or directory (os error 2)"
  | .exists => "File exists (os error 17)"
  | .notDirectory => "Not a directory (os error 20)"
  | .isDirectory => "Is a directory (os error 21)"
  | .tooLong => "File name too long (os error 36)"
  | .zeroCharacter => "file name contained an unexpected NUL byte"
  | .notText => "stream did not contain valid UTF-8"

/-- Where something is: the names on the way from the root. -/
abbrev Location := List String

structure FileSystem where
  entries : List (Location × Entry) := []
  /-- Where names start that are not absolute. -/
  here : Location := []

namespace FileSystem

def entry? (files : FileSystem) (location : Location) : Option Entry :=
  if location.isEmpty then some .directory else files.entries.lookup location

/-- Puts an entry in place of the one that is there. -/
def put (files : FileSystem) (location : Location) (entry : Entry) : FileSystem :=
  { files with entries := (location, entry) :: files.entries.filter (·.1 != location) }

/-! ### Names -/

/-- Refuses a name that nothing can have. -/
def checkName (name : String) : Except FileFault Unit :=
  if name.toList.contains '\x00' then .error .zeroCharacter
  else if PathName.maxBytes < name.utf8ByteSize then .error .tooLong
  else if name = "" then .error .notFound
  else .ok ()

/-- Follows parts from a location. The last one need not be there. -/
def follow (files : FileSystem) (location : Location) : List String → Except FileFault Location
  | [] => .ok location
  | part :: rest =>
    match files.entry? location with
    | none => .error .notFound
    | some .directory =>
      if part = "" || part = "." then follow files location rest
      else if part = ".." then follow files location.dropLast rest
      else if PathName.maxPartBytes < part.utf8ByteSize then .error .tooLong
      else follow files (location ++ [part]) rest
    | some _ => .error .notDirectory

/-- Where a name leads. -/
def locate (files : FileSystem) (name : String) : Except FileFault Location := do
  checkName name
  files.follow (if PathName.isAbsolute name then [] else files.here) (PathName.parts name)

/-- The entry of a name. -/
def find (files : FileSystem) (name : String) : Except FileFault Entry := do
  match files.entry? (← files.locate name) with
  | some entry => return entry
  | none => throw .notFound

def has (files : FileSystem) (name : String) : Bool := (files.find name).isOk

def hasDirectory (files : FileSystem) (name : String) : Bool :=
  match files.find name with
  | .ok .directory => true
  | _ => false

/-- The text of a file. -/
def read (files : FileSystem) (name : String) : Except FileFault String := do
  match ← files.find name with
  | .text content => return content
  | .binary => throw .notText
  | .directory => throw .isDirectory

end FileSystem

/-! ### Changes

What was changed before something failed stays changed. -/

/-- A step that changes files. -/
abbrev Change (α : Type) := ExceptT FileFault (StateM FileSystem) α

/-- The name without slashes at its end, and whether there were any. The root is left as it is. -/
def withoutSlashes (name : String) : String × Bool :=
  let trimmed := String.ofList (name.toList.reverse.dropWhile (· == '/')).reverse
  if trimmed = "" then (name, false) else (trimmed, trimmed != name)

/-- Writes a file, in place of the one that is there. A name with a slash at its end is one of a directory,
whatever its last part is. -/
def writeFile (name content : String) : Change Unit := do
  let files ← get
  liftExcept (FileSystem.checkName name)
  let (trimmed, slashes) := withoutSlashes name
  let location ← liftExcept (files.locate (if slashes then PathName.beforeLast trimmed else trimmed))
  if slashes || files.entry? location == some .directory then throw .isDirectory
  set (files.put location (.text content))

/-- Makes a directory in one that is there. -/
def makeDirectory (name : String) : Change Unit := do
  let files ← get
  liftExcept (FileSystem.checkName name)
  let location ← liftExcept (files.locate (withoutSlashes name).1)
  if (files.entry? location).isSome then throw .exists
  else set (files.put location .directory)

/-- Makes a directory with all that it is in, looking at no more names than the first argument says. -/
def makeDirectoriesWithin : Nat → String → Change Unit
  | 0, _ => throw .notFound
  | depth + 1, name => do
    if name = "" then return
    let make (missing : Change Unit) : Change Unit := tryCatch (makeDirectory name) fun fault => do
      if fault = .notFound then missing
      else if (← get).hasDirectory name then return
      else throw fault
    make do
      match PathName.parent? name with
      | none => throw .notFound
      | some parent =>
        makeDirectoriesWithin depth parent
        make (throw .notFound)

/-- Makes a directory with all that it is in. -/
def makeDirectories (name : String) : Change Unit := makeDirectoriesWithin (name.length + 1) name

end CrdForge.Host
