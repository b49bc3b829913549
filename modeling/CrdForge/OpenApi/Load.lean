import CrdForge.Config.Basic
import CrdForge.Host.Environment
import CrdForge.Host.FileSystem
import CrdForge.OpenApi.Decode
import CrdForge.Text.Quoted

/-! Documents from files and from packages.

A package is installed in a module cache, in a directory named for its module and version, and has its
document at a fixed place. -/
namespace CrdForge.OpenApi

open Host (Environment FileFault FileSystem)
open Host.PathName (join joinAll)

/-- Why a document could not be loaded. -/
inductive LoadFault where
  | file (name : String) (fault : FileFault)
  | unparsable (identifier : String) (fault : Fault)
  | unset (identifier : String) (missing : Host.Unset)
  | remote (identifier : String)
  | invalidPackage (reference : String)
  | packageNotFound (reference cache : String)
  | noCache

def LoadFault.message : LoadFault → String
  | .file name fault => "failed to read OpenAPI document " ++ name ++ ": " ++ fault.message
  | .unparsable identifier fault => "failed to parse OpenAPI document " ++ identifier ++ ": " ++ fault
  | .unset identifier missing => "failed to expand " ++ identifier ++ ": " ++ missing.message
  | .remote identifier =>
    "cannot load " ++ identifier ++ ": remote documents require the `http` feature"
  | .invalidPackage reference =>
    "invalid package reference " ++ Text.quoted reference ++ ", expected module@version"
  | .packageNotFound reference cache => "package " ++ reference ++ " not found in module cache " ++ cache
  | .noCache => "could not determine the module cache directory"

/-- The document of a text. -/
def parse (identifier source : String) : Except LoadFault Document :=
  (Document.read source).mapError (.unparsable identifier)

/-- The document in a file. -/
def loadFile (files : FileSystem) (identifier name : String) : Except LoadFault Document := do
  parse identifier (← (files.read name).mapError (.file name))

/-! ### Paths -/

/-- Whether an identifier names a document on another machine. -/
def isRemote (identifier : String) : Bool :=
  Text.startsWith "http://" identifier || Text.startsWith "https://" identifier

/-- The name of the file of an identifier. Names that are not absolute start at the base. -/
def fileName (environment : Environment) (base : Option String) (identifier : String) :
    Except LoadFault String := do
  let expanded ← (Host.expand environment identifier).mapError (.unset identifier)
  return (base.map fun base => join base expanded).getD expanded

/-- The document of a path. -/
def loadPath (environment : Environment) (files : FileSystem) (base : Option String) (identifier : String) :
    Except LoadFault Document :=
  if isRemote identifier then .error (.remote identifier)
  else do loadFile files identifier (← fileName environment base identifier)

/-! ### Packages -/

/-- Where packages keep their document. -/
def packageDocument : String := "openapi/atlas-api-transformed.yaml"

/-- The directory in which packages are installed. -/
def moduleCache? (environment : Environment) : Option String :=
  (environment.nonempty? "GOMODCACHE").or
    (((environment.nonempty? "GOPATH").map (joinAll · ["pkg", "mod"])).or
      (environment.home?.map (joinAll · ["go", "pkg", "mod"])))

/-- The name of a module or version as part of the name of a directory: capital letters are written as
small ones after an exclamation mark, since not all file systems tell them apart. -/
def escaped (name : String) : String :=
  String.ofList (name.toList.flatMap fun c => if c.isUpper then ['!', c.toLower] else [c])

/-- The name of the directory of a package. -/
def packageName? (reference : String) : Option String :=
  match Text.splitAt? '@' reference with
  | some (module, version) =>
    if module = "" || version = "" then none else some (escaped module ++ "@" ++ escaped version)
  | none => none

/-- The directory in which a package is installed. -/
def packageDirectory (files : FileSystem) (cache reference : String) : Except LoadFault String :=
  match packageName? reference with
  | none => .error (.invalidPackage reference)
  | some name =>
    let directory := join cache name
    if files.hasDirectory directory then .ok directory else .error (.packageNotFound reference cache)

/-- The document of a package. -/
def loadPackage (files : FileSystem) (cache document reference : String) : Except LoadFault Document := do
  let directory ← packageDirectory files cache reference
  loadFile files reference (join directory document)

/-! ### Both -/

/-- Ways to load the documents of identifiers. -/
structure Loaders where
  path : String → Except LoadFault Document
  package : String → Except LoadFault Document

/-- Loads from files. -/
def fileLoaders (environment : Environment) (files : FileSystem) (base : Option String) : Loaders where
  path := loadPath environment files base
  package := match moduleCache? environment with
    | some cache => loadPackage files cache packageDocument
    | none => fun _ => .error .noCache

/-- How a document is identified to the loader that it is loaded with. -/
def identifier? (source : Config.DocumentSource) : Option String := source.path.or source.package

/-- The document of a source. -/
def Loaders.load (loaders : Loaders) (source : Config.DocumentSource) : Except LoadFault Document :=
  match source.path, source.package with
  | some path, _ => loaders.path path
  | none, some package => loaders.package package
  | none, none => .error (.invalidPackage "")

end CrdForge.OpenApi
