import CrdForge.Command.Run

/-! What a command looks at, which must be known before it can be run on a copy of the world. -/
namespace CrdForge.Command

open Host (Environment FileSystem)
open Host.PathName (join parent?)

/-- The name of the configuration of a command. -/
def config? : Command → Option String
  | .generate config _ _ _ => some config
  | .validate config => some config
  | .plugins config => config
  | .overview => none

/-- The name of a directory with those of all that it is in, looking at no more names than the first argument
says. -/
def ancestors : Nat → String → List String
  | 0, _ => []
  | depth + 1, name =>
    match parent? name with
    | some parent => name :: ancestors depth parent
    | none => [name]

/-- The names of the files that a command was told. -/
def toldNames (command : Command) : List String :=
  match command with
  | .generate config output _ _ => config :: ancestors (output.length + 1) output
  | command => command.config?.toList

/-- The variables that commands look at, with those that the paths of a configuration use. -/
def variableNames (config : Config) : List String :=
  ["HOME", "GOPATH", "GOMODCACHE"] ++
    config.documents.flatMap fun source => (source.path.map Host.variablesOf).getD []

/-- The names of the files that a document is looked for in. -/
def documentNames (environment : Environment) (base : String) (source : Config.DocumentSource) :
    List String :=
  let path := source.path.bind fun path => (OpenApi.fileName environment (some base) path).toOption
  let package := do
    let name ← OpenApi.packageName? (← source.package)
    let directory := join (← OpenApi.moduleCache? environment) name
    return join directory OpenApi.packageDocument
  path.toList ++ package.toList

end CrdForge.Command
