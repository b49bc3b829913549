import CrdForge.Command.Needs
import CrdForge.Host.Clock

/-! The program.

A command runs on a copy of what it looks at: the files and variables are read first, the command is run, and
then the files that it wrote are written and what it said is printed. -/
namespace CrdForge.Shell

open Host (Entry Environment FileSystem Location)

/-- The version of the program. -/
def version : String := "crdforge 0.1.0"

/-! ### Reading -/

/-- Where a name leads if no directory is a link. -/
def location (here : Location) (name : String) : Location :=
  (Host.PathName.parts name).foldl
    (fun place part =>
      if part = "" || part = "." then place else if part = ".." then place.dropLast else place ++ [part])
    (if Host.PathName.isAbsolute name then [] else here)

/-- What there is at a location. -/
def entryAt (place : Location) : IO (Option Entry) := do
  let path := (← IO.currentDir) / ("/" ++ String.intercalate "/" place)
  if ← path.isDir then return some .directory
  if !(← path.pathExists) then return none
  try return some (.text (← IO.FS.readFile path))
  catch _ => return some .binary

/-- Adds what there is at a name, and the directories on the way. -/
def observe (files : FileSystem) (name : String) : IO FileSystem := do
  let place := location files.here name
  let mut files := files
  for length in List.range (place.length + 1) do
    let place := place.take length
    if (files.entry? place).isNone then
      if let some entry ← entryAt place then
        files := files.put place entry
  return files

def observeAll (files : FileSystem) (names : List String) : IO FileSystem := names.foldlM observe files

/-- The values of variables. -/
def readVariables (names : List String) : IO Environment :=
  names.filterMapM fun name => do return (← IO.getEnv name).map fun value => (name, value)

/-- The time, which is when the first look at the program's own process is taken. -/
def readTime : IO String := do
  try
    let modified := (← ((← IO.currentDir) / "/proc/self/stat").metadata).modified
    return Host.Clock.text modified.sec.toNat modified.nsec.toNat
  catch _ => return Host.Clock.text 0 0

/-- All that a command looks at. -/
def readWorld (command : Command) : IO Command.World := do
  let here := location [] (← IO.currentDir).toString
  let files ← observeAll ⟨[], here⟩ ("." :: command.toldNames)
  let time ← readTime
  match command.config?.map fun name => (name, Config.load files name) with
  | some (name, .ok config) =>
    let environment ← readVariables (Command.variableNames config)
    let names := config.documents.flatMap (Command.documentNames environment (Command.baseOf name))
    return ⟨← observeAll files names, environment, time⟩
  | _ => return ⟨files, [], time⟩

/-! ### Writing -/

/-- Writes the entries that are not what they were, the oldest first. -/
def writeChanges (before after : FileSystem) : IO Unit := do
  for (place, entry) in after.entries.reverse do
    if before.entry? place != some entry then
      let path := (← IO.currentDir) / ("/" ++ String.intercalate "/" place)
      match entry with
      | .directory => IO.FS.createDirAll path
      | .text content => IO.FS.writeFile path content
      | .binary => return

/-- Runs a command and answers whether it did what it was told. -/
def runCommand (command : Command) : IO UInt32 := do
  let world ← readWorld command
  let (causes, progress) := command.run world
  writeChanges world.files progress.files
  for line in progress.said do IO.println line
  for line in progress.warned do IO.eprintln line
  match causes with
  | none => return 0
  | some causes =>
    IO.eprintln ("Error: " ++ String.intercalate ": " causes)
    return 1

/-! ### Usage -/

/-- What is said about arguments that are no command. -/
def usageLines : Command.Usage → List String
  | .missingArgument => ["error: the following required arguments were not provided"]
  | .invalidCommand => ["error: unrecognized subcommand"]
  | .unknownArgument => ["error: unexpected argument found"]
  | .missingValue => ["error: a value is required but none was supplied"]
  | .repeatedArgument => ["error: an argument cannot be used multiple times"]
  | .uncalledValue => ["error: unexpected value found"]
  | .help => Command.overviewLines
  | .version => [version]

end CrdForge.Shell

open CrdForge in
def main (arguments : List String) : IO UInt32 := do
  match Command.read arguments with
  | .ok command => Shell.runCommand command
  | .error usage =>
    for line in Shell.usageLines usage do
      if usage.exitCode = 0 then IO.println line else IO.eprintln line
    return UInt32.ofNat usage.exitCode
