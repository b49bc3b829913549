import CrdForge.Text.Affix

/-! Commands and their arguments. -/
namespace CrdForge

/-- What the program is told to do. -/
inductive Command where
  /-- Write the definitions of a configuration to a file. -/
  | generate (config output : String) (force failFast : Bool)
  /-- Say what a configuration holds. -/
  | validate (config : String)
  /-- List plugins: those of a configuration, or all. -/
  | plugins (config : Option String)
  /-- Say what may be told. -/
  | overview
  deriving DecidableEq

namespace Command

/-- Why arguments are no command: a mistake, or a question about the program. -/
inductive Usage where
  | missingArgument
  | invalidCommand
  | unknownArgument
  | missingValue
  | repeatedArgument
  | uncalledValue
  | help
  | version
  deriving DecidableEq

/-- Questions are no failures. -/
def Usage.exitCode : Usage → Nat
  | .help | .version => 0
  | _ => 2

inductive Argument where
  | config
  | output
  | force
  | failFast
  | help
  | version
  deriving DecidableEq

namespace Argument

def long : Argument → String
  | .config => "config"
  | .output => "output"
  | .force => "force"
  | .failFast => "fail-fast"
  | .help => "help"
  | .version => "version"

def short? : Argument → Option Char
  | .config => some 'c'
  | .output => some 'o'
  | .force => some 'f'
  | .failFast => none
  | .help => some 'h'
  | .version => some 'V'

def takesValue : Argument → Bool
  | .config | .output => true
  | _ => false

end Argument

/-! ### What was read so far -/

structure Reading where
  given : List (Argument × String) := []
  /-- The last argument that takes a value, and the value if it was read. It is checked when the next
  argument comes. -/
  pending : Option (Argument × Option String) := none

namespace Reading

/-- Takes an argument down. None may be given twice. -/
def record (reading : Reading) (argument : Argument) (value : String) : Except Usage Reading :=
  if (reading.given.map (·.1)).contains argument then .error .repeatedArgument
  else .ok { reading with given := reading.given ++ [(argument, value)] }

/-- Takes the last argument down, if it waits for that. -/
def settle (reading : Reading) : Except Usage Reading :=
  match reading.pending with
  | none => .ok reading
  | some (_, none) => .error .missingValue
  | some (argument, some value) => { reading with pending := none }.record argument value

/-- Reads an argument without a value. -/
def flag (reading : Reading) (argument : Argument) : Except Usage Reading := do
  let reading ← reading.settle
  match argument with
  | .help => throw .help
  | .version => throw .version
  | argument => reading.record argument ""

/-- Reads an argument with a value, which stands with it or comes next. -/
def valued (reading : Reading) (argument : Argument) (attached : Option String) : Except Usage Reading := do
  let reading ← reading.settle
  match attached with
  | some value => reading.record argument value
  | none => return { reading with pending := some (argument, none) }

/-- Reads what follows two dashes. -/
def long (known : List Argument) (reading : Reading) (text : String) : Except Usage Reading :=
  let (name, attached) := match Text.splitAt? '=' text with
    | some (name, value) => (name, some value)
    | none => (text, none)
  match known.find? (·.long == name) with
  | none => .error .unknownArgument
  | some argument =>
    if argument.takesValue then reading.valued argument attached
    else if attached.isSome then .error .uncalledValue
    else reading.flag argument

/-- Reads what follows one dash: letters of arguments without a value, and at the end maybe one of an argument
with a value and that value. -/
def shorts (known : List Argument) (reading : Reading) : List Char → Except Usage Reading
  | [] => .ok reading
  | c :: rest =>
    match known.find? (·.short? == some c) with
    | none => .error .unknownArgument
    | some argument =>
      if argument.takesValue then
        reading.valued argument (match rest with
          | [] => none
          | '=' :: value => some (String.ofList value)
          | value => some (String.ofList value))
      else do shorts known (← reading.flag argument) rest

/-- Reads what starts without a dash: the value that is waited for. -/
def plain (reading : Reading) (text : String) : Except Usage Reading :=
  match reading.pending with
  | some (argument, none) => .ok { reading with pending := some (argument, some text) }
  | _ => .error .unknownArgument

/-- Reads all arguments of a command. Nothing may follow two dashes alone. -/
def all (known : List Argument) (reading : Reading) : List String → Except Usage Reading
  | [] => reading.settle
  | text :: rest =>
    match text.toList with
    | ['-', '-'] => if rest.isEmpty then reading.settle else .error .unknownArgument
    | '-' :: '-' :: name => do all known (← reading.long known (String.ofList name)) rest
    | '-' :: c :: more => do all known (← reading.shorts known (c :: more)) rest
    | _ => do all known (← reading.plain text) rest

def value? (reading : Reading) (argument : Argument) : Option String := reading.given.lookup argument

def has (reading : Reading) (argument : Argument) : Bool := (reading.value? argument).isSome

/-- The value of an argument that must be given. -/
def required (reading : Reading) (argument : Argument) : Except Usage String :=
  match reading.value? argument with
  | some value => .ok value
  | none => .error .missingArgument

end Reading

/-! ### Commands -/

def names : List String := ["generate", "validate", "plugins", "help"]

def readGenerate (texts : List String) : Except Usage Command := do
  let reading ← Reading.all [.config, .output, .force, .failFast, .help] {} texts
  return .generate (← reading.required .config) (← reading.required .output) (reading.has .force)
    (reading.has .failFast)

def readValidate (texts : List String) : Except Usage Command := do
  let reading ← Reading.all [.config, .help] {} texts
  return .validate (← reading.required .config)

def readPlugins (texts : List String) : Except Usage Command := do
  let reading ← Reading.all [.config, .help] {} texts
  return .plugins (reading.value? .config)

/-- A question about one of the commands, or about all. -/
def readHelp : List String → Usage
  | [] => .help
  | [name] => if names.contains name then .help else .invalidCommand
  | _ => .invalidCommand

/-- The command that arguments give. -/
def read : List String → Except Usage Command
  | [] => .ok .overview
  | text :: rest =>
    match text.toList with
    | ['-', '-'] =>
      match rest with
      | [] => .ok .overview
      | name :: _ => .error (if names.contains name then .unknownArgument else .invalidCommand)
    | '-' :: '-' :: name => do
      discard (Reading.long [.help, .version] {} (String.ofList name))
      throw .unknownArgument
    | '-' :: c :: more => do
      discard (Reading.shorts [.help, .version] {} (c :: more))
      throw .unknownArgument
    | _ =>
      match text with
      | "generate" => readGenerate rest
      | "validate" => readValidate rest
      | "plugins" => readPlugins rest
      | "help" => .error (readHelp rest)
      | _ => .error .invalidCommand

end Command

end CrdForge
