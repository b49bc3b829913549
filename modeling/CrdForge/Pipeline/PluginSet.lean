import CrdForge.Pipeline.Plugin

/-! Sets of plugins.

A set that inherits from another has the plugins of that one first. Sets are resolved from a queue: one
whose parent is not resolved yet goes back to the end, and when all that are left went back since the last
was resolved they inherit from each other in a circle. -/
namespace CrdForge.Pipeline

open Config (SetDeclaration)

/-- The plugins that sets may name, in order and each once. -/
abbrev Catalog := List Plugin

namespace Catalog

/-- The first plugin of each name. -/
def ofPlugins (plugins : List Plugin) : Catalog :=
  plugins.foldl (fun catalog plugin => if catalog.contains plugin then catalog else catalog ++ [plugin]) []

def plugin? (catalog : Catalog) (name : String) : Option Plugin := catalog.find? (·.name == name)

def names (catalog : Catalog) : List String := catalog.map Plugin.name

/-- The set of all plugins, which is used when none is declared. -/
def defaultDeclaration (catalog : Catalog) : SetDeclaration where
  name := "default"
  default := true
  plugins := catalog.names

end Catalog

/-- A set of plugins with those that it inherits. -/
structure PluginSet where
  name : String
  default : Bool
  /-- No plugin is there twice. -/
  plugins : List Plugin
  deriving DecidableEq

namespace PluginSet

def hasBase (set : PluginSet) : Bool := set.plugins.contains .base

def mappingPlugins (set : PluginSet) : List MappingPlugin := set.plugins.filterMap Plugin.mapping?

def propertyPlugins (set : PluginSet) : List Conversion.PropertyPlugin :=
  set.plugins.filterMap Plugin.property?

def extensionPlugins (set : PluginSet) : List ExtensionPlugin := set.plugins.filterMap Plugin.extension?

end PluginSet

/-- Why declarations make no sets. -/
inductive Unresolved where
  | circularDependency (set : String)
  | pluginNotFound (set plugin : String)
  | unknownParent (set parent : String)
  | duplicateSet (set : String)
  | multipleDefaults (sets : List String)
  deriving DecidableEq

def Unresolved.message : Unresolved → String
  | .circularDependency set => "circular dependency detected in plugin set " ++ set
  | .pluginNotFound set plugin => "plugin " ++ plugin ++ " not found for plugin set " ++ set
  | .unknownParent set parent => "plugin set " ++ set ++ " inherits from unknown plugin set " ++ parent
  | .duplicateSet set => "plugin set " ++ set ++ " is declared more than once"
  | .multipleDefaults sets => "multiple default plugin sets: [" ++ Text.quotedList sets ++ "]"

/-! ### One declaration -/

/-- Adds plugins to inherited ones, passing over those that are there. -/
def addPlugins (catalog : Catalog) (set : String) (plugins : List Plugin) :
    List String → Except Unresolved (List Plugin)
  | [] => .ok plugins
  | name :: rest =>
    match catalog.plugin? name with
    | none => .error (.pluginNotFound set name)
    | some plugin =>
      addPlugins catalog set (if plugins.contains plugin then plugins else plugins ++ [plugin]) rest

/-- The set of a declaration, given the plugins of its parent. -/
def resolveOne (catalog : Catalog) (declaration : SetDeclaration) (inherited : List Plugin) :
    Except Unresolved PluginSet := do
  let plugins ← addPlugins catalog declaration.name inherited declaration.plugins
  return ⟨declaration.name, declaration.default, plugins⟩

/-! ### The queue -/

/-- Declarations that wait, and sets that are resolved. -/
structure Queue where
  waiting : List SetDeclaration
  resolved : List PluginSet := []
  /-- Those that went back to the end since the last set was resolved, the first one first. -/
  stalled : List String := []

/-- The plugins that a declaration inherits, or nothing if its parent is not resolved yet. -/
def inherited? (declared : List String) (resolved : List PluginSet) (declaration : SetDeclaration) :
    Except Unresolved (Option (List Plugin)) :=
  match declaration.inherit with
  | none => .ok (some [])
  | some parent =>
    if !declared.contains parent then .error (.unknownParent declaration.name parent)
    else .ok ((resolved.find? (·.name == parent)).map (·.plugins))

/-- Takes the first declaration off the queue, and resolves it or puts it back at the end. -/
def Queue.step (catalog : Catalog) (declared : List String) (queue : Queue) : Except Unresolved Queue :=
  match queue.waiting with
  | [] => .ok queue
  | declaration :: rest => do
    match ← inherited? declared queue.resolved declaration with
    | some inherited =>
      let set ← resolveOne catalog declaration inherited
      return ⟨rest, queue.resolved ++ [set], []⟩
    | none =>
      let stalled := queue.stalled ++ [declaration.name]
      if rest.length < stalled.length then throw (.circularDependency (stalled.headD declaration.name))
      return ⟨rest ++ [declaration], queue.resolved, stalled⟩

/-- Takes declarations off the queue until none waits, as often as the second argument says at most. -/
def Queue.run (catalog : Catalog) (declared : List String) : Nat → Queue → Except Unresolved Queue
  | 0, queue => .ok queue
  | steps + 1, queue =>
    if queue.waiting.isEmpty then .ok queue
    else do Queue.run catalog declared steps (← queue.step catalog declared)

/-- How often declarations are taken off a queue at most: once each, and for every set that is resolved
once for each of the others. -/
def maxSteps (count : Nat) : Nat := count * (count + 1) / 2

/-! ### All declarations -/

/-- The first name that is there twice. -/
def repeated? (before : List String) : List String → Option String
  | [] => none
  | name :: rest => if before.contains name then some name else repeated? (name :: before) rest

/-- The first set is the default one if no other is. -/
def chooseDefault (sets : List PluginSet) : Except Unresolved (List PluginSet) :=
  match (sets.filter (·.default)).map (·.name), sets with
  | [], first :: rest => .ok ({ first with default := true } :: rest)
  | first :: second :: more, _ => .error (.multipleDefaults (first :: second :: more))
  | _, sets => .ok sets

/-- The sets of declarations, parents before those that inherit from them. -/
def resolveSets (catalog : Catalog) (declarations : List SetDeclaration) :
    Except Unresolved (List PluginSet) := do
  let declared := declarations.map (·.name)
  match repeated? [] declared with
  | some name => throw (.duplicateSet name)
  | none =>
    let queue ← Queue.run catalog declared (maxSteps declarations.length) { waiting := declarations }
    chooseDefault queue.resolved

end CrdForge.Pipeline
