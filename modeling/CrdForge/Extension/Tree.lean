import CrdForge.Json

/-! Annotations beside a schema.

Nodes stand for places of a schema and carry what is said about them; they are linked by the names of
properties and as items, and are referred to by number. A node may be made before it is known whether its
place will be there, and is linked when it is. -/
namespace CrdForge.Extension

/-- The number of a node. -/
abbrev NodeId := Nat

structure Node where
  /-- What is said about the place, sorted by name. -/
  extensions : List (String × Json) := []
  /-- The nodes of properties, sorted by name. -/
  properties : List (String × NodeId) := []
  /-- The node of an array's items. -/
  items : Option NodeId := none
  deriving Inhabited

/-- All nodes that were made, the root first. -/
structure Tree where
  nodes : Array Node
  deriving Inhabited

namespace Tree

/-- A root and nothing else. -/
def empty : Tree := ⟨#[{}]⟩

def root : NodeId := 0

def node (tree : Tree) (id : NodeId) : Node := tree.nodes.getD id {}

def modify (tree : Tree) (id : NodeId) (change : Node → Node) : Tree := ⟨tree.nodes.modify id change⟩

/-! ### Making and linking nodes -/

/-- Makes a node that nothing leads to. -/
def alloc (tree : Tree) : NodeId × Tree := (tree.nodes.size, ⟨tree.nodes.push {}⟩)

/-- Links a node as a property, in place of the one linked before. -/
def attach (tree : Tree) (parent : NodeId) (name : String) (child : NodeId) : Tree :=
  tree.modify parent fun node => { node with properties := Keyed.insert name child node.properties }

def child? (tree : Tree) (parent : NodeId) (name : String) : Option NodeId :=
  (tree.node parent).properties.lookup name

/-- The node of a property, made if there is none. -/
def child (tree : Tree) (parent : NodeId) (name : String) : NodeId × Tree :=
  match tree.child? parent name with
  | some id => (id, tree)
  | none =>
    let (id, tree) := tree.alloc
    (id, tree.attach parent name id)

/-- The node at the end of a chain of properties, with what is missing made. -/
def descend (tree : Tree) (start : NodeId) : List String → NodeId × Tree
  | [] => (start, tree)
  | name :: rest =>
    let (id, tree) := tree.child start name
    tree.descend id rest

/-- The node of an array's items, made if there is none. -/
def items (tree : Tree) (parent : NodeId) : NodeId × Tree :=
  match (tree.node parent).items with
  | some id => (id, tree)
  | none =>
    let (id, tree) := tree.alloc
    (id, tree.modify parent fun node => { node with items := some id })

/-- Says something about a place. -/
def annotate (tree : Tree) (id : NodeId) (name : String) (value : Json) : Tree :=
  tree.modify id fun node => { node with extensions := Keyed.insert name value node.extensions }

def extension? (tree : Tree) (id : NodeId) (name : String) : Option Json :=
  (tree.node id).extensions.lookup name

/-! ### Pruning

A chain of links without a cycle is shorter than the number of nodes, which bounds the recursions. -/

/-- Prunes the properties of a node, keeping those below which something is said. -/
def pruneProperties (prune : NodeId → Tree → Bool × Tree) :
    List (String × NodeId) → Tree → List (String × NodeId) × Tree
  | [], tree => ([], tree)
  | (name, id) :: rest, tree =>
    let (kept, tree) := prune id tree
    let (properties, tree) := pruneProperties prune rest tree
    (if kept then (name, id) :: properties else properties, tree)

/-- Whether something is said at the node or is linked below it. -/
def Node.isKept (node : Node) : Bool :=
  !node.extensions.isEmpty || !node.properties.isEmpty || node.items.isSome

/-- Unlinks every branch below a node in which nothing is said. The answer is whether something is said at
the node or below it. -/
def pruneWithin : Nat → NodeId → Tree → Bool × Tree
  | 0, _, tree => (false, tree)
  | depth + 1, id, tree =>
    let (properties, tree) := pruneProperties (pruneWithin depth) (tree.node id).properties tree
    let (items, tree) := match (tree.node id).items with
      | none => (none, tree)
      | some itemsId =>
        let (kept, tree) := pruneWithin depth itemsId tree
        (if kept then some itemsId else none, tree)
    let tree := tree.modify id fun node => { node with properties := properties, items := items }
    (Node.isKept (tree.node id), tree)

def prune (tree : Tree) (id : NodeId) : Bool × Tree := pruneWithin (tree.nodes.size + 1) id tree

/-! ### As JSON -/

/-- What is said at a node and below it, in the shape of a schema. Links come after what is said and
replace it under their names. -/
def valueWithin (tree : Tree) : Nat → NodeId → Json
  | 0, _ => .object []
  | depth + 1, id =>
    let node := tree.node id
    let said := node.extensions
    let withProperties :=
      if node.properties.isEmpty then said
      else Keyed.insert "properties"
        (.object (node.properties.map fun (name, child) => (name, tree.valueWithin depth child))) said
    let withItems := match node.items with
      | none => withProperties
      | some itemsId => Keyed.insert "items" (tree.valueWithin depth itemsId) withProperties
    .object withItems

def value (tree : Tree) (id : NodeId) : Json := tree.valueWithin (tree.nodes.size + 1) id

/-- The text of all that is said, or nothing if nothing is. -/
def text? (tree : Tree) : Option String :=
  let (kept, pruned) := tree.prune root
  if kept then some (pruned.value root).compact else none

end Tree

/-! ### Names of what is said -/

/-- How a field maps to another object of the cluster. -/
def clusterMapping : String := "x-kubernetes-mapping"

/-- How a field maps back to the API. -/
def apiMapping : String := "x-openapi-mapping"

end CrdForge.Extension
