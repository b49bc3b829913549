import CrdForge.Yaml.Lexer
import CrdForge.Yaml.Tree

/-! YAML nodes: a document with its aliases replaced by what they refer to.

Replacing is bounded in two ways, so that a small text cannot stand for an enormous document: collections
nest at most 128 deep, and no more aliases are followed than a hundred for each node of the text. What lies
beyond either bound is marked, and is an error only for a reader that looks there. -/
namespace CrdForge.Yaml

inductive Node where
  | scalar (tag : Option Tag) (style : ScalarStyle) (text : String)
  | sequence (tag : Option Tag) (items : List Node)
  | mapping (tag : Option Tag) (entries : List (Node × Node))
  | beyondBounds
  deriving Inhabited

/-- How deep collections may nest. -/
def maxNesting : Nat := 128

/-- How many aliases may be followed for each node of the text. -/
def aliasesPerNode : Nat := 100

/-- What an alias refers to, while any may still be followed. The state is how many. -/
def Document.follow (document : Document) (tree : Tree) : StateM Nat (Option Tree) :=
  match tree with
  | .alias number => fun left =>
    match left with
    | 0 => (none, 0)
    | left + 1 => (document.subtree? number, left)
  | tree => pure (some tree)

/-- The node that a tree stands for. -/
def Document.expand (document : Document) : Nat → Tree → StateM Nat Node
  | depth, tree => do
    match ← document.follow tree, depth with
    | some (.scalar tag style text), _ => return .scalar tag style text
    | some (.sequence tag items), depth + 1 => return .sequence tag (← items.mapM (expand document depth))
    | some (.mapping tag entries), depth + 1 =>
      return .mapping tag (← entries.mapM fun (key, value) => do
        return (← expand document depth key, ← expand document depth value))
    | _, _ => return .beyondBounds

/-- The document that a text holds. -/
def Document.read (text : String) : Except Problem Document := do Document.ofTokens? (← Token.scan text)

/-- The node that a text holds. -/
def Node.read (text : String) : Except Problem Node := do
  let document ← Document.read text
  return (document.expand maxNesting document.root (aliasesPerNode * document.size)).1

end CrdForge.Yaml
