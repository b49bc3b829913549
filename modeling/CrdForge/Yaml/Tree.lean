import CrdForge.Keyed
import CrdForge.Yaml.Cursor
import CrdForge.Yaml.Tag
import CrdForge.Yaml.Token

/-! From the tokens of a YAML text to its tree, with aliases still in it. -/
namespace CrdForge.Yaml

/-- A node as it is written. An alias refers to a subtree by number. -/
inductive Tree where
  | alias (anchor : Nat)
  | scalar (tag : Option Tag) (style : ScalarStyle) (text : String)
  | sequence (tag : Option Tag) (items : List Tree)
  | mapping (tag : Option Tag) (entries : List (Tree × Tree))
  deriving Inhabited

/-- A subtree that aliases may refer to. -/
structure Anchored where
  number : Nat
  /-- How many nodes and ends of collections stand before it. -/
  position : Nat
  tree : Tree

/-- A text that holds one document. -/
structure Document where
  root : Tree
  anchored : List Anchored
  /-- How many nodes and ends of collections it is made of. -/
  size : Nat

/-- The subtree with a number. Where several have it, the last one in the text counts. -/
def Document.subtree? (document : Document) (number : Nat) : Option Tree :=
  (document.anchored.foldl (fun (last : Option Anchored) candidate =>
    if candidate.number = number && last.all fun found => found.position < candidate.position then
      some candidate
    else last) none).map (·.tree)

namespace Tree

/-! ### State of reading -/

structure Reader where
  tokens : List Token
  /-- Expansions of tag handles in the current document. -/
  handles : List (String × List UInt8)
  /-- The number that the anchor of a name has now. -/
  anchors : List (String × Nat)
  anchored : List Anchored
  size : Nat

abbrev Read := StateT Reader (Except Problem)

/-- The token that comes next. -/
def peek : Read Token := do
  return (← get).tokens.head?.getD .streamEnd

def skip : Read Unit := modify fun reader => { reader with tokens := reader.tokens.drop 1 }

def refuse {α : Type} (what : String) : Read α := throw ⟨what, ⟨0, 0, 0⟩⟩

/-- Counts nodes and ends of collections. -/
def count : Read Unit := modify fun reader => { reader with size := reader.size + 1 }

/-- Numbers an anchor: a new name makes the next number, a name that is used again as well, although no
number is added by it. -/
def declareAnchor (name : String) : Read Anchored := do
  let reader ← get
  let number := reader.anchors.length
  set { reader with anchors := Keyed.put name number reader.anchors }
  return ⟨number, reader.size, .scalar none .plain ""⟩

/-! ### Properties -/

/-- An anchor and a tag, in either order. -/
structure Properties where
  anchor : Option String := none
  tag : Option (String × List UInt8) := none

def anchor? : Read (Option String) := do
  match ← peek with
  | .anchor name => skip; return some name
  | _ => return none

def tag? : Read (Option (String × List UInt8)) := do
  match ← peek with
  | .tag handle suffix => skip; return some (handle, suffix)
  | _ => return none

def properties : Read Properties := do
  match ← anchor? with
  | some name => return { anchor := some name, tag := ← tag? }
  | none =>
    let tag ← tag?
    if tag.isSome then return { anchor := ← anchor?, tag := tag } else return {}

/-- The tag that a handle and what follows it stand for. -/
def resolveTag : Option (String × List UInt8) → Read (Option Tag)
  | none => return none
  | some ("", suffix) => return some (Tag.ofBytes suffix)
  | some (handle, suffix) => do
    match (← get).handles.lookup handle with
    | some expansion => return some (Tag.ofBytes (expansion ++ suffix))
    | none => refuse "found an undefined tag handle"

/-! ### Nodes -/

/-- A node that is not written. -/
def absent : Read Tree := do
  count
  return .scalar none .plain ""

def closesBlockEntry : Token → Bool
  | .blockEntry | .blockEnd => true
  | _ => false

def closesIndentlessEntry : Token → Bool
  | .blockEntry | .key | .value | .blockEnd => true
  | _ => false

def closesBlockKey : Token → Bool
  | .key | .value | .blockEnd => true
  | _ => false

def closesFlowPairKey : Token → Bool
  | .value | .flowEntry | .flowSequenceEnd => true
  | _ => false

def closesFlowPairValue : Token → Bool
  | .flowEntry | .flowSequenceEnd => true
  | _ => false

def closesFlowKey : Token → Bool
  | .value | .flowEntry | .flowMappingEnd => true
  | _ => false

def closesFlowValue : Token → Bool
  | .flowEntry | .flowMappingEnd => true
  | _ => false

mutual
/-- A node. Block collections may start only where `inBlock` holds, and a sequence as the value of a key
needs no indentation. -/
def node : Nat → Bool → Bool → Read Tree
  | 0, _, _ => refuse "found the end of the stream"
  | fuel + 1, inBlock, indentless => do
    match ← peek with
    | .alias name =>
      skip
      count
      match (← get).anchors.lookup name with
      | some number => return .alias number
      | none => refuse "found an unknown anchor"
    | _ =>
      let given ← properties
      let tag ← resolveTag given.tag
      let anchored ← given.anchor.mapM declareAnchor
      let tree ← content fuel inBlock indentless tag anchored.isSome
      match anchored with
      | some entry => modify fun reader =>
        { reader with anchored := { entry with tree := tree } :: reader.anchored }
      | none => pure ()
      return tree

/-- What follows the properties of a node. -/
def content : Nat → Bool → Bool → Option Tag → Bool → Read Tree
  | 0, _, _, _, _ => refuse "found the end of the stream"
  | fuel + 1, inBlock, indentless, tag, hasAnchor => do
    let token ← peek
    match token, inBlock, indentless with
    | .blockEntry, _, true =>
      count
      return .sequence tag (← indentlessItems fuel)
    | .scalar style text, _, _ =>
      skip
      count
      return .scalar tag style text
    | .flowSequence, _, _ =>
      skip
      count
      return .sequence tag (← flowItems fuel true)
    | .flowMapping, _, _ =>
      skip
      count
      return .mapping tag (← flowEntries fuel true)
    | .blockSequence, true, _ =>
      skip
      count
      return .sequence tag (← blockItems fuel)
    | .blockMapping, true, _ =>
      skip
      count
      return .mapping tag (← blockEntries fuel)
    | _, _, _ =>
      if hasAnchor || tag.isSome then
        count
        return .scalar tag .plain ""
      else refuse "did not find the expected node"

/-- Items of a sequence that is not indented further than its key. -/
def indentlessItems : Nat → Read (List Tree)
  | 0 => refuse "found the end of the stream"
  | fuel + 1 => do
    match ← peek with
    | .blockEntry =>
      skip
      let item ← if closesIndentlessEntry (← peek) then absent else node fuel true false
      return item :: (← indentlessItems fuel)
    | _ =>
      count
      return []

def blockItems : Nat → Read (List Tree)
  | 0 => refuse "found the end of the stream"
  | fuel + 1 => do
    match ← peek with
    | .blockEntry =>
      skip
      let item ← if closesBlockEntry (← peek) then absent else node fuel true false
      return item :: (← blockItems fuel)
    | .blockEnd =>
      skip
      count
      return []
    | _ => refuse "did not find the expected dash"

def blockEntries : Nat → Read (List (Tree × Tree))
  | 0 => refuse "found the end of the stream"
  | fuel + 1 => do
    match ← peek with
    | .key =>
      skip
      let key ← if closesBlockKey (← peek) then absent else node fuel true true
      let value ← blockValue fuel
      return (key, value) :: (← blockEntries fuel)
    | .blockEnd =>
      skip
      count
      return []
    | _ => refuse "did not find the expected key"

/-- The value of a key in a block, which may be missing. -/
def blockValue : Nat → Read Tree
  | 0 => refuse "found the end of the stream"
  | fuel + 1 => do
    match ← peek with
    | .value =>
      skip
      if closesBlockKey (← peek) then absent else node fuel true true
    | _ => absent

def flowItems : Nat → Bool → Read (List Tree)
  | 0, _ => refuse "found the end of the stream"
  | fuel + 1, isFirst => do
    match ← peek with
    | .flowSequenceEnd =>
      skip
      count
      return []
    | token =>
      if !isFirst then
        match token with
        | .flowEntry => skip
        | _ => refuse "did not find the expected comma or bracket"
      match ← peek with
      | .flowSequenceEnd =>
        skip
        count
        return []
      | .key =>
        skip
        count
        let pair ← flowPair fuel
        count
        return .mapping none [pair] :: (← flowItems fuel false)
      | _ =>
        let item ← node fuel false false
        return item :: (← flowItems fuel false)

/-- The single pair that an item of a flow sequence may be. A key that is missing takes the token after
it along. -/
def flowPair : Nat → Read (Tree × Tree)
  | 0 => refuse "found the end of the stream"
  | fuel + 1 => do
    let key ←
      if closesFlowPairKey (← peek) then do
        skip
        absent
      else node fuel false false
    match ← peek with
    | .value =>
      skip
      if closesFlowPairValue (← peek) then return (key, ← absent)
      else return (key, ← node fuel false false)
    | _ => return (key, ← absent)

def flowEntries : Nat → Bool → Read (List (Tree × Tree))
  | 0, _ => refuse "found the end of the stream"
  | fuel + 1, isFirst => do
    match ← peek with
    | .flowMappingEnd =>
      skip
      count
      return []
    | token =>
      if !isFirst then
        match token with
        | .flowEntry => skip
        | _ => refuse "did not find the expected comma or brace"
      match ← peek with
      | .flowMappingEnd =>
        skip
        count
        return []
      | .key =>
        skip
        let key ← if closesFlowKey (← peek) then absent else node fuel false false
        let value ← flowValue fuel
        return (key, value) :: (← flowEntries fuel false)
      | _ =>
        let key ← node fuel false false
        let value ← absent
        return (key, value) :: (← flowEntries fuel false)

/-- The value of a key in braces, which may be missing. -/
def flowValue : Nat → Read Tree
  | 0 => refuse "found the end of the stream"
  | fuel + 1 => do
    match ← peek with
    | .value =>
      skip
      if closesFlowValue (← peek) then absent else node fuel false false
    | _ => absent
end

/-! ### Documents -/

/-- Expansions that hold without a directive. -/
def defaultHandles : List (String × List UInt8) :=
  [("!", "!".toUTF8.toList), ("!!", "tag:yaml.org,2002:".toUTF8.toList)]

/-- The directives before a document, and whether there were any. -/
def directives : Nat → Bool → List (String × List UInt8) → Read (List (String × List UInt8))
  | 0, _, handles => return handles
  | fuel + 1, hasVersion, handles => do
    match ← peek with
    | .version major minor =>
      if hasVersion then refuse "found a second version directive"
      else if major != 1 || (minor != 1 && minor != 2) then refuse "found an incompatible version"
      else
        skip
        directives fuel true handles
    | .tagDirective handle expansion =>
      if (handles.lookup handle).isSome then refuse "found a second directive for one tag handle"
      else
        skip
        directives fuel hasVersion (handles ++ [(handle, expansion)])
    | _ => return handles

/-- Past marks that end a document. -/
def skipEnds : Nat → Read Unit
  | 0 => return
  | fuel + 1 => do
    match ← peek with
    | .documentEnd =>
      skip
      skipEnds fuel
    | _ => return

/-- A document that starts with directives or dashes. -/
def explicitDocument (fuel : Nat) : Read Tree := do
  let own ← directives fuel false []
  modify fun reader => { reader with handles := own ++ defaultHandles }
  match ← peek with
  | .documentStart =>
    skip
    match ← peek with
    | .version .. | .tagDirective .. | .documentStart | .documentEnd | .streamEnd => absent
    | _ => node fuel true false
  | _ => refuse "did not find the expected start of a document"

/-- The only document of a text, if there is one. -/
def stream (fuel : Nat) : Read (Option Tree) := do
  let root ← match ← peek with
    | .streamEnd => return none
    | .version .. | .tagDirective .. | .documentStart => explicitDocument fuel
    | _ => node fuel true false
  skipEnds fuel
  match ← peek with
  | .streamEnd => return some root
  | _ => refuse "found more than one document"

end Tree

/-- The document that a text holds. A text without any stands for an absent value. -/
def Document.ofTokens? (tokens : List Token) : Except Problem Document := do
  let start : Tree.Reader := ⟨tokens, Tree.defaultHandles, [], [], 0⟩
  let (root, reader) ← (Tree.stream (4 * tokens.length + 8)).run start
  return ⟨root.getD (.scalar none .plain ""), reader.anchored, reader.size⟩

end CrdForge.Yaml
