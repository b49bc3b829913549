import CrdForge.Proofs.Conversion.Descent

/-! How deep the nodes of a converted schema nest.

A conversion goes one level deeper wherever schemas nest (`convert_of_lt`), and beyond the bound it
answers nothing and says nothing. So of nodes that nest in each other each is made one level below the
one before. Where that ends is at most one string that no schema stands behind, and the bound is one for
the nodes before it, however the schemas of the document refer to each other (`convert_nests_within`). -/
namespace CrdForge

/-- Nodes each of which nests the next one. -/
def Crd.Schema.NestInTurn (nodes : List Crd.Schema) : Prop :=
  nodes.IsChain fun outer inner => inner ∈ outer.nested

namespace Conversion

open Crd.Schema (NestInTurn)
open Extension (Tree)

section
variable {setting : Setting} {place : Place} {depth : Nat} {tree : Tree} {node inner : Crd.Schema}

/-! ### Levels -/

/-- Beyond the bound there is no conversion, and nothing is said. -/
theorem convert_of_le (h : maxDepth ≤ depth) : convert setting place depth tree = (none, tree) := by
  rw [convert, Nat.sub_eq_zero_of_le h]
  rfl

/-- What a schema nests is converted one level deeper than the schema. -/
theorem convert_of_lt (h : depth < maxDepth) : convert setting place depth =
    match place.schema.bind setting.document.resolve with
    | some source =>
      convertSource setting (convert setting · (depth + 1)) { place with path := rooted place.path } source
    | none => return none := by
  have hleft : maxDepth - depth = (maxDepth - (depth + 1)) + 1 := by omega
  rw [convert, hleft, convertWithin]
  rfl

/-- Whether a node is what a schema is converted to at a depth, listed or not. -/
def MadeAt (setting : Setting) (depth : Nat) (node : Crd.Schema) : Prop :=
  ∃ place tree result, (convert setting place depth tree).1 = some result ∧
    (node = result ∨ node = { result with id := none })

theorem MadeAt.lt (h : MadeAt setting depth node) : depth < maxDepth := by
  obtain ⟨place, tree, result, hc, -⟩ := h
  by_contra hd
  rw [convert_of_le (Nat.le_of_not_lt hd)] at hc
  cases hc

/-- A shape is what is made at the depth from which it has the rest of the bound. -/
theorem convert_of_shape {schema : OpenApi.Schema} {path : List String} {result : Crd.Schema}
    (h : shapeWithin setting (maxDepth - depth) schema path = some result) :
    (convert setting ⟨some schema, Tree.root, path⟩ depth .empty).1 = some result :=
  (convertWithin_fst setting _ _ _).trans h

/-- What a node nests is made one level deeper, or no schema stands behind it. -/
theorem MadeAt.nested (h : MadeAt setting depth node) (hi : inner ∈ node.nested) :
    Synthetic inner ∨ MadeAt setting (depth + 1) inner := by
  have hleft : maxDepth - depth = (maxDepth - (depth + 1)) + 1 := by have := h.lt; omega
  obtain ⟨place, tree, result, hc, hn⟩ := h
  have hi : inner ∈ result.nested := by rcases hn with rfl | rfl <;> exact hi
  rw [convert, convertWithin_fst, hleft] at hc
  obtain ⟨schema, -, hshape⟩ := Option.bind_eq_some_iff.mp hc
  obtain ⟨source, -, hsource⟩ := Option.bind_eq_some_iff.mp hshape
  cases sourceShape_inherits hsource inner hi with
  | synthetic hs => exact .inl hs
  | converted _ hc => exact .inr ⟨_, _, _, convert_of_shape hc, .inl rfl⟩
  | listed _ hc => exact .inr ⟨_, _, _, convert_of_shape hc, .inr rfl⟩

theorem Synthetic.nested (h : Synthetic node) : node.nested = [] := by
  obtain ⟨description, default, enumeration, rfl⟩ := h.string
  rfl

/-! ### Chains -/

theorem MadeAt.alone (h : MadeAt setting depth node) (level : Nat) (other : Crd.Schema)
    (hl : [node][level]? = some other) : MadeAt setting (depth + level) other := by
  obtain ⟨rfl, rfl⟩ : level = 0 ∧ other = node := by cases level <;> simp_all
  exact h

/-- Nodes that nest in each other are made level by level, up to a last one that no schema stands behind. -/
theorem MadeAt.chain {nodes : List Crd.Schema} (h : MadeAt setting depth node)
    (hc : NestInTurn (node :: nodes)) :
    ∃ made added, node :: nodes = made ++ added ∧ (∀ level node, made[level]? = some node →
      MadeAt setting (depth + level) node) ∧ added.length ≤ 1 ∧ ∀ node ∈ added, Synthetic node := by
  induction nodes generalizing depth node with
  | nil => exact ⟨[node], [], rfl, h.alone, Nat.zero_le 1, by simp⟩
  | cons inner rest ih =>
    obtain ⟨hi, hrest⟩ := List.isChain_cons_cons.mp hc
    rcases h.nested hi with hs | hm
    · -- nothing is nested in what is added, so it is the last node
      obtain rfl : rest = [] := by
        cases rest with
        | nil => rfl
        | cons next _ =>
          have hnext : next ∈ inner.nested := (List.isChain_cons_cons.mp hrest).1
          rw [hs.nested] at hnext
          cases hnext
      exact ⟨[node], [inner], rfl, h.alone, Nat.le_refl 1, by simpa using hs⟩
    · obtain ⟨made, added, he, hmade, hlength, hadded⟩ := ih hm hrest
      refine ⟨node :: made, added, by rw [he, List.cons_append], fun level other hl => ?_, hlength, hadded⟩
      cases level with
      | zero => exact Option.some.inj hl ▸ h
      | succ level =>
        rw [← Nat.add_assoc, Nat.add_right_comm]
        exact hmade level other hl

/-- **The bound is one for what is nested in a result.** Beyond the bound a conversion answers nothing
and leaves the annotations as they are, and up to it whatever it goes on to convert is one level deeper,
so that it ends. In every chain of nodes that nest in each other from the result on, each node is made
one level deeper than the one before, so that there are no more of them than levels are left, and after
them comes at most one string that no schema stands behind. -/
theorem convert_nests_within (setting : Setting) (place : Place) (depth : Nat) (tree : Tree) :
    (maxDepth ≤ depth → convert setting place depth tree = (none, tree)) ∧
      (depth < maxDepth → convert setting place depth =
        match place.schema.bind setting.document.resolve with
        | some source =>
          convertSource setting (convert setting · (depth + 1))
            { place with path := rooted place.path } source
        | none => return none) ∧
      ∀ result, (convert setting place depth tree).1 = some result → ∀ nodes, NestInTurn (result :: nodes) →
        ∃ made added, result :: nodes = made ++ added ∧ made.length ≤ maxDepth - depth ∧
          (∀ level node, made[level]? = some node → MadeAt setting (depth + level) node) ∧
          added.length ≤ 1 ∧ ∀ node ∈ added, Synthetic node := by
  refine ⟨convert_of_le, convert_of_lt, fun result hr nodes hc => ?_⟩
  have hresult : MadeAt setting depth result := ⟨place, tree, result, hr, .inl rfl⟩
  obtain ⟨made, added, he, hmade, hlength, hadded⟩ := hresult.chain hc
  refine ⟨made, added, he, ?_, hmade, hlength, hadded⟩
  by_contra hlong
  have hlevel : maxDepth - depth < made.length := Nat.lt_of_not_le hlong
  have hlt := (hmade _ _ (List.getElem?_eq_getElem hlevel)).lt
  omega

end

/-! #### Groups in groups -/

def groupReference : OpenApi.Schema where
  reference := some "#/components/schemas/Group"

/-- A group is one of groups. -/
def group : OpenApi.Schema where
  oneOf := [groupReference]

def groups : Setting where
  document := { components := { schemas := [("Group", group)] } }
  plugins := []

/-- That many groups in another one, each with a property that says what it is. -/
def nestedGroups : Nat → Crd.Schema
  | 0 => { type := some "object", properties := [("type", discriminator ["group"])] }
  | depth + 1 =>
    { type := some "object",
      properties := [("group", nestedGroups depth), ("type", discriminator ["group"])] }

/-- The groups in a group, and what the last one lists. -/
def groupsWithin : Nat → List Crd.Schema
  | 0 => [discriminator ["group"]]
  | depth + 1 => nestedGroups depth :: groupsWithin depth

theorem nestedGroups_nestInTurn (depth : Nat) : NestInTurn (nestedGroups depth :: groupsWithin depth) := by
  induction depth with
  | zero =>
    have hm : discriminator ["group"] ∈ (nestedGroups 0).nested :=
      Crd.Schema.mem_nested_property (List.mem_singleton.mpr rfl)
    exact List.isChain_cons_cons.mpr ⟨hm, .singleton _⟩
  | succ depth ih =>
    have hm : nestedGroups depth ∈ (nestedGroups (depth + 1)).nested :=
      Crd.Schema.mem_nested_property (List.mem_cons_self ..)
    exact List.isChain_cons_cons.mpr ⟨hm, ih⟩

theorem groups_shape (depth : Nat) (path : List String) :
    shapeWithin groups (depth + 1) groupReference path = some (nestedGroups depth) := by
  have hname : optionName "#/components/schemas/Group" = "group" := by decide +kernel
  have hnames : optionNames group.oneOf = ["group"] := by decide +kernel
  have hstep (depth : Nat) (path : List String) : shapeWithin groups (depth + 1) groupReference path =
      some (reconcileRequired []
        (taggedShape (shapeWithin groups depth) (rooted path) group (settle group {}))) := rfl
  induction depth generalizing path with
  | zero =>
    rw [hstep, taggedShape, hnames]
    rfl
  | succ depth ih =>
    have hoptions (bare : Crd.Schema) :
      optionShapes (shapeWithin groups (depth + 1)) (rooted path) bare group.oneOf =
        bare.insert "group" (nestedGroups depth) := by
      have hinner := ih (rooted path ++ ["group"])
      simp only [groupReference] at hinner
      simp only [group, groupReference, optionShapes, hname, hinner]
    rw [hstep, taggedShape, hnames, hoptions]
    rfl

/-- As many groups are nested in each other as the bound allows, and one more node that names the last one. -/
theorem nestedGroups_bounded :
    convert groups ⟨some groupReference, Tree.root, []⟩ maxDepth .empty = (none, .empty) ∧
      convert groups ⟨some groupReference, Tree.root, []⟩ 0 =
        convertSource groups (convert groups · 1) ⟨some groupReference, Tree.root, [Path.root]⟩ group ∧
      (convert groups ⟨some groupReference, Tree.root, []⟩ 0 .empty).1 = some (nestedGroups 9) ∧
      NestInTurn (nestedGroups 9 :: groupsWithin 9) ∧
      ∃ made leaf, nestedGroups 9 :: groupsWithin 9 = made ++ [leaf] ∧ made.length = maxDepth ∧
        Synthetic leaf := by
  have hresult : (convert groups ⟨some groupReference, Tree.root, []⟩ 0 .empty).1 = some (nestedGroups 9) :=
    convert_of_shape (groups_shape 9 [])
  have hchain := nestedGroups_nestInTurn 9
  obtain ⟨-, hbelow, hbound⟩ := convert_nests_within groups ⟨some groupReference, Tree.root, []⟩ 0 .empty
  obtain ⟨made, added, he, hmade, -, hadded, hsynthetic⟩ := hbound _ hresult _ hchain
  have hlength : made.length + added.length = maxDepth + 1 := by
    rw [← List.length_append, ← he]
    rfl
  obtain ⟨leaf, rfl⟩ : ∃ leaf, added = [leaf] := List.length_eq_one_iff.mp (by omega)
  exact ⟨(convert_nests_within _ _ maxDepth _).1 (Nat.le_refl _), hbelow (by decide), hresult,
    hchain, made, leaf, he, by simpa using hlength, hsynthetic leaf (List.mem_singleton.mpr rfl)⟩

end Conversion

end CrdForge
