import CrdForge.Extension.Tree
import CrdForge.Proofs.Keyed
import Mathlib.Data.List.Induction

/-! Trees by their links.

Nodes are numbers into an array, and nothing in the type keeps two links from leading to one node. `Linked`
trees are those that read as trees: every link leads to a node that was made later, and no two links lead to
the same one. Then a chain of links is known by its end (`follow?_unique`), and a change at one node shows
only along the chains through it. -/
namespace CrdForge.Extension

/-- A step from a node to one below it. -/
inductive Link where
  | property (name : String)
  | items
  deriving DecidableEq

/-- What is said at the end of each chain of links. -/
abbrev Notes := List Link → List (String × Json)

namespace Tree

variable {tree after : Tree} {x y z c p p' : NodeId} {l l' : Link}

/-- How many nodes were made. -/
def size (tree : Tree) : Nat := tree.nodes.size

def link? (tree : Tree) (id : NodeId) : Link → Option NodeId
  | .property name => tree.child? id name
  | .items => (tree.node id).items

/-- The node at the end of a chain of links. -/
def follow? (tree : Tree) (id : NodeId) : List Link → Option NodeId
  | [] => some id
  | link :: rest => (tree.link? id link).bind (tree.follow? · rest)

/-- What is said from a node on. Nothing is where no chain leads. -/
def said (tree : Tree) (id : NodeId) : Notes := fun links =>
  ((tree.follow? id links).map fun node => (tree.node node).extensions).getD []

/-! ### Nodes after an operation -/

theorem node_modify (tree : Tree) (x y : NodeId) (change : Node → Node) :
    (tree.modify x change).node y =
      if y = x ∧ x < tree.size then change (tree.node x) else tree.node y := by
  simp only [node, modify, size, Array.getD_eq_getD_getElem?, Array.getElem?_modify]
  by_cases h : x = y
  · subst h
    by_cases hx : x < tree.nodes.size <;> simp [hx]
  · simp [h, Ne.symm h]

@[simp] theorem node_alloc (tree : Tree) (y : NodeId) : tree.alloc.2.node y = tree.node y := by
  simp only [node, alloc, Array.getD_eq_getD_getElem?, Array.getElem?_push]
  by_cases h : y = tree.nodes.size <;> simp [h]

@[simp] theorem alloc_fst (tree : Tree) : tree.alloc.1 = tree.size := rfl

@[simp] theorem size_alloc (tree : Tree) : tree.alloc.2.size = tree.size + 1 := by
  simp [size, alloc]

@[simp] theorem size_modify (tree : Tree) (x : NodeId) (change : Node → Node) :
    (tree.modify x change).size = tree.size := by
  simp [size, modify]

theorem node_of_size_le (h : tree.size ≤ x) : tree.node x = {} := by
  simp only [size] at h
  simp [node, h]

theorem link?_of_size_le (h : tree.size ≤ x) : tree.link? x l = none := by
  cases l <;> simp [link?, child?, node_of_size_le h]

theorem link?_congr (h : after.node x = tree.node x) : after.link? x l = tree.link? x l := by
  cases l <;> simp [link?, child?, h]

@[simp] theorem link?_alloc (tree : Tree) (x : NodeId) (l : Link) :
    tree.alloc.2.link? x l = tree.link? x l := link?_congr (node_alloc tree x)

theorem link?_attach (tree : Tree) (name : String) (child : NodeId) (h : x < tree.size) (p : NodeId)
    (l : Link) :
    (tree.attach x name child).link? p l =
      if p = x ∧ l = .property name then some child else tree.link? p l := by
  by_cases hp : p = x
  · subst hp
    cases l <;> simp [link?, child?, attach, node_modify, h]
  · have hn : (tree.attach x name child).node p = tree.node p := by simp [attach, node_modify, hp]
    rw [link?_congr hn]
    simp [hp]

theorem link?_annotate (tree : Tree) (x : NodeId) (name : String) (value : Json) (p : NodeId) (l : Link) :
    (tree.annotate x name value).link? p l = tree.link? p l := by
  by_cases hp : p = x ∧ x < tree.size
  · obtain ⟨rfl, h⟩ := hp
    cases l <;> simp [link?, child?, annotate, node_modify, h]
  · exact link?_congr (by simp only [annotate, node_modify, if_neg hp])

@[simp] theorem size_annotate (tree : Tree) (x : NodeId) (name : String) (value : Json) :
    (tree.annotate x name value).size = tree.size := size_modify ..

@[simp] theorem size_attach (tree : Tree) (x : NodeId) (name : String) (child : NodeId) :
    (tree.attach x name child).size = tree.size := size_modify ..

/-! ### Trees that read as trees -/

/-- Links lead to later nodes that were made, and no two lead to the same
one. Those of properties are in order. -/
structure Linked (tree : Tree) : Prop where
  later : ∀ {p l c}, tree.link? p l = some c → p < c
  made : ∀ {p l c}, tree.link? p l = some c → c < tree.size
  once : ∀ {p l p' l' c}, tree.link? p l = some c → tree.link? p' l' = some c → p = p' ∧ l = l'
  sorted : ∀ p, Keyed.Sorted (tree.node p).properties

theorem empty_node (x : NodeId) : Tree.empty.node x = {} := by
  cases x with
  | zero => rfl
  | succ x => exact node_of_size_le (by simp [size, empty])

theorem empty_linked : Tree.empty.Linked := by
  have h (p : NodeId) (l : Link) : Tree.empty.link? p l = none := by
    cases l <;> simp [link?, child?, empty_node]
  refine ⟨?_, ?_, ?_, fun p => ?_⟩
  · intros
    simp_all
  · intros
    simp_all
  · intros
    simp_all
  · rw [empty_node]
    exact .nil

theorem follow?_append (tree : Tree) (x : NodeId) (a b : List Link) :
    tree.follow? x (a ++ b) = (tree.follow? x a).bind (tree.follow? · b) := by
  induction a generalizing x with
  | nil => rfl
  | cons link rest ih =>
    simp only [List.cons_append, follow?]
    cases tree.link? x link with
    | none => rfl
    | some y => exact ih y

theorem follow?_concat {links : List Link} (h : tree.follow? x (links ++ [l]) = some z) :
    ∃ y, tree.follow? x links = some y ∧ tree.link? y l = some z := by
  rw [follow?_append] at h
  obtain ⟨y, hy, hz⟩ := Option.bind_eq_some_iff.mp h
  exact ⟨y, hy, by simpa [follow?, Option.bind_eq_some_iff] using hz⟩

theorem follow?_snoc {links : List Link} (hy : tree.follow? x links = some y) (hz : tree.link? y l = some z) :
    tree.follow? x (links ++ [l]) = some z := by
  rw [follow?_append, hy]
  simp [follow?, hz]

/-- If links lead to later nodes, so do chains. -/
theorem le_of_follow (hlater : ∀ {p l c}, tree.link? p l = some c → p < c) {links : List Link}
    (hf : tree.follow? x links = some z) : x ≤ z := by
  induction links using List.reverseRecOn generalizing z with
  | nil =>
    cases hf
    exact Nat.le_refl _
  | append_singleton links l ih =>
    obtain ⟨y, hy, hz⟩ := follow?_concat hf
    exact Nat.le_trans (ih hy) (Nat.le_of_lt (hlater hz))

namespace Linked
variable (h : tree.Linked)
include h

theorem le_follow {links : List Link} (hf : tree.follow? x links = some z) : x ≤ z := le_of_follow h.later hf

theorem follow_made (hx : x < tree.size) {links : List Link} (hf : tree.follow? x links = some z) :
    z < tree.size := by
  induction links using List.reverseRecOn generalizing z with
  | nil =>
    cases hf
    exact hx
  | append_singleton links l _ =>
    obtain ⟨y, _, hz⟩ := follow?_concat hf
    exact h.made hz

theorem lt_follow_concat {links : List Link} (hf : tree.follow? x (links ++ [l]) = some z) : x < z := by
  obtain ⟨y, hy, hz⟩ := follow?_concat hf
  exact Nat.lt_of_le_of_lt (h.le_follow hy) (h.later hz)

/-- A chain of links is known by its end. -/
theorem follow?_unique {a b : List Link} (ha : tree.follow? x a = some z) (hb : tree.follow? x b = some z) :
    a = b := by
  induction a using List.reverseRecOn generalizing b z with
  | nil =>
    cases ha
    cases b using List.reverseRecOn with
    | nil => rfl
    | append_singleton b l => exact absurd (h.lt_follow_concat hb) (Nat.lt_irrefl _)
  | append_singleton a l ih =>
    cases b using List.reverseRecOn with
    | nil =>
      cases hb
      exact absurd (h.lt_follow_concat ha) (Nat.lt_irrefl _)
    | append_singleton b l' =>
      obtain ⟨y, hy, hz⟩ := follow?_concat ha
      obtain ⟨y', hy', hz'⟩ := follow?_concat hb
      obtain ⟨rfl, rfl⟩ := h.once hz hz'
      rw [ih hy hy']

end Linked

/-! ### What a change does not reach -/

theorem follow?_congr (h : ∀ links z, tree.follow? x links = some z → after.node z = tree.node z)
    (links : List Link) : after.follow? x links = tree.follow? x links := by
  induction links generalizing x with
  | nil => rfl
  | cons link rest ih =>
    have hl : after.link? x link = tree.link? x link := link?_congr (h [] x rfl)
    simp only [follow?, hl]
    cases hy : tree.link? x link with
    | none => rfl
    | some y => exact ih fun links z hz => h (link :: links) z (by simp [follow?, hy, hz])

theorem said_congr (h : ∀ links z, tree.follow? x links = some z → after.node z = tree.node z) :
    after.said x = tree.said x := by
  funext links
  simp only [said, follow?_congr h]
  cases hz : tree.follow? x links with
  | none => rfl
  | some z => simp [h links z hz]

theorem said_nil (tree : Tree) (x : NodeId) : tree.said x [] = (tree.node x).extensions := rfl

theorem said_cons (tree : Tree) (x : NodeId) (l : Link) (links : List Link) :
    tree.said x (l :: links) = ((tree.link? x l).map (tree.said · links)).getD [] := by
  simp only [said, follow?]
  cases tree.link? x l <;> rfl

theorem sorted_modify {change : Node → Node} (h : ∀ p, Keyed.Sorted (tree.node p).properties)
    (hc : ∀ node : Node, Keyed.Sorted node.properties → Keyed.Sorted (change node).properties) (p : NodeId) :
    Keyed.Sorted ((tree.modify x change).node p).properties := by
  rw [node_modify]
  split
  · exact hc _ (h x)
  · exact h p

/-- From a later node nothing of a change at an earlier one is seen. -/
theorem Linked.said_modify (h : tree.Linked) (hx : x < y) (change : Node → Node) :
    (tree.modify x change).said y = tree.said y :=
  said_congr fun links z hz => by
    have hz : x < z := Nat.lt_of_lt_of_le hx (h.le_follow hz)
    rw [node_modify, if_neg fun he => Nat.ne_of_gt hz he.1]

end Tree

end CrdForge.Extension
