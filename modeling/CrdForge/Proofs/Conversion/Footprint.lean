import CrdForge.Proofs.Conversion.Telling
import CrdForge.Proofs.Extension.Pruning

/-! What a conversion touches of a tree.

A conversion is given a node, and what it answers is the same whichever node of whichever tree that is.
Of the nodes that are there it changes none but those that its node leads to, and the only link by which
its node and what is below can be entered is the one to the node itself, which stays as it was
(`convert_footprint`). -/
namespace CrdForge

namespace Extension.Tree

variable {tree after : Tree} {x y p c : NodeId} {l : Link}

/-- A link from outside of what a node leads to into it. -/
structure Enters (tree : Tree) (x p : NodeId) (l : Link) (c : NodeId) : Prop where
  outside : ¬ tree.Reaches x p
  link : tree.link? p l = some c
  inside : tree.Reaches x c

/-- What a node leads to can be entered at the node only. -/
theorem Linked.enters_iff (h : tree.Linked) : tree.Enters x p l c ↔ tree.link? p l = some c ∧ c = x := by
  constructor
  · rintro ⟨houtside, hlink, links, hf⟩
    refine ⟨hlink, ?_⟩
    cases links using List.reverseRecOn with
    | nil => exact (Option.some.inj hf).symm
    | append_singleton links l' =>
      obtain ⟨y, hy, hl⟩ := follow?_concat hf
      obtain ⟨rfl, -⟩ := h.once hl hlink
      exact absurd ⟨links, hy⟩ houtside
  · rintro ⟨hlink, rfl⟩
    refine ⟨?_, hlink, tree.reaches_refl c⟩
    rintro ⟨links, hf⟩
    exact absurd (h.later hlink) (Nat.not_lt_of_le (h.le_follow hf))

theorem Grows.kept_outside (h : Grows x tree after) (hy : y < tree.size) (ho : ¬ tree.Reaches x y) :
    after.node y = tree.node y := by
  apply h.kept hy
  rintro ⟨count, hs⟩
  exact ho ⟨_, hs⟩

/-- A step at a node leaves the way into what the node leads to as it is. -/
theorem Grows.enters_iff (h : Grows x tree after) (ht : tree.Linked) (hx : x < tree.size) :
    after.Enters x p l c ↔ tree.Enters x p l c := by
  rw [h.linked.enters_iff, ht.enters_iff]
  constructor
  · rintro ⟨hlink, rfl⟩
    exact ⟨h.old hx hlink, rfl⟩
  · rintro ⟨hlink, rfl⟩
    rw [link?_congr (h.node_above ht hx (ht.later hlink))]
    exact ⟨hlink, rfl⟩

end Extension.Tree

namespace Conversion

open Extension (NodeId Tree Link)

/-- **A conversion reads no tree, and touches only what its node leads to.** What it answers depends
neither on the tree nor on the node. If no two links lead to one node, and each to a later one, then
every node that was there and to which the given one does not lead stays as it is, the links into what
the node leads to stay the same, and no link to a node that was there is added. -/
theorem convert_footprint (setting : Setting) (place : Place) (depth : Nat) :
    (∀ (node : NodeId) (tree other : Tree),
      (convert setting { place with node := node } depth tree).1 = (convert setting place depth other).1) ∧
    ∀ tree : Tree, tree.Linked → place.node < tree.size →
      let after := (convert setting place depth tree).2
      after.Linked ∧
      (∀ y, y < tree.size → ¬ tree.Reaches place.node y → after.node y = tree.node y) ∧
      (∀ p l c, after.Enters place.node p l c ↔ tree.Enters place.node p l c) ∧
      ∀ p l c, c < tree.size → after.link? p l = some c → tree.link? p l = some c := by
  constructor
  · intro node tree other
    rw [convert, convertWithin_fst, convert, convertWithin_fst]
  · intro tree ht hx after
    have hgrows : Tree.Grows place.node tree after :=
      (convertWithin_tells setting (maxDepth - depth) place tree ht hx).grows
    refine ⟨hgrows.linked, ?_, ?_, ?_⟩
    · intro y hy ho
      exact hgrows.kept_outside hy ho
    · intro p l c
      exact hgrows.enters_iff ht hx
    · intro p l c hc hl
      exact hgrows.old hc hl

/-- Where an account stands, with a password that is kept in a secret. -/
def passwordPlace : Place where
  schema := some { type := some (.one "object"), properties := [("password", {})] }
  node := 1

/-- The link of the root to the node of the account stays when the account
is converted, which links the password. -/
theorem account_footprint :
    let setting : Setting := { document := {}, filters := { sensitive := ["$.password"] } }
    let tree := (Tree.empty.child Tree.root "account").2
    let after := (convert setting passwordPlace 0 tree).2
    after.node Tree.root = tree.node Tree.root ∧ after.Enters 1 Tree.root (.property "account") 1 ∧
      after.link? 1 (.property "passwordSecretRef") = some 2 ∧
      (convert setting { passwordPlace with node := Tree.root } 0 .empty).1 =
        (convert setting passwordPlace 0 tree).1 := by
  intro setting tree after
  have hroot : Tree.root < Tree.empty.size := Nat.zero_lt_one
  obtain ⟨hlink, hgrows, -⟩ := Tree.child_spec Tree.empty_linked hroot "account"
  obtain ⟨hsame, hkept⟩ := convert_footprint setting passwordPlace 0
  obtain ⟨-, hkept, henters, -⟩ := hkept tree hgrows.linked (hgrows.linked.made hlink)
  have hentered : tree.Enters 1 Tree.root (.property "account") 1 := hgrows.linked.enters_iff.mpr ⟨hlink, rfl⟩
  refine ⟨?_, (henters _ _ _).mpr hentered, by decide +kernel, hsame Tree.root .empty tree⟩
  exact hkept Tree.root (Nat.lt_of_lt_of_le hroot hgrows.size_le) hentered.outside

end Conversion

end CrdForge
