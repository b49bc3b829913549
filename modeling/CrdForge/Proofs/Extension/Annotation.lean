import CrdForge.Proofs.Extension.Notes
import CrdForge.Proofs.Extension.Pruning

/-! The text of a tree.

The value that is made of a tree after pruning has the shape of a schema: the chains of properties and
items that lead to a mapping in it are those along which something is said (`value?_maps`). -/
namespace CrdForge

open Extension (Link)

namespace Json

/-- The value that a link leads to, in the shape of a schema. -/
def step? (value : Json) : Link → Option Json
  | .property name => (value.get? "properties").bind (get? name)
  | .items => value.get? "items"

/-- Whether a value says how a field maps to another object of the cluster or back to the API. -/
def IsMapping (value : Json) : Prop :=
  (value.get? Extension.clusterMapping).isSome ∨ (value.get? Extension.apiMapping).isSome

/-- Whether a chain of links leads to a mapping. -/
def Maps : Json → List Link → Prop
  | value, [] => value.IsMapping
  | value, link :: links => ∃ below, value.step? link = some below ∧ Maps below links

end Json

namespace Extension

/-- Whether nothing is said but mappings. -/
def Notes.OnlyMappings (notes : Notes) : Prop :=
  ∀ links, ∀ entry ∈ notes links, entry.1 = clusterMapping ∨ entry.1 = apiMapping

namespace Tree
variable {tree : Tree} {x y : NodeId}

/-! ### Values -/

theorem valueWithin_succ (tree : Tree) (depth : Nat) (id : NodeId) :
    ∃ entries, tree.valueWithin (depth + 1) id =
      .object entries ∧ ∀ key, entries.lookup key =
        if key = "items" ∧ (tree.node id).items.isSome then (tree.node id).items.map (tree.valueWithin depth)
        else if key = "properties" ∧ (tree.node id).properties ≠ [] then
          some (.object ((tree.node id).properties.map fun (name, child) =>
            (name, tree.valueWithin depth child)))
        else (tree.node id).extensions.lookup key := by
  refine ⟨_, rfl, fun key => ?_⟩
  cases hi : (tree.node id).items <;> cases hp : (tree.node id).properties <;>
    by_cases hk : key = "items" <;> by_cases hk' : key = "properties" <;> simp_all

theorem OnlyMappings.lookup_none {entries : List (String × Json)} {key : String}
    (h : ∀ entry ∈ entries, entry.1 = clusterMapping ∨ entry.1 = apiMapping) (hc : key ≠ clusterMapping)
    (ha : key ≠ apiMapping) : entries.lookup key = none := by
  cases hl : entries.lookup key with
  | none => rfl
  | some value =>
    rcases h _ (Keyed.mem_of_lookup hl) with he | he
    · exact absurd he hc
    · exact absurd he ha

theorem step?_valueWithin
    (h : ∀ entry ∈ (tree.node x).extensions, entry.1 = clusterMapping ∨ entry.1 = apiMapping)
    (depth : Nat) (link : Link) :
    (tree.valueWithin (depth + 1) x).step? link = (tree.link? x link).map (tree.valueWithin depth) := by
  obtain ⟨entries, hv, hl⟩ := valueWithin_succ tree depth x
  rw [hv]
  cases link with
  | items =>
    show entries.lookup "items" = _
    rw [hl, OnlyMappings.lookup_none h (by decide) (by decide)]
    cases hi : (tree.node x).items <;> simp [link?, hi]
  | property name =>
    show (entries.lookup "properties").bind (Json.get? name) = _
    rw [hl, OnlyMappings.lookup_none h (by decide) (by decide)]
    cases hp : (tree.node x).properties with
    | nil => simp [link?, child?, hp]
    | cons entry rest =>
      rw [if_neg (by simp), if_pos (by simp), Option.bind_some, Json.get?, Keyed.lookup_map, ← hp]
      rfl

theorem isMapping_valueWithin
    (h : ∀ entry ∈ (tree.node x).extensions, entry.1 = clusterMapping ∨ entry.1 = apiMapping)
    (depth : Nat) : (tree.valueWithin (depth + 1) x).IsMapping ↔ (tree.node x).extensions ≠ [] := by
  obtain ⟨entries, hv, hl⟩ := valueWithin_succ tree depth x
  have hc : entries.lookup clusterMapping = (tree.node x).extensions.lookup clusterMapping := by
    rw [hl, if_neg (by simp [clusterMapping]), if_neg (by simp [clusterMapping])]
  have ha : entries.lookup apiMapping = (tree.node x).extensions.lookup apiMapping := by
    rw [hl, if_neg (by simp [apiMapping]), if_neg (by simp [apiMapping])]
  rw [hv, Json.IsMapping, Json.get?, Json.get?, hc, ha]
  constructor
  · rintro hs he
    simp [he] at hs
  · intro hn
    obtain ⟨entry, rest, he⟩ := List.exists_cons_of_ne_nil hn
    rcases h entry (he ▸ List.mem_cons_self ..) with hm | hm
    · exact .inl (hm ▸ Keyed.has_of_mem (he ▸ List.mem_cons_self ..))
    · exact .inr (hm ▸ Keyed.has_of_mem (he ▸ List.mem_cons_self ..))

/-- A bound on what chains from a node lead to holds with one less below a link. -/
theorem Linked.bound_below (h : tree.Linked) {l : Link} {depth : Nat} (hl : tree.link? x l = some y)
    (hd : tree.size ≤ x + (depth + 1)) : tree.size ≤ y + depth :=
  calc tree.size ≤ x + (depth + 1) := hd
    _ = x + 1 + depth := Nat.add_right_comm x depth 1
    _ ≤ y + depth := Nat.add_le_add_right (h.later hl) depth

/-- **The chains that lead to a mapping in the value of a tree are those along which something is said.** -/
theorem maps_valueWithin (h : tree.Linked) {depth : Nat} (hd : tree.size ≤ x + depth)
    (hm : (tree.said x).OnlyMappings) (links : List Link) :
    (tree.valueWithin depth x).Maps links ↔ tree.said x links ≠ [] := by
  induction depth generalizing x links with
  | zero =>
    rw [said_of_size_le (show tree.size ≤ x from hd)]
    cases links with
    | nil => simp [valueWithin, Json.Maps, Json.IsMapping, Json.get?, Notes.none]
    | cons link links => cases link <;> simp [valueWithin, Json.Maps, Json.step?, Json.get?, Notes.none]
  | succ depth ih =>
    have he := hm []
    rw [said_nil] at he
    cases links with
    | nil => exact isMapping_valueWithin he depth
    | cons link links =>
      rw [Json.Maps, step?_valueWithin he, said_cons]
      cases hl : tree.link? x link with
      | none => simp
      | some y =>
        have hb := h.bound_below hl hd
        have hs : (tree.said y).OnlyMappings := fun links => by
          have := hm (link :: links)
          rwa [said_cons, hl] at this
        simpa using ih hb hs links

/-! ### All that is said -/

/-- The value of all that is said, or nothing if nothing is. -/
def value? (tree : Tree) : Option Json :=
  let (kept, pruned) := tree.prune root
  if kept then some (pruned.value root) else none

theorem text?_eq (tree : Tree) : tree.text? = tree.value?.map Json.compact := by
  rw [text?, value?]
  rcases tree.prune root with ⟨_ | _, pruned⟩ <;> rfl

/-- The value of a tree is that of what is left of it after pruning, if anything is said. -/
theorem value?_spec (h : tree.Linked) :
    (tree.value? = none ∧ tree.said root = Notes.none) ∨ ∃ (pruned : Tree) (depth : Nat), pruned.Linked ∧
      pruned.Terse root ∧ pruned.size ≤ root + depth ∧ pruned.said root = tree.said root ∧
        tree.value? = some (pruned.valueWithin depth root) := by
  have hsize (t : Tree) : t.size ≤ root + (t.nodes.size + 1) := by
    rw [root, Nat.zero_add]
    exact Nat.le_succ _
  obtain ⟨hp, hk⟩ := prune_spec h.ordered h.acyclic root
  have hs : (tree.prune root).2.said root = tree.said root := hp.said root
  have hl : (tree.prune root).2.Linked := hp.linked h
  have hterse : (tree.prune root).2.Terse root := hp.terse
  rw [value?]
  generalize tree.prune root = pruned at hs hl hterse hk
  obtain ⟨_ | _, pruned⟩ := pruned
  · refine .inl ⟨rfl, ?_⟩
    funext links
    exact Classical.byContradiction fun hn => Bool.false_ne_true (hk.mpr ⟨_, hn⟩)
  · exact .inr ⟨pruned, _, hl, hterse, hsize pruned, hs, rfl⟩

/-- **In the value of a tree that says nothing but mappings, the chains to a
mapping are those along which something is said.** -/
theorem value?_maps (h : tree.Linked) (hm : (tree.said root).OnlyMappings) {value : Json}
    (hv : tree.value? = some value) (links : List Link) : value.Maps links ↔ tree.said root links ≠ [] := by
  rcases value?_spec h with ⟨hn, -⟩ | ⟨pruned, depth, hl, -, hd, hs, hp⟩
  · rw [hn] at hv
    cases hv
  · obtain rfl := Option.some.inj (hp.symm.trans hv)
    rw [← hs] at hm ⊢
    exact maps_valueWithin hl hd hm links

end Tree

end Extension

end CrdForge
