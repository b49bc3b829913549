import CrdForge.Proofs.Extension.Edits

/-! Recursions over a tree without a bound, and the nodes that they look at.

To prune a tree and to make its value are recursions along links, with a bound so that they are defined
for every tree. `PruneEnds`, `ValueEnds` and `TextEnds` are the same recursions with no bound; they end
only if every node that they look at was made. In a linked tree chains of links pass later and later
nodes, so the recursions end, and come to what the bounded ones do (`Sound.ends`). Other operations look
at the nodes that they are given, and these were given out by operations before, which give out nodes
that were made and stay so (`Sound.lends`). -/
namespace CrdForge.Extension.Tree

variable {tree : Tree} {x y z : NodeId} {depth : Nat}

/-! ### Nodes that are given out -/

/-- Whether an operation gives out a node that was made, and loses none. -/
structure Gives (tree : Tree) (result : NodeId × Tree) : Prop where
  size_le : tree.size ≤ result.2.size
  made : result.1 < result.2.size

/-- Whether all that is given out, for nodes that were made, was made. -/
structure Lends (tree : Tree) : Prop where
  root : root < tree.size
  alloc : tree.Gives tree.alloc
  child : ∀ x, x < tree.size → ∀ name, tree.Gives (tree.child x name)
  items : ∀ x, x < tree.size → tree.Gives (tree.items x)
  descend : ∀ x, x < tree.size → ∀ names, tree.Gives (tree.descend x names)
  link : ∀ x l y, tree.link? x l = some y → y < tree.size

theorem alloc_gives (tree : Tree) : tree.Gives tree.alloc := by
  constructor <;> simp

namespace Linked

theorem child_gives (h : tree.Linked) (hx : x < tree.size) (name : String) :
    tree.Gives (tree.child x name) := by
  obtain ⟨hl, hg, -⟩ := child_spec h hx name
  exact ⟨hg.size_le, hg.linked.made hl⟩

theorem items_gives (h : tree.Linked) (hx : x < tree.size) : tree.Gives (tree.items x) := by
  obtain ⟨hl, hg, -⟩ := items_spec h hx
  exact ⟨hg.size_le, hg.linked.made hl⟩

theorem descend_gives (h : tree.Linked) (hx : x < tree.size) (names : List String) :
    tree.Gives (tree.descend x names) := by
  induction names generalizing tree x with
  | nil => exact ⟨Nat.le_refl _, hx⟩
  | cons name rest ih =>
    obtain ⟨hle, hmade⟩ := h.child_gives hx name
    obtain ⟨hrest, hlast⟩ := ih (child_spec h hx name).2.1.linked hmade
    exact ⟨Nat.le_trans hle hrest, hlast⟩

end Linked

theorem Sound.lends (h : tree.Sound) : tree.Lends where
  root := h.made
  alloc := alloc_gives tree
  child := fun _ hx => h.linked.child_gives hx
  items := fun _ hx => h.linked.items_gives hx
  descend := fun _ hx => h.linked.descend_gives hx
  link := fun _ _ _ hl => h.linked.made hl

/-! ### Recursions without a bound -/

/-- Gives a node other links. -/
def relink (tree : Tree) (x : NodeId) (properties : List (String × NodeId)) (items : Option NodeId) : Tree :=
  tree.modify x fun node => { node with properties := properties, items := items }

mutual

/-- Pruning a node, which was made whenever it is looked at, ends with an answer and a tree. -/
inductive PruneEnds : NodeId → Tree → Bool → Tree → Prop
  | node {x : NodeId} {tree middle last : Tree} {properties : List (String × NodeId)}
    {items : Option NodeId} :
    x < tree.size → PropertiesEnd (tree.node x).properties tree properties middle →
    x < middle.size → ItemsEnd (middle.node x).items middle items last →
    x < last.size →
    PruneEnds x tree (Node.isKept ((last.relink x properties items).node x)) (last.relink x properties items)

/-- Pruning properties ends with those that are kept and a tree. -/
inductive PropertiesEnd : List (String × NodeId) → Tree → List (String × NodeId) → Tree → Prop
  | nil {tree : Tree} : PropertiesEnd [] tree [] tree
  | cons {entry : String × NodeId} {rest properties : List (String × NodeId)} {tree middle after : Tree}
    {kept : Bool} :
    PruneEnds entry.2 tree kept middle → PropertiesEnd rest middle properties after →
    PropertiesEnd (entry :: rest) tree (if kept then entry :: properties else properties) after

/-- Pruning items ends with them, if they are kept, and a tree. -/
inductive ItemsEnd : Option NodeId → Tree → Option NodeId → Tree → Prop
  | none {tree : Tree} : ItemsEnd none tree none tree
  | some {id : NodeId} {tree after : Tree} {kept : Bool} :
    PruneEnds id tree kept after → ItemsEnd (some id) tree (if kept then some id else none) after

end

/-- Making the value of a node, which was made, ends with a value. -/
inductive ValueEnds (tree : Tree) : NodeId → Json → Prop
  | node {x : NodeId} (values : NodeId → Json) : x < tree.size →
    (∀ entry ∈ (tree.node x).properties, ValueEnds tree entry.2 (values entry.2)) →
    (∀ y ∈ (tree.node x).items, ValueEnds tree y (values y)) →
    ValueEnds tree x (nodeValue (tree.node x).extensions
      ((tree.node x).properties.map fun (name, child) => (name, values child))
        ((tree.node x).items.map values))

/-- Making the text of a tree ends with a text, or with nothing if nothing is said. -/
inductive TextEnds (tree : Tree) : Option String → Prop
  | silent {pruned : Tree} : PruneEnds root tree false pruned → TextEnds tree none
  | said {pruned : Tree} {value : Json} : PruneEnds root tree true pruned → ValueEnds pruned root value →
    TextEnds tree (some value.compact)

/-- Whether all recursions over a tree end with what the bounded ones come
to, from whichever node that was made. -/
structure Ends (tree : Tree) : Prop where
  prune : ∀ x, x < tree.size → PruneEnds x tree (tree.prune x).1 (tree.prune x).2
  value : ∀ x, x < tree.size → ValueEnds tree x (tree.value x)
  text : TextEnds tree tree.text?

/-! ### Pruning -/

namespace Linked

/-- A node stores every property once. -/
theorem link_of_mem (h : tree.Linked) {entry : String × NodeId} (he : entry ∈ (tree.node x).properties) :
    tree.link? x (.property entry.1) = some entry.2 :=
  (h.sorted x).lookup_of_mem he

/-- Every link of a chain leads at least one node further. -/
theorem add_length_le (h : tree.Linked) {links : List Link} (hf : tree.follow? x links = some z) :
    x + links.length ≤ z := by
  induction links generalizing x with
  | nil =>
    cases hf
    exact Nat.le_refl _
  | cons l rest ih =>
    obtain ⟨y, hl, hf⟩ := (follow?_cons tree x l rest).mp hf
    calc x + (l :: rest).length = x + 1 + rest.length := Nat.add_right_comm x rest.length 1
      _ ≤ y + rest.length := Nat.add_le_add_right (h.later hl) rest.length
      _ ≤ z := ih hf

theorem pruneWithin_keeps (h : tree.Linked) (hx : x < tree.size) (hd : tree.size ≤ x + depth) :
    (pruneWithin depth x tree).2.Linked ∧ (pruneWithin depth x tree).2.size = tree.size := by
  have hchains : ∀ links z, tree.follow? x links = some z → links.length < depth := by
    intro links z hf
    have hshorter : x + links.length < x + depth :=
      calc x + links.length ≤ z := h.add_length_le hf
        _ < tree.size := h.follow_made hx hf
        _ ≤ x + depth := hd
    exact Nat.lt_of_add_lt_add_left hshorter
  obtain ⟨hpruned, -⟩ := pruneWithin_spec depth x tree h.ordered h.acyclic hchains
  exact ⟨hpruned.linked h, hpruned.size⟩

/-- Where pruning ends and keeps trees linked for nodes behind `x`, so it does for properties behind `x`. -/
theorem pruneProperties_ends {prune : NodeId → Tree → Bool × Tree} {size : Nat}
    (hprune : ∀ y tree, tree.Linked → tree.size = size → x < y → y < size →
      PruneEnds y tree (prune y tree).1 (prune y tree).2 ∧ (prune y tree).2.Linked ∧
        (prune y tree).2.size = size)
    {entries : List (String × NodeId)} (he : ∀ entry ∈ entries, x < entry.2 ∧ entry.2 < size)
    (h : tree.Linked) (hs : tree.size = size) :
    PropertiesEnd entries tree (pruneProperties prune entries tree).1 (pruneProperties prune entries tree).2 ∧
      (pruneProperties prune entries tree).2.Linked ∧ (pruneProperties prune entries tree).2.size = size := by
  induction entries generalizing tree with
  | nil => exact ⟨.nil, h, hs⟩
  | cons entry rest ih =>
    obtain ⟨hlater, hmade⟩ := he entry (List.mem_cons_self ..)
    obtain ⟨hends, hlinked, hsize⟩ := hprune entry.2 tree h hs hlater hmade
    obtain ⟨hrest, hlast⟩ := ih (fun other ho => he other (List.mem_cons_of_mem _ ho)) hlinked hsize
    rw [pruneProperties_cons]
    exact ⟨.cons hends hrest, hlast⟩

/-- **With a bound of as many nodes as there are behind it, pruning a node ends.** -/
theorem pruneWithin_ends (h : tree.Linked) (hx : x < tree.size) (hd : tree.size ≤ x + depth) :
    PruneEnds x tree (pruneWithin depth x tree).1 (pruneWithin depth x tree).2 := by
  induction depth generalizing x tree with
  | zero => exact absurd hx (Nat.not_lt_of_le hd)
  | succ depth ih =>
    have hprune (y : NodeId) (middle : Tree) (hm : middle.Linked)
      (hs : middle.size = tree.size) (hlater : x < y)
        (hmade : y < tree.size) :
          PruneEnds y middle (pruneWithin depth y middle).1 (pruneWithin depth y middle).2 ∧
          (pruneWithin depth y middle).2.Linked ∧ (pruneWithin depth y middle).2.size = tree.size := by
      have hy : y < middle.size := hs ▸ hmade
      have hbound : middle.size ≤ y + depth :=
        calc middle.size ≤ x + (depth + 1) := hs ▸ hd
          _ = x + 1 + depth := Nat.add_right_comm x depth 1
          _ ≤ y + depth := Nat.add_le_add_right hlater depth
      obtain ⟨hlinked, hsize⟩ := hm.pruneWithin_keeps hy hbound
      exact ⟨ih hm hy hbound, hlinked, hsize.trans hs⟩
    have hentries : ∀ entry ∈ (tree.node x).properties, x < entry.2 ∧ entry.2 < tree.size := by
      intro entry he
      have hl : tree.link? x (.property entry.1) = some entry.2 := h.link_of_mem he
      exact ⟨h.later hl, h.made hl⟩
    obtain ⟨hproperties, hmiddle, hsize⟩ := pruneProperties_ends hprune hentries h rfl
    rw [pruneWithin_succ]
    dsimp only
    generalize pruneProperties (pruneWithin depth)
      (tree.node x).properties tree = pruned at hproperties hmiddle hsize
    obtain ⟨properties, middle⟩ := pruned
    dsimp only at hproperties hmiddle hsize ⊢
    have hxm : x < middle.size := by rwa [hsize]
    cases hi : (middle.node x).items with
    | none =>
      have hitems : ItemsEnd (middle.node x).items middle none middle := by
        rw [hi]
        exact .none
      exact .node hx hproperties hxm hitems hxm
    | some id =>
      obtain ⟨hends, -, hlast⟩ := hprune id middle hmiddle hsize (hmiddle.later (l := .items) hi)
        (hsize ▸ hmiddle.made (l := .items) hi)
      have hitems : ItemsEnd (middle.node x).items middle
        (if (pruneWithin depth id middle).1 then some id else none)
          (pruneWithin depth id middle).2 := by
        rw [hi]
        exact .some hends
      exact .node hx hproperties hxm hitems (hlast.symm ▸ hx)

/-! ### Values -/

/-- **With a bound of as many nodes as there are behind it, making the value of a node ends.** -/
theorem valueWithin_ends (h : tree.Linked) (hx : x < tree.size) (hd : tree.size ≤ x + depth) :
    ValueEnds tree x (tree.valueWithin depth x) := by
  induction depth generalizing x with
  | zero => exact absurd hx (Nat.not_lt_of_le hd)
  | succ depth ih =>
    rw [valueWithin_eq]
    refine .node (tree.valueWithin depth) hx ?_ ?_
    · intro entry he
      have hl : tree.link? x (.property entry.1) = some entry.2 := h.link_of_mem he
      exact ih (h.made hl) (h.bound_below hl hd)
    · intro y hy
      have hl : tree.link? x .items = some y := hy
      exact ih (h.made hl) (h.bound_below hl hd)

end Linked

/-! ### All recursions -/

theorem Linked.prune_ends (h : tree.Linked) (hx : x < tree.size) :
    PruneEnds x tree (tree.prune x).1 (tree.prune x).2 :=
  h.pruneWithin_ends hx (Nat.le_trans (Nat.le_succ tree.size) (Nat.le_add_left ..))

theorem Linked.value_ends (h : tree.Linked) (hx : x < tree.size) : ValueEnds tree x (tree.value x) :=
  h.valueWithin_ends hx (Nat.le_trans (Nat.le_succ tree.size) (Nat.le_add_left ..))

/-- **All recursions over a sound tree end.** -/
theorem Sound.ends (h : tree.Sound) : tree.Ends where
  prune := fun _ hx => h.linked.prune_ends hx
  value := fun _ hx => h.linked.value_ends hx
  text := by
    have hprune := h.linked.prune_ends h.made
    obtain ⟨hpruned, -⟩ := prune_spec h.linked.ordered h.linked.acyclic root
    have hlinked : (tree.prune root).2.Linked := hpruned.linked h.linked
    have hmade : root < (tree.prune root).2.size := by
      rw [hpruned.size]
      exact h.made
    rw [text?]
    generalize tree.prune root = result at hprune hlinked hmade
    obtain ⟨_ | _, pruned⟩ := result
    · exact .silent hprune
    · exact .said hprune (hlinked.value_ends hmade)

end CrdForge.Extension.Tree
