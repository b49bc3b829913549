import CrdForge.Proofs.Extension.Links
import Mathlib.Data.Set.Basic

/-! What pruning leaves of a tree.

Two links may lead to one node here, as long as no chain of links comes back to where it started. To
prune a node takes from all that it leads to the links beyond which nothing is said, and changes nothing
else (`prune_spec`). What is said along a chain is the same with these links and without them, so it does
not matter that a node which is linked twice is met again after it was pruned, and the chains that are
left are those beyond which something is said (`prune_keeps_spoken`). -/
namespace CrdForge.Extension.Tree

variable {tree middle after : Tree} {x y z c : NodeId} {l : Link} {links : List Link}
  {nodes others : Set NodeId}

/-! ### Chains -/

/-- Whether a chain of links leads from one node to another. -/
def Reaches (tree : Tree) (x y : NodeId) : Prop := ∃ links, tree.follow? x links = some y

/-- Whether something is said at a node or along a chain from it. -/
def Speaks (tree : Tree) (x : NodeId) : Prop := ∃ links, tree.said x links ≠ []

/-- Whether every node has its properties in order. -/
def Ordered (tree : Tree) : Prop := ∀ p, Keyed.Sorted (tree.node p).properties

/-- Whether no chain of links comes back to where it started. -/
def Acyclic (tree : Tree) : Prop := ∀ x links, links ≠ [] → tree.follow? x links ≠ some x

theorem Linked.ordered (h : tree.Linked) : tree.Ordered := h.sorted

theorem acyclic_of_later (h : ∀ {p l c}, tree.link? p l = some c → p < c) : tree.Acyclic := by
  intro x links hne hf
  cases links with
  | nil => exact hne rfl
  | cons l links =>
    obtain ⟨y, hl, hf⟩ := Option.bind_eq_some_iff.mp hf
    exact Nat.lt_irrefl x (Nat.lt_of_lt_of_le (h hl) (le_of_follow h hf))

theorem Linked.acyclic (h : tree.Linked) : tree.Acyclic := acyclic_of_later h.later

theorem reaches_refl (tree : Tree) (x : NodeId) : tree.Reaches x x := ⟨[], rfl⟩

theorem follow?_cons (tree : Tree) (x : NodeId) (l : Link) (links : List Link) :
    tree.follow? x (l :: links) = some z ↔ ∃ y, tree.link? x l = some y ∧ tree.follow? y links = some z := by
  rw [follow?, Option.bind_eq_some_iff]

theorem Reaches.trans (h : tree.Reaches x y) (h' : tree.Reaches y z) : tree.Reaches x z := by
  obtain ⟨first, hf⟩ := h
  obtain ⟨second, hs⟩ := h'
  exact ⟨first ++ second, by rw [follow?_append, hf, Option.bind_some, hs]⟩

theorem reaches_of_link (h : tree.link? x l = some y) : tree.Reaches x y :=
  ⟨[l], (follow?_cons tree x l []).mpr ⟨y, h, rfl⟩⟩

/-- What is reached is the node itself, or is reached beyond one of its links. -/
theorem reaches_iff : tree.Reaches x z ↔ z = x ∨ ∃ l y, tree.link? x l = some y ∧ tree.Reaches y z := by
  constructor
  · intro h
    obtain ⟨_ | ⟨l, links⟩, hf⟩ := h
    · exact .inl (Option.some.inj hf).symm
    · obtain ⟨y, hl, hf⟩ := (follow?_cons tree x l links).mp hf
      exact .inr ⟨l, y, hl, links, hf⟩
  · rintro (rfl | ⟨l, y, hl, hr⟩)
    · exact tree.reaches_refl z
    · exact (reaches_of_link hl).trans hr

theorem Acyclic.not_reaches (h : tree.Acyclic) (hl : tree.link? x l = some y) : ¬ tree.Reaches y x := by
  intro hr
  obtain ⟨links, hf⟩ := hr
  exact h x (l :: links) (List.cons_ne_nil _ _) ((follow?_cons tree x l links).mpr ⟨y, hl, hf⟩)

/-- The nodes that a chain passes through before its end are made and differ from each other. -/
theorem Acyclic.trail (h : tree.Acyclic) (hf : tree.follow? x links = some z) :
    ∃ trail : List NodeId, trail.length = links.length ∧ trail.Nodup ∧
      ∀ y ∈ trail, y < tree.size ∧ tree.Reaches x y := by
  induction links generalizing x with
  | nil => exact ⟨[], rfl, List.nodup_nil, fun _ hm => absurd hm List.not_mem_nil⟩
  | cons l rest ih =>
    obtain ⟨y, hl, hf⟩ := (follow?_cons tree x l rest).mp hf
    obtain ⟨trail, hlength, hn, hall⟩ := ih hf
    have hnew : x ∉ trail := fun hm => h.not_reaches hl (hall x hm).2
    have hmade : x < tree.size := by
      apply Nat.lt_of_not_le
      intro hs
      rw [link?_of_size_le hs] at hl
      cases hl
    refine ⟨x ::
      trail, by rw [List.length_cons, hlength, List.length_cons], List.nodup_cons.mpr ⟨hnew, hn⟩, ?_⟩
    intro w hm
    rcases List.mem_cons.mp hm with rfl | hm
    · exact ⟨hmade, tree.reaches_refl w⟩
    · exact ⟨(hall w hm).1, (reaches_of_link hl).trans (hall w hm).2⟩

/-- No chain has more links than nodes were made. -/
theorem Acyclic.length_le (h : tree.Acyclic) (hf : tree.follow? x links = some z) :
    links.length ≤ tree.size := by
  obtain ⟨trail, hlength, hn, hall⟩ := h.trail hf
  have hsub : trail ⊆ List.range tree.size := fun y hm => List.mem_range.mpr (hall y hm).1
  calc links.length = trail.length := hlength.symm
    _ ≤ (List.range tree.size).length := hn.length_le_of_subset hsub
    _ = tree.size := List.length_range

/-! ### What is said beyond a node -/

theorem speaks_cons : tree.Speaks x ↔
    (tree.node x).extensions ≠ [] ∨ ∃ l y, tree.link? x l = some y ∧ tree.Speaks y := by
  constructor
  · intro h
    obtain ⟨_ | ⟨l, links⟩, hs⟩ := h
    · exact .inl hs
    · rw [said_cons] at hs
      cases hl : tree.link? x l with
      | none =>
        rw [hl] at hs
        exact absurd rfl hs
      | some y =>
        rw [hl] at hs
        exact .inr ⟨l, y, hl, links, hs⟩
  · rintro (hs | ⟨l, y, hl, links, hs⟩)
    · exact ⟨[], hs⟩
    · exact ⟨l :: links, by rwa [said_cons, hl]⟩

theorem speaks_iff : tree.Speaks x ↔ ∃ y, tree.Reaches x y ∧ (tree.node y).extensions ≠ [] := by
  constructor
  · intro h
    obtain ⟨links, hs⟩ := h
    rw [said] at hs
    cases hf : tree.follow? x links with
    | none =>
      rw [hf] at hs
      exact absurd rfl hs
    | some y =>
      rw [hf] at hs
      exact ⟨y, ⟨links, hf⟩, hs⟩
  · rintro ⟨y, ⟨links, hf⟩, hs⟩
    exact ⟨links, by rwa [said, hf]⟩

theorem Reaches.speaks (h : tree.Reaches x y) (hs : tree.Speaks y) : tree.Speaks x := by
  obtain ⟨z, hz, hs⟩ := speaks_iff.mp hs
  exact speaks_iff.mpr ⟨z, h.trans hz, hs⟩

/-! ### What may be taken away -/

/-- A tree from some of whose nodes the links were taken beyond which nothing is said. -/
structure Pruned (nodes : Set NodeId) (tree after : Tree) : Prop where
  size : after.size = tree.size
  extensions : ∀ y, (after.node y).extensions = (tree.node y).extensions
  links : ∀ y ∈ nodes, ∀ l c, after.link? y l = some c ↔ tree.link? y l = some c ∧ tree.Speaks c
  others : ∀ y ∉ nodes, after.node y = tree.node y
  ordered : after.Ordered

namespace Pruned

theorem refl (ho : tree.Ordered) : Pruned ∅ tree tree :=
  ⟨rfl, fun _ => rfl, fun _ hy => absurd hy (Set.notMem_empty _), fun _ _ => rfl, ho⟩

/-- What is said is the same along every chain: along one that was cut nothing was said. -/
theorem said (h : Pruned nodes tree after) (x : NodeId) : after.said x = tree.said x := by
  funext links
  induction links generalizing x with
  | nil => rw [said_nil, said_nil, h.extensions]
  | cons l links ih =>
    rw [said_cons, said_cons]
    by_cases hx : x ∈ nodes
    · cases hl : tree.link? x l with
      | none =>
        have hcut : after.link? x l = none := Option.eq_none_iff_forall_not_mem.mpr fun c hc => by
          have hc := ((h.links x hx l c).mp hc).1
          rw [hl] at hc
          cases hc
        rw [hcut]
        rfl
      | some y =>
        cases hl' : after.link? x l with
        | some c =>
          have hc := ((h.links x hx l c).mp hl').1
          rw [hl] at hc
          obtain rfl := Option.some.inj hc
          exact ih y
        | none =>
          have hquiet : ¬ tree.Speaks y := fun hs => by
            rw [(h.links x hx l y).mpr ⟨hl, hs⟩] at hl'
            cases hl'
          exact (Classical.byContradiction fun hs => hquiet ⟨links, Ne.symm hs⟩)
    · rw [link?_congr (h.others x hx)]
      cases tree.link? x l with
      | none => rfl
      | some y => exact ih y

theorem speaks (h : Pruned nodes tree after) (x : NodeId) : after.Speaks x ↔ tree.Speaks x := by
  rw [Speaks, Speaks, h.said]

theorem fewer (h : Pruned nodes tree after) (hl : after.link? x l = some y) : tree.link? x l = some y := by
  by_cases hx : x ∈ nodes
  · exact ((h.links x hx l y).mp hl).1
  · rwa [link?_congr (h.others x hx)] at hl

theorem follow (h : Pruned nodes tree after) (hf : after.follow? x links = some z) :
    tree.follow? x links = some z := by
  induction links generalizing x with
  | nil => exact hf
  | cons l rest ih =>
    obtain ⟨y, hl, hf⟩ := (follow?_cons after x l rest).mp hf
    exact (follow?_cons tree x l rest).mpr ⟨y, h.fewer hl, ih hf⟩

theorem reaches (h : Pruned nodes tree after) (hr : after.Reaches x y) : tree.Reaches x y := by
  obtain ⟨links, hf⟩ := hr
  exact ⟨links, h.follow hf⟩

theorem acyclic (h : Pruned nodes tree after) (ha : tree.Acyclic) : after.Acyclic :=
  fun x links hne hf => ha x links hne (h.follow hf)

theorem linked (h : Pruned nodes tree after) (ht : tree.Linked) : after.Linked where
  later := fun hl => ht.later (h.fewer hl)
  made := fun hl => h.size ▸ ht.made (h.fewer hl)
  once := fun hl hl' => ht.once (h.fewer hl) (h.fewer hl')
  sorted := h.ordered

theorem trans (h : Pruned nodes tree middle) (h' : Pruned others middle after) :
    Pruned (nodes ∪ others) tree after where
  size := h'.size.trans h.size
  extensions := fun y => (h'.extensions y).trans (h.extensions y)
  links := by
    intro y hy l c
    by_cases ho : y ∈ others
    · rw [h'.links y ho, h.speaks]
      by_cases hn : y ∈ nodes
      · rw [h.links y hn, and_assoc, and_self]
      · rw [link?_congr (h.others y hn)]
    · rw [link?_congr (h'.others y ho), h.links y (hy.resolve_right ho)]
  others := by
    intro y hy
    rw [h'.others y fun ho => hy (.inr ho), h.others y fun hn => hy (.inl hn)]
  ordered := h'.ordered

theorem congr (h : Pruned nodes tree after) (hs : ∀ y, y ∈ nodes ↔ y ∈ others) :
    Pruned others tree after := by
  obtain rfl : nodes = others := Set.ext hs
  exact h

/-- If the nodes are all that certain ones lead to, then what is reached no more is one of them. -/
theorem reaches_or (h : Pruned nodes tree after) (hclosed : ∀ y ∈ nodes, ∀ z, tree.Reaches y z → z ∈ nodes)
    (hr : tree.Reaches x z) : z ∈ nodes ∨ after.Reaches x z := by
  obtain ⟨links, hf⟩ := hr
  induction links generalizing x with
  | nil => exact .inr ⟨[], hf⟩
  | cons l rest ih =>
    by_cases hx : x ∈ nodes
    · exact .inl (hclosed x hx z ⟨l :: rest, hf⟩)
    · obtain ⟨y, hl, hf⟩ := (follow?_cons tree x l rest).mp hf
      rw [← link?_congr (h.others x hx)] at hl
      exact (ih hf).imp_right (reaches_of_link hl).trans

end Pruned

/-! ### Pruning -/

/-- Whether a step prunes each node from which no chain has as many links as
given, and answers whether something is said there. -/
def Prunes (prune : NodeId → Tree → Bool × Tree) (depth : Nat) : Prop :=
  ∀ x tree, tree.Ordered → tree.Acyclic → (∀ links z, tree.follow? x links = some z → links.length < depth) →
    Pruned {y | tree.Reaches x y} tree (prune x tree).2 ∧ ((prune x tree).1 = true ↔ tree.Speaks x)

/-- The nodes that are reached from some nodes. -/
def Below (tree : Tree) (starts : List NodeId) : Set NodeId := {z | ∃ y ∈ starts, tree.Reaches y z}

theorem below_closed {starts : List NodeId} (hy : y ∈ tree.Below starts) (hr : tree.Reaches y z) :
    z ∈ tree.Below starts := by
  obtain ⟨start, hs, hy⟩ := hy
  exact ⟨start, hs, hy.trans hr⟩

/-- Nodes that are pruned after others are pruned as they would be before. -/
theorem Pruned.append {starts later : List NodeId} (h : Pruned (tree.Below starts) tree middle)
    (h' : Pruned (middle.Below later) middle after) : Pruned (tree.Below (starts ++ later)) tree after := by
  apply (h.trans h').congr
  intro z
  constructor
  · rintro (⟨y, hy, hr⟩ | ⟨y, hy, hr⟩)
    · exact ⟨y, List.mem_append_left _ hy, hr⟩
    · exact ⟨y, List.mem_append_right _ hy, h.reaches hr⟩
  · rintro ⟨y, hy, hr⟩
    rcases List.mem_append.mp hy with hy | hy
    · exact .inl ⟨y, hy, hr⟩
    · exact (h.reaches_or (fun _ hy _ => below_closed hy) hr).imp_right fun hr => ⟨y, hy, hr⟩

section
variable {prune : NodeId → Tree → Bool × Tree} {depth : Nat}

theorem pruneProperties_cons (prune : NodeId → Tree → Bool × Tree) (entry : String × NodeId)
    (rest : List (String × NodeId)) (tree : Tree) :
    pruneProperties prune (entry :: rest) tree =
      (if (prune entry.2 tree).1 then entry :: (pruneProperties prune rest (prune entry.2 tree).2).1
        else (pruneProperties prune rest (prune entry.2 tree).2).1,
      (pruneProperties prune rest (prune entry.2 tree).2).2) := rfl

open Classical in
theorem pruneProperties_spec (hp : Prunes prune depth) (ho : tree.Ordered) (ha : tree.Acyclic)
    {entries : List (String × NodeId)}
    (hd : ∀ entry ∈ entries, ∀ links z, tree.follow? entry.2 links = some z → links.length < depth) :
    Pruned (tree.Below (entries.map (·.2))) tree (pruneProperties prune entries tree).2 ∧
      (pruneProperties prune entries tree).1 = entries.filter fun entry => tree.Speaks entry.2 := by
  induction entries generalizing tree with
  | nil =>
    refine ⟨(Pruned.refl ho).congr fun y => ⟨fun hy => absurd hy (Set.notMem_empty y), fun hy => ?_⟩, rfl⟩
    obtain ⟨_, hm, -⟩ := hy
    cases hm
  | cons entry rest ih =>
    obtain ⟨hfirst, hanswer⟩ := hp entry.2 tree ho ha (hd entry (List.mem_cons_self ..))
    rw [pruneProperties_cons]
    dsimp only
    generalize prune entry.2 tree = result at hfirst hanswer
    obtain ⟨kept, middle⟩ := result
    obtain ⟨hrest, hfilter⟩ := ih hfirst.ordered (hfirst.acyclic ha) fun other hm links z hf =>
      hd other (List.mem_cons_of_mem _ hm) links z (hfirst.follow hf)
    constructor
    · have hfirst : Pruned (tree.Below [entry.2]) tree middle := hfirst.congr fun y => by simp [Below]
      exact hfirst.append hrest
    · have hspeaks : ∀ other : String × NodeId, middle.Speaks other.2 ↔ tree.Speaks other.2 :=
        fun other => hfirst.speaks other.2
      simp only [hspeaks] at hfilter
      rw [List.filter_cons, hfilter]
      simp only [hanswer, decide_eq_true_eq]

/-- Prunes the items of a node, keeping them if something is said below. -/
def pruneItems (prune : NodeId → Tree → Bool × Tree) (items : Option NodeId) (tree : Tree) :
    Option NodeId × Tree :=
  match items with
  | none => (none, tree)
  | some id => (if (prune id tree).1 then some id else none, (prune id tree).2)

open Classical in
theorem pruneItems_spec (hp : Prunes prune depth) (ho : tree.Ordered) (ha : tree.Acyclic)
    {items : Option NodeId}
    (hd : ∀ y ∈ items, ∀ links z, tree.follow? y links = some z → links.length < depth) :
    Pruned (tree.Below items.toList) tree (pruneItems prune items tree).2 ∧
      (pruneItems prune items tree).1 = items.filter fun y => tree.Speaks y := by
  cases items with
  | none =>
    refine ⟨(Pruned.refl ho).congr fun y => ⟨fun hy => absurd hy (Set.notMem_empty y), fun hy => ?_⟩, rfl⟩
    obtain ⟨_, hm, -⟩ := hy
    cases hm
  | some id =>
    obtain ⟨hpruned, hanswer⟩ := hp id tree ho ha (hd id rfl)
    refine ⟨hpruned.congr fun y => by simp [Below], ?_⟩
    rw [pruneItems, Option.filter_some]
    simp only [hanswer, decide_eq_true_eq]

theorem pruneWithin_succ (depth : Nat) (x : NodeId) (tree : Tree) :
    pruneWithin (depth + 1) x tree =
      let pruned := pruneProperties (pruneWithin depth) (tree.node x).properties tree
      let items := pruneItems (pruneWithin depth) (pruned.2.node x).items pruned.2
      let after := items.2.modify x fun node => { node with properties := pruned.1, items := items.1 }
      (Node.isKept (after.node x), after) := by
  rw [pruneWithin]
  dsimp only
  cases ((pruneProperties (pruneWithin depth) (tree.node x).properties tree).2.node x).items <;> rfl

end

theorem isKept_iff : Node.isKept (tree.node x) = true ↔
    (tree.node x).extensions ≠ [] ∨ ∃ l y, tree.link? x l = some y := by
  have hp : (tree.node x).properties ≠ [] ↔ ∃ name y, tree.child? x name = some y := by
    rw [List.ne_nil_iff_exists_cons]
    constructor
    · rintro ⟨⟨name, y⟩, rest, he⟩
      exact ⟨name, y, by simp [child?, he]⟩
    · rintro ⟨name, y, hc⟩
      exact List.exists_cons_of_ne_nil (List.ne_nil_of_mem (Keyed.mem_of_lookup hc))
  have hl : (∃ l y, tree.link? x l = some y) ↔
      (∃ name y, tree.child? x name = some y) ∨ ∃ y, (tree.node x).items = some y := by
    constructor
    · rintro ⟨_ | _, y, hl⟩
      · exact .inl ⟨_, y, hl⟩
      · exact .inr ⟨y, hl⟩
    · rintro (⟨name, y, hl⟩ | ⟨y, hl⟩)
      · exact ⟨.property name, y, hl⟩
      · exact ⟨.items, y, hl⟩
  rw [hl, ← hp, ← Option.isSome_iff_exists]
  simp [Node.isKept, or_assoc]

/-- The nodes that are linked below a node. -/
def linkedBelow (tree : Tree) (x : NodeId) : List NodeId :=
  (tree.node x).properties.map (·.2) ++ (tree.node x).items.toList

theorem mem_linkedBelow (ho : tree.Ordered) : y ∈ tree.linkedBelow x ↔ ∃ l, tree.link? x l = some y := by
  rw [linkedBelow, List.mem_append]
  constructor
  · rintro (hy | hy)
    · obtain ⟨entry, he, rfl⟩ := List.mem_map.mp hy
      exact ⟨.property entry.1, (ho x).lookup_of_mem he⟩
    · exact ⟨.items, Option.mem_toList.mp hy⟩
  · rintro ⟨name | _, hy⟩
    · exact .inl (List.mem_map.mpr ⟨(name, y), Keyed.mem_of_lookup hy, rfl⟩)
    · exact .inr (Option.mem_toList.mpr hy)

theorem mem_below_linkedBelow (ho : tree.Ordered) :
    z ∈ tree.Below (tree.linkedBelow x) ↔ ∃ l y, tree.link? x l = some y ∧ tree.Reaches y z := by
  constructor
  · rintro ⟨y, hy, hr⟩
    obtain ⟨l, hl⟩ := (mem_linkedBelow ho).mp hy
    exact ⟨l, y, hl, hr⟩
  · rintro ⟨l, y, hl, hr⟩
    exact ⟨y, (mem_linkedBelow ho).mpr ⟨l, hl⟩, hr⟩

open Classical in
/-- A node that keeps its links to where something is said has no others. -/
theorem link?_of_spoken {after : Tree} (ho : tree.Ordered)
    (hnode : after.node x = { tree.node x with
      properties := (tree.node x).properties.filter fun entry => tree.Speaks entry.2
      items := (tree.node x).items.filter fun y => tree.Speaks y }) (l : Link) (c : NodeId) :
    after.link? x l = some c ↔ tree.link? x l = some c ∧ tree.Speaks c := by
  have hsorted : Keyed.Sorted ((tree.node x).properties.filter fun entry => tree.Speaks entry.2) :=
    (ho x).sublist List.filter_sublist
  cases l with
  | property name =>
    rw [link?, child?, hnode]
    constructor
    · intro hl
      obtain ⟨hm, hs⟩ := List.mem_filter.mp (Keyed.mem_of_lookup hl)
      exact ⟨(ho x).lookup_of_mem hm, of_decide_eq_true hs⟩
    · rintro ⟨hl, hs⟩
      exact hsorted.lookup_of_mem (List.mem_filter.mpr ⟨Keyed.mem_of_lookup hl, decide_eq_true hs⟩)
  | items =>
    rw [link?, hnode]
    simp [link?, Option.filter_eq_some_iff]

open Classical in
/-- Once all below a node is pruned, the node is pruned by taking its own links to where nothing is said. -/
theorem Pruned.relink (h : Pruned (tree.Below (tree.linkedBelow x)) tree middle) (ho : tree.Ordered)
    (ha : tree.Acyclic) :
    let after := middle.modify x fun node =>
      { node with
        properties := (tree.node x).properties.filter fun entry => tree.Speaks entry.2
        items := (tree.node x).items.filter fun y => tree.Speaks y }
    Pruned {y | tree.Reaches x y} tree after ∧ (Node.isKept (after.node x) = true ↔ tree.Speaks x) := by
  intro after
  have hx : x ∉ tree.Below (tree.linkedBelow x) := fun hm => by
    obtain ⟨l, y, hl, hr⟩ := (mem_below_linkedBelow ho).mp hm
    exact ha.not_reaches hl hr
  have hother {y : NodeId} (hy : y ≠ x) : after.node y = middle.node y := by
    rw [node_modify, if_neg fun hc => hy hc.1]
  -- A node that was not made has no links, so it is relinked as well.
  have hnode : after.node x =
      { tree.node x with
        properties := (tree.node x).properties.filter fun entry => tree.Speaks entry.2
        items := (tree.node x).items.filter fun y => tree.Speaks y } := by
    rw [node_modify, h.others x hx]
    by_cases hmade : x < middle.size
    · rw [if_pos ⟨rfl, hmade⟩]
    · have hn : tree.node x = {} := node_of_size_le (by rw [← h.size]; exact Nat.le_of_not_lt hmade)
      rw [if_neg fun hc => hmade hc.2, hn]
      rfl
  have hlinks (l : Link) (c : NodeId) : after.link? x l = some c ↔ tree.link? x l = some c ∧ tree.Speaks c :=
    link?_of_spoken ho hnode l c
  have hpruned : Pruned {y | tree.Reaches x y} tree after := by
    refine ⟨(size_modify ..).trans h.size, fun y => ?_, fun y hy l c => ?_, fun y hy => ?_, fun y => ?_⟩
    · by_cases hy : y = x
      · rw [hy, hnode]
      · rw [hother hy, h.extensions]
    · by_cases he : y = x
      · rw [he]
        exact hlinks l c
      · rw [link?_congr (hother he)]
        exact h.links y ((mem_below_linkedBelow ho).mpr ((reaches_iff.mp hy).resolve_left he)) l c
    · have he : y ≠ x := fun he => hy (he ▸ tree.reaches_refl x)
      rw [hother he]
      exact h.others y fun hm => hy (reaches_iff.mpr (.inr ((mem_below_linkedBelow ho).mp hm)))
    · by_cases hy : y = x
      · rw [hy, hnode]
        exact (ho x).sublist List.filter_sublist
      · rw [hother hy]
        exact h.ordered y
  refine ⟨hpruned, ?_⟩
  rw [isKept_iff, speaks_cons, hpruned.extensions]
  simp only [hlinks]

open Classical in
theorem pruneWithin_spec (depth : Nat) : Prunes (pruneWithin depth) depth := by
  induction depth with
  | zero => exact fun x tree _ _ hd => absurd (hd [] x rfl) (Nat.not_lt_zero _)
  | succ depth ih =>
    intro x tree ho ha hd
    have hbelow {l : Link} {y : NodeId} (hl : tree.link? x l = some y) (links : List Link) (z : NodeId)
        (hf : tree.follow? y links = some z) : links.length < depth :=
      Nat.lt_of_succ_lt_succ (hd (l :: links) z ((follow?_cons tree x l links).mpr ⟨y, hl, hf⟩))
    obtain ⟨hproperties, hkept⟩ := pruneProperties_spec ih ho ha fun entry he =>
      hbelow (l := .property entry.1) ((ho x).lookup_of_mem he)
    rw [pruneWithin_succ]
    dsimp only
    generalize pruneProperties (pruneWithin depth) (tree.node x).properties tree = pruned at hproperties hkept
    obtain ⟨properties, middle⟩ := pruned
    have hx : middle.node x = tree.node x := hproperties.others x fun ⟨y, hy, hr⟩ => by
      obtain ⟨entry, he, rfl⟩ := List.mem_map.mp hy
      exact ha.not_reaches (l := .property entry.1) ((ho x).lookup_of_mem he) hr
    dsimp only at hproperties hx hkept ⊢
    have hd' : ∀ y ∈ (tree.node x).items, ∀ links z, middle.follow? y links = some z → links.length < depth :=
      fun y hy links z hf => hbelow (l := .items) hy links z (hproperties.follow hf)
    obtain ⟨hitems, hkept'⟩ := pruneItems_spec ih hproperties.ordered (hproperties.acyclic ha) hd'
    rw [hx]
    generalize pruneItems (pruneWithin depth) (tree.node x).items middle = pruned at hitems hkept'
    obtain ⟨items, last⟩ := pruned
    dsimp only at hkept' ⊢
    simp only [hproperties.speaks] at hkept'
    rw [hkept, hkept']
    have hall : Pruned (tree.Below (tree.linkedBelow x)) tree last := hproperties.append hitems
    exact hall.relink ho ha

/-- **To prune a node takes the links beyond which nothing is said from all that the node leads to.** -/
theorem prune_spec (ho : tree.Ordered) (ha : tree.Acyclic) (x : NodeId) :
    Pruned {y | tree.Reaches x y} tree (tree.prune x).2 ∧ ((tree.prune x).1 = true ↔ tree.Speaks x) :=
  pruneWithin_spec (tree.nodes.size + 1) x tree ho ha fun _ _ hf => Nat.lt_succ_of_le (ha.length_le hf)

/-! ### What is left -/

/-- Whether every link from a node on leads to where something is said. -/
def Terse (tree : Tree) (x : NodeId) : Prop :=
  ∀ links y l z, tree.follow? x links = some y → tree.link? y l = some z → tree.Speaks z

/-- Nodes are the same that say the same and have the same links. -/
theorem node_ext (ho : tree.Ordered) (ho' : after.Ordered)
    (he : (after.node x).extensions = (tree.node x).extensions)
    (hl : ∀ l, after.link? x l = tree.link? x l) : after.node x = tree.node x := by
  have hproperties : (after.node x).properties = (tree.node x).properties :=
    (ho' x).ext (ho x) fun name => hl (.property name)
  have hitems : (after.node x).items = (tree.node x).items := hl .items
  cases hn : after.node x
  cases hn' : tree.node x
  rw [hn, hn'] at he hproperties hitems
  congr

theorem tree_ext (hs : after.size = tree.size) (hn : ∀ y, after.node y = tree.node y) : after = tree := by
  cases after with
  | mk after =>
    cases tree with
    | mk tree =>
      congr
      apply Array.ext hs
      intro i hi hi'
      have h := hn i
      simpa [node, hi, hi'] using h

namespace Pruned
variable (h : Pruned {y | tree.Reaches x y} tree after)
include h

/-- The chains that are left are those beyond which something is said. -/
theorem follow_iff (hx : tree.Reaches x y) (hne : links ≠ []) :
    after.follow? y links = some z ↔ tree.follow? y links = some z ∧ tree.Speaks z := by
  induction links generalizing y with
  | nil => exact absurd rfl hne
  | cons l rest ih =>
    have hl (c : NodeId) := h.links y hx l c
    rw [follow?_cons, follow?_cons]
    cases rest with
    | nil =>
      simp only [follow?, Option.some.injEq]
      constructor
      · intro hf
        obtain ⟨c, hc, he⟩ := hf
        obtain ⟨hc, hs⟩ := (hl c).mp hc
        exact ⟨⟨c, hc, he⟩, he ▸ hs⟩
      · intro hf
        obtain ⟨⟨c, hc, he⟩, hs⟩ := hf
        exact ⟨c, (hl c).mpr ⟨hc, he ▸ hs⟩, he⟩
    | cons next rest =>
      constructor
      · intro hf
        obtain ⟨c, hc, hf⟩ := hf
        have hc := ((hl c).mp hc).1
        obtain ⟨hf, hs⟩ := (ih (hx.trans (reaches_of_link hc)) (List.cons_ne_nil _ _)).mp hf
        exact ⟨⟨c, hc, hf⟩, hs⟩
      · intro hf
        obtain ⟨⟨c, hc, hf⟩, hs⟩ := hf
        have hspeaks : tree.Speaks c := Reaches.speaks ⟨_, hf⟩ hs
        exact ⟨c, (hl c).mpr ⟨hc, hspeaks⟩,
          (ih (hx.trans (reaches_of_link hc)) (List.cons_ne_nil _ _)).mpr ⟨hf, hs⟩⟩

theorem terse : after.Terse x := by
  intro links y l z hf hl
  exact (h.speaks z).mpr ((h.links y ⟨links, h.follow hf⟩ l z).mp hl).2

/-- What is left without links was reached because something is said there. -/
theorem leaf_said (hx : tree.Reaches x z) (hs : tree.Speaks z) (hl : ∀ l, after.link? z l = none) :
    (after.node z).extensions ≠ [] := by
  rcases speaks_cons.mp hs with he | ⟨l, c, hc, hs⟩
  · rwa [h.extensions]
  · have hkept := (h.links z hx l c).mpr ⟨hc, hs⟩
    rw [hl] at hkept
    cases hkept

/-- To prune the node again takes nothing away and has the same answer. -/
theorem again (ha : tree.Acyclic) {kept : Bool} (hk : kept = true ↔ tree.Speaks x) :
    after.prune x = (kept, after) := by
  obtain ⟨hagain, hk'⟩ := prune_spec h.ordered (h.acyclic ha) x
  generalize after.prune x = result at hagain hk' ⊢
  obtain ⟨kept', last⟩ := result
  have hlast : last = after := by
    apply tree_ext hagain.size
    intro y
    by_cases hy : after.Reaches x y
    · refine node_ext h.ordered hagain.ordered (hagain.extensions y) fun l => Option.ext fun c => ?_
      rw [hagain.links y hy, h.links y (h.reaches hy), h.speaks, and_assoc, and_self]
    · exact hagain.others y hy
  have hsame : kept' = kept := Bool.eq_iff_iff.mpr (hk'.trans ((h.speaks x).trans hk.symm))
  rw [hlast, hsame]

end Pruned

/-- What the answer to pruning a node and the tree that is left of it are. -/
structure Pruning (tree : Tree) (x : NodeId) (kept : Bool) (after : Tree) : Prop where
  /-- The chains that are left are those whose end says something or leads to where something is said. -/
  chains : ∀ links, links ≠ [] → ∀ z, after.follow? x links = some z ↔
    tree.follow? x links = some z ∧ ∃ y, tree.Reaches z y ∧ (tree.node y).extensions ≠ []
  extensions : ∀ y, (after.node y).extensions = (tree.node y).extensions
  /-- What the node does not lead to is left alone. -/
  apart : ∀ y, ¬ tree.Reaches x y → after.node y = tree.node y
  leaves : ∀ links, links ≠ [] → ∀ z, after.follow? x links = some z → (∀ l, after.link? z l = none) →
    (after.node z).extensions ≠ []
  answer : kept = true ↔ ∃ y, tree.Reaches x y ∧ (tree.node y).extensions ≠ []
  again : after.prune x = (kept, after)

/-- **To prune a node keeps exactly the chains from it beyond which something is said**, and a tree has a
text unless nothing is said beyond its root. -/
theorem prune_keeps_spoken (ho : tree.Ordered) (ha : tree.Acyclic) (x : NodeId) :
    Pruning tree x (tree.prune x).1 (tree.prune x).2 ∧
      (tree.text? = none ↔ ∀ y, tree.Reaches root y → (tree.node y).extensions = []) := by
  constructor
  · obtain ⟨hpruned, hanswer⟩ := prune_spec ho ha x
    generalize tree.prune x = result at hpruned hanswer ⊢
    obtain ⟨kept, after⟩ := result
    have hfollow {links : List Link} (hne : links ≠ []) (z : NodeId) := hpruned.follow_iff (z := z)
      (tree.reaches_refl x) hne
    refine ⟨fun links hne z => ?_, hpruned.extensions, hpruned.others, fun links hne z hf hl => ?_, ?_, ?_⟩
    · rw [hfollow hne, speaks_iff]
    · obtain ⟨hf, hs⟩ := (hfollow hne z).mp hf
      exact hpruned.leaf_said ⟨links, hf⟩ hs hl
    · rw [hanswer, speaks_iff]
    · exact hpruned.again ha hanswer
  · have hanswer := (prune_spec ho ha root).2
    have hquiet : ¬ tree.Speaks root ↔ ∀ y, tree.Reaches root y → (tree.node y).extensions = [] := by
      rw [speaks_iff]
      push Not
      rfl
    rw [← hquiet, ← hanswer, text?]
    rcases tree.prune root with ⟨_ | _, pruned⟩ <;> simp

/-- A tree in which two links lead to one node. -/
def sharedLogin : Tree := ⟨#[
  { properties := [("owner", 1), ("reader", 2)] },
  { properties := [("login", 3)] },
  { properties := [("name", 4)], items := some 3 },
  { extensions := [(apiMapping, .object [])] },
  {}]⟩

/-- Both links to the node stay, and the one beside them is taken. -/
theorem sharedLogin_pruned : sharedLogin.Ordered ∧ sharedLogin.Acyclic ∧
    Pruning sharedLogin root true (sharedLogin.prune root).2 ∧ sharedLogin.text?.isSome = true ∧
      (sharedLogin.prune root).2.follow? root [.property "owner", .property "login"] = some 3 ∧
      (sharedLogin.prune root).2.follow? root [.property "reader", .items] = some 3 ∧
      (sharedLogin.prune root).2.follow? root [.property "reader", .property "name"] = none := by
  have hmade (p : NodeId) : p < 5 ∨ sharedLogin.node p = {} :=
    (Nat.lt_or_ge p 5).imp_right fun hp => node_of_size_le hp
  have hordered : sharedLogin.Ordered := by
    intro p
    rcases hmade p with hp | hp
    · unfold Keyed.Sorted
      revert p
      decide
    · rw [hp]
      exact .nil
  have hlater : ∀ p < 5, (∀ entry ∈ (sharedLogin.node p).properties, p < entry.2) ∧
      ∀ c ∈ (sharedLogin.node p).items.toList, p < c := by decide
  have hacyclic : sharedLogin.Acyclic := by
    apply acyclic_of_later
    intro p l c hl
    rcases hmade p with hp | hp
    · cases l with
      | property name => exact (hlater p hp).1 _ (Keyed.mem_of_lookup hl)
      | items => exact (hlater p hp).2 c (Option.mem_toList.mpr hl)
    · cases l <;> simp [link?, child?, hp] at hl
  have hpruning := (prune_keeps_spoken hordered hacyclic root).1
  exact ⟨hordered, hacyclic, hpruning, rfl, rfl, rfl, rfl⟩

end CrdForge.Extension.Tree
