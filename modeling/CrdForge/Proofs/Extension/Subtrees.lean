import CrdForge.Proofs.Extension.Annotation

/-! Parts of the value of a tree.

After pruning, every link leads to where something is said, so the value of a node is known by the notes
from it on (`valueWithin_congr`). Two trees that say the same from the end of a path on have the same
value there (`value?_along`), whatever else they say. -/
namespace CrdForge

open Extension (Link)

/-- The value that a chain of links leads to. -/
def Json.along : Json → List Link → Option Json
  | value, [] => some value
  | value, link :: rest => (value.step? link).bind fun below => below.along rest

theorem Json.maps_iff {value : Json} {links : List Link} :
    value.Maps links ↔ ∃ below, value.along links = some below ∧ below.IsMapping := by
  induction links generalizing value with
  | nil => simp [Maps, along]
  | cons link rest ih =>
    rw [Maps, along]
    cases value.step? link <;> simp [ih]

namespace Extension

/-- What is said from the end of a path on. -/
def Notes.beyond (notes : Notes) (path : List Link) : Notes := fun links => notes (path ++ links)

namespace Tree
variable {tree after : Tree} {x y z : NodeId}

theorem said_of_follow {path : List Link} (h : tree.follow? x path = some y) :
    tree.said y = (tree.said x).beyond path := by
  funext links
  rw [Notes.beyond, said, said, follow?_append, h, Option.bind_some]

theorem beyond_of_follow_none {path : List Link} (h : tree.follow? x path = none) :
    (tree.said x).beyond path = Notes.none := by
  funext links
  rw [Notes.beyond, said, follow?_append, h]
  rfl

/-! ### Values of nodes -/

/-- The value of a node, given the values below it. -/
def nodeValue (said properties : List (String × Json)) (items : Option Json) : Json :=
  let withProperties := if properties.isEmpty then said
    else Keyed.insert "properties" (.object properties) said
  .object (match items with
    | none => withProperties
    | some value => Keyed.insert "items" value withProperties)

theorem valueWithin_eq (tree : Tree) (depth : Nat) (x : NodeId) :
    tree.valueWithin (depth + 1) x = nodeValue (tree.node x).extensions
      ((tree.node x).properties.map fun (name, child) => (name, tree.valueWithin depth child))
      ((tree.node x).items.map (tree.valueWithin depth)) := by
  simp only [valueWithin, nodeValue.eq_def]
  cases (tree.node x).items <;> cases (tree.node x).properties <;> rfl

theorem link?_eq_none_of_silent (ht : tree.Terse x) (hs : tree.said x = Notes.none) (l : Link) :
    tree.link? x l = none := by
  cases hl : tree.link? x l with
  | none => rfl
  | some y =>
    obtain ⟨links, hq⟩ := ht [] x l y rfl hl
    have hn : tree.said x (l :: links) = [] := by rw [hs, Notes.none]
    rw [said_cons, hl] at hn
    exact absurd hn hq

theorem valueWithin_of_silent (ht : tree.Terse x) (hs : tree.said x = Notes.none) (depth : Nat) :
    tree.valueWithin depth x = .object [] := by
  cases depth with
  | zero => rfl
  | succ depth =>
    have he : (tree.node x).extensions = [] := by rw [← said_nil, hs, Notes.none]
    have hi : (tree.node x).items = none := link?_eq_none_of_silent ht hs .items
    have hp : (tree.node x).properties = [] := by
      cases hc : (tree.node x).properties with
      | nil => rfl
      | cons entry rest =>
        have hl := link?_eq_none_of_silent ht hs (.property entry.1)
        rw [link?, child?, hc, Keyed.lookup_cons, if_pos rfl] at hl
        cases hl
    rw [valueWithin_eq, he, hi, hp]
    rfl

theorem Terse.follow (ht : tree.Terse x) {path : List Link} (hf : tree.follow? x path = some y) :
    tree.Terse y :=
  fun links a l b ha hb => ht (path ++ links) a l b (by rw [follow?_append, hf, Option.bind_some, ha]) hb

theorem Terse.below (ht : tree.Terse x) {l : Link} (hl : tree.link? x l = some y) : tree.Terse y :=
  ht.follow (show tree.follow? x [l] = some y by rw [follow?, hl]; rfl)

/-- **After pruning, the value of a node is known by the notes from it on.** -/
theorem valueWithin_congr (h : tree.Linked) (h' : after.Linked) {depth depth' : Nat} (ht : tree.Terse x)
    (ht' : after.Terse y) (hd : tree.size ≤ x + depth) (hd' : after.size ≤ y + depth')
    (hs : tree.said x = after.said y) : tree.valueWithin depth x = after.valueWithin depth' y := by
  induction depth generalizing x y depth' with
  | zero =>
    have hn := said_of_size_le (show tree.size ≤ x from hd)
    rw [valueWithin_of_silent ht hn, valueWithin_of_silent ht' (hs.symm.trans hn)]
  | succ depth ih =>
    cases depth' with
    | zero =>
      have hn := said_of_size_le (show after.size ≤ y from hd')
      rw [valueWithin_of_silent ht (hs.trans hn), valueWithin_of_silent ht' hn]
    | succ depth' =>
      have hlink (l : Link) : (tree.link? x l).map (tree.valueWithin depth) =
          (after.link? y l).map (after.valueWithin depth') := by
        have hsaid (links : List Link) := congrFun hs (l :: links)
        simp only [said_cons] at hsaid
        cases hl : tree.link? x l with
        | none =>
          cases hl' : after.link? y l with
          | none => rfl
          | some c' =>
            obtain ⟨links, hq⟩ := ht' [] y l c' rfl hl'
            have := hsaid links
            rw [hl, hl'] at this
            exact absurd this.symm hq
        | some c =>
          cases hl' : after.link? y l with
          | none =>
            obtain ⟨links, hq⟩ := ht [] x l c rfl hl
            have := hsaid links
            rw [hl, hl'] at this
            exact absurd this hq
          | some c' =>
            refine congrArg some
              (ih (ht.below hl) (ht'.below hl') (h.bound_below hl hd) (h'.bound_below hl' hd') ?_)
            funext links
            have := hsaid links
            rwa [hl, hl'] at this
      have hproperties :
        ((tree.node x).properties.map fun (name, child) => (name, tree.valueWithin depth child)) =
          (after.node y).properties.map fun (name, child) => (name, after.valueWithin depth' child) :=
        ((h.sorted x).map _).ext ((h'.sorted y).map _) fun name => by
          rw [Keyed.lookup_map, Keyed.lookup_map]
          exact hlink (.property name)
      have hitems : (tree.node x).items.map (tree.valueWithin depth) =
          (after.node y).items.map (after.valueWithin depth') := hlink .items
      have hext : (tree.node x).extensions = (after.node y).extensions := by
        rw [← said_nil, ← said_nil, hs]
      rw [valueWithin_eq, valueWithin_eq, hproperties, hitems, hext]

/-! ### Values at the end of a path -/

/-- Whether nothing is said on the way along a path. -/
def Quiet (tree : Tree) (x : NodeId) (path : List Link) : Prop :=
  ∀ before link rest, path = before ++ link :: rest → tree.said x before = []

theorem Quiet.below {l : Link} {path : List Link} (hq : tree.Quiet x (l :: path))
    (hl : tree.link? x l = some y) :
    tree.Quiet y path := by
  intro before link rest he
  have hb := hq (l :: before) link rest (by rw [he, List.cons_append])
  rwa [said_cons, hl] at hb

theorem along_valueWithin (h : tree.Linked) {depth : Nat} (hd : tree.size ≤ x + depth) {path : List Link}
    (hq : tree.Quiet x path) :
    match tree.follow? x path with
    | none => (tree.valueWithin depth x).along path = none
    | some z => ∃ depth', tree.size ≤ z + depth' ∧
      (tree.valueWithin depth x).along path = some (tree.valueWithin depth' z) := by
  induction path generalizing x depth with
  | nil => exact ⟨depth, hd, rfl⟩
  | cons link rest ih =>
    cases depth with
    | zero =>
      rw [follow?, link?_of_size_le (show tree.size ≤ x from hd)]
      cases link <;> rfl
    | succ depth =>
      have hhere : ∀ entry ∈ (tree.node x).extensions, entry.1 = clusterMapping ∨ entry.1 = apiMapping := by
        have hn := hq [] link rest rfl
        rw [said_nil] at hn
        simp [hn]
      rw [follow?, Json.along, step?_valueWithin hhere]
      cases hl : tree.link? x link with
      | none => rfl
      | some y =>
        exact ih (h.bound_below hl hd) (hq.below hl)

theorem follow?_eq_none_of_terse {path : List Link} (ht : tree.Terse x) (hne : path ≠ [])
    (hn : (tree.said x).beyond path = Notes.none) : tree.follow? x path = none := by
  cases hf : tree.follow? x path with
  | none => rfl
  | some z =>
    obtain ⟨before, link, rfl⟩ := List.eq_nil_or_concat path |>.resolve_left hne
    rw [List.concat_eq_append] at hf hn
    obtain ⟨y, hy, hz⟩ := follow?_concat hf
    obtain ⟨links, hq⟩ := ht before y link z hy hz
    rw [said_of_follow hf, hn] at hq
    exact absurd rfl hq

/-- At the end of a path there is the value of a pruned node, if something is said from there on. -/
theorem value?_along_spec (h : tree.Linked) {path : List Link} (hne : path ≠ []) (hq : tree.Quiet root path) :
    ((tree.value?.bind fun value => value.along path) = none ∧ (tree.said root).beyond path = Notes.none) ∨
      ∃ (pruned : Tree) (z : NodeId) (depth : Nat), pruned.Linked ∧ pruned.Terse z ∧ pruned.size ≤ z + depth ∧
        pruned.said z = (tree.said root).beyond path ∧ (tree.said root).beyond path ≠ Notes.none ∧
        (tree.value?.bind fun value => value.along path) = some (pruned.valueWithin depth z) := by
  rcases value?_spec h with ⟨hv, hn⟩ | ⟨pruned, depth, hl, hterse, hd, hs, hv⟩
  · rw [hv, hn]
    exact .inl ⟨rfl, rfl⟩
  · rw [hv, Option.bind_some, ← hs]
    have hquiet : pruned.Quiet root path := fun before link rest he => hs ▸ hq before link rest he
    have halong := along_valueWithin hl hd hquiet
    cases hf : pruned.follow? root path with
    | none =>
      rw [hf] at halong
      exact .inl ⟨halong, beyond_of_follow_none hf⟩
    | some z =>
      rw [hf] at halong
      obtain ⟨depth, hz, hv⟩ := halong
      have hb := said_of_follow hf
      refine .inr ⟨pruned, z, depth, hl, hterse.follow hf, hz, hb, fun hn => ?_, hv⟩
      rw [follow?_eq_none_of_terse hterse hne hn] at hf
      cases hf

/-- **Two trees have the same value at the end of a path if they say the same from there on.** -/
theorem value?_along (h : tree.Linked) (h' : after.Linked) {path : List Link} (hne : path ≠ [])
    (hq : tree.Quiet root path) (hq' : after.Quiet root path)
    (hs : (tree.said root).beyond path = (after.said root).beyond path) :
    (tree.value?.bind fun value => value.along path) = after.value?.bind fun value => value.along path := by
  rcases value?_along_spec h hne hq with ⟨hv, hn⟩ | ⟨pruned, z, depth, hl, ht, hd, hz, hn, hv⟩
  · rcases value?_along_spec h' hne hq' with ⟨hv', -⟩ | ⟨_, _, _, -, -, -, -, hn', -⟩
    · rw [hv, hv']
    · exact absurd (hs.symm.trans hn) hn'
  · rcases value?_along_spec h' hne hq' with ⟨-, hn'⟩ | ⟨pruned', z', depth', hl', ht', hd', hz', -, hv'⟩
    · exact absurd (hs.trans hn') hn
    · rw [hv, hv', valueWithin_congr hl hl' ht ht' hd hd' (hz.trans (hs.trans hz'.symm))]

/-! ### What is said in a value -/

/-- In the value of a node from which on nothing is said but mappings, these stand where they are said. -/
theorem get?_along_valueWithin (h : tree.Linked) {depth : Nat} (hd : tree.size ≤ x + depth)
    (hm : (tree.said x).OnlyMappings) {key : String} (hk : key = clusterMapping ∨ key = apiMapping)
    (links : List Link) :
    ((tree.valueWithin depth x).along links).bind (Json.get? key) = (tree.said x links).lookup key := by
  induction depth generalizing x links with
  | zero =>
    rw [said_of_size_le (show tree.size ≤ x from hd)]
    cases links with
    | nil => rfl
    | cons link links => cases link <;> rfl
  | succ depth ih =>
    cases links with
    | nil =>
      obtain ⟨entries, hv, hl⟩ := valueWithin_succ tree depth x
      have hkey : key ≠ "items" ∧ key ≠ "properties" := by rcases hk with rfl | rfl <;> decide
      rw [hv, said_nil]
      exact (hl key).trans (by rw [if_neg (by simp [hkey.1]), if_neg (by simp [hkey.2])])
    | cons link links =>
      have he := hm []
      rw [said_nil] at he
      rw [Json.along, step?_valueWithin he, said_cons]
      cases hl : tree.link? x link with
      | none => rfl
      | some y =>
        have hs : (tree.said y).OnlyMappings := fun rest => by
          have hr := hm (link :: rest)
          rwa [said_cons, hl] at hr
        exact ih (h.bound_below hl hd) hs links

/-- **In the value of a tree that says nothing but mappings, these stand where they are said.** -/
theorem value?_get? (h : tree.Linked) (hm : (tree.said root).OnlyMappings) {key : String}
    (hk : key = clusterMapping ∨ key = apiMapping) (links : List Link) :
    ((tree.value?.bind (·.along links)).bind (Json.get? key)) = (tree.said root links).lookup key := by
  rcases value?_spec h with ⟨hv, hn⟩ | ⟨pruned, depth, hl, -, hd, hs, hv⟩
  · rw [hv, hn]
    rfl
  · rw [hv, ← hs]
    exact get?_along_valueWithin hl hd (hs ▸ hm) hk links

end Tree

end Extension

end CrdForge
