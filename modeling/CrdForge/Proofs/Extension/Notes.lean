import CrdForge.Proofs.Extension.Links

/-! What a tree says from one of its nodes on, as a function of chains of links.

Conversions write to the node that they are given, to the nodes of items below it, and to nodes that they
make. `Grows` is what such a step may do to the rest of the tree, and each operation has one equation that
says what becomes of the notes from the node on. -/
namespace CrdForge.Extension

namespace Notes

/-- Nothing is said. -/
def none : Notes := fun _ => []

/-- The notes from a node that is linked as a property, in place of those from the one linked before. -/
def attach (notes : Notes) (name : String) (below : Notes) : Notes
  | .property other :: links => if other = name then below links else notes (.property other :: links)
  | links => notes links

/-- A change of what is said from the items on. -/
def onItems (notes : Notes) (change : Notes → Notes) : Notes
  | .items :: links => change (fun links => notes (.items :: links)) links
  | links => notes links

/-- Something more is said at the node itself. -/
def annotate (notes : Notes) (name : String) (value : Json) : Notes
  | [] => Keyed.insert name value (notes [])
  | links => notes links

/-- Other notes from the end of a chain of links on. -/
def replace (notes : Notes) (below : Notes) : List Link → Notes
  | [] => below
  | link :: rest => fun
    | [] => notes []
    | other :: links =>
      if other = link then replace (fun links => notes (link :: links)) below rest links
        else notes (other :: links)

theorem replace_cons (notes below : Notes) (link other : Link) (rest links : List Link) :
    notes.replace below (link :: rest) (other :: links) =
      if other = link then replace (fun links => notes (link :: links)) below rest links
      else notes (other :: links) := rfl

/-- Only what is said at the node itself. -/
def here (notes : Notes) : Notes
  | [] => notes []
  | _ => []

end Notes

namespace Tree
variable {tree middle after : Tree} {x y z c : NodeId}

/-! ### Steps that stay below a node -/

/-- What is said beyond a chain is what is said from its end on. -/
theorem replace_said {path : List Link} (hf : tree.follow? y path = some x) :
    (tree.said y).replace (tree.said x) path = tree.said y := by
  induction path generalizing y with
  | nil =>
    cases hf
    rfl
  | cons link rest ih =>
    obtain ⟨z, hz, hr⟩ := Option.bind_eq_some_iff.mp hf
    funext links
    cases links with
    | nil => rfl
    | cons other links =>
      by_cases ho : other = link
      · subst ho
        have hb : (fun links => tree.said y (other :: links)) = tree.said z := by
          funext links
          simp [said_cons, hz]
        rw [Notes.replace_cons, if_pos rfl, hb, ih hr, ← hb]
      · rw [Notes.replace_cons, if_neg ho]

/-- Whether one node is reached from another by links to items alone. -/
def OnSpine (tree : Tree) (x y : NodeId) : Prop :=
  ∃ count, tree.follow? x (List.replicate count .items) = some y

theorem onSpine_refl (tree : Tree) (x : NodeId) : tree.OnSpine x x := ⟨0, rfl⟩

theorem OnSpine.step {z : NodeId} (h : tree.OnSpine x y) (hz : tree.link? y .items = some z) :
    tree.OnSpine x z := by
  obtain ⟨count, hy⟩ := h
  exact ⟨count + 1, by rw [List.replicate_succ', follow?_snoc hy hz]⟩

theorem OnSpine.below (h : tree.OnSpine y c) (hy : tree.link? x .items = some y) : tree.OnSpine x c := by
  obtain ⟨count, hc⟩ := h
  exact ⟨count + 1, by simpa [List.replicate_succ, follow?, hy] using hc⟩

/-- What a step at a node may do: it makes nodes, it links only nodes that it made, and of those that were
there it changes only the node itself and the items below it. -/
structure Grows (x : NodeId) (tree after : Tree) : Prop where
  size_le : tree.size ≤ after.size
  linked : after.Linked
  old : ∀ {p l c}, c < tree.size → after.link? p l = some c → tree.link? p l = some c
  kept : ∀ {y}, y < tree.size → ¬ tree.OnSpine x y → after.node y = tree.node y

namespace Grows

theorem refl (h : tree.Linked) (x : NodeId) : Grows x tree tree :=
  ⟨Nat.le_refl _, h, fun _ hl => hl, fun _ _ => rfl⟩

theorem onSpine (h : Grows x tree after) (hy : y < tree.size) (hs : after.OnSpine x y) :
    tree.OnSpine x y := by
  obtain ⟨count, hs⟩ := hs
  induction count generalizing y with
  | zero =>
    cases hs
    exact tree.onSpine_refl x
  | succ count ih =>
    rw [List.replicate_succ'] at hs
    obtain ⟨z, hz, hl⟩ := follow?_concat hs
    have hzy : z < y := h.linked.later hl
    exact (ih (Nat.lt_trans hzy hy) hz).step (h.old hy hl)

theorem trans (h : Grows x tree middle) (h' : Grows x middle after) : Grows x tree after where
  size_le := Nat.le_trans h.size_le h'.size_le
  linked := h'.linked
  old := fun hc hl => h.old hc (h'.old (Nat.lt_of_lt_of_le hc h.size_le) hl)
  kept := fun hy hs => by
    rw [h'.kept (Nat.lt_of_lt_of_le hy h.size_le) fun hm => hs (h.onSpine hy hm), h.kept hy hs]

/-- A step at the node of the items is a step at the node itself. -/
theorem of_items (h : Grows y tree after) (hy : tree.link? x .items = some y) : Grows x tree after :=
  ⟨h.size_le, h.linked, h.old, fun hz hs => h.kept hz fun hz => hs (hz.below hy)⟩

/-- What stands above a node is left as it is. -/
theorem node_above (h : Grows x tree after) (ht : tree.Linked) (hx : x < tree.size) (hy : y < x) :
    after.node y = tree.node y := by
  refine h.kept (Nat.lt_trans hy hx) ?_
  rintro ⟨count, hs⟩
  exact absurd (ht.le_follow hs) (Nat.not_le_of_lt hy)

theorem follow?_above (h : Grows x tree after) (ht : tree.Linked) (hx : x < tree.size) {path : List Link}
    (hz : z ≤ x) (hf : tree.follow? y path = some z) : after.follow? y path = some z := by
  induction path generalizing y with
  | nil => exact hf
  | cons link rest ih =>
    obtain ⟨w, hw, hr⟩ := Option.bind_eq_some_iff.mp hf
    have hy : y < x := Nat.lt_of_lt_of_le (ht.later hw) (Nat.le_trans (ht.le_follow hr) hz)
    rw [follow?, link?_congr (h.node_above ht hx hy), hw]
    exact ih hr

/-- From above, a step shows only beyond the chain that leads to its node. -/
theorem said_above (h : Grows x tree after) (ht : tree.Linked) (hx : x < tree.size) {path : List Link}
    (hf : tree.follow? y path = some x) : after.said y = (tree.said y).replace (after.said x) path := by
  induction path generalizing y with
  | nil =>
    cases hf
    rfl
  | cons link rest ih =>
    obtain ⟨z, hz, hr⟩ := Option.bind_eq_some_iff.mp hf
    have hy : y < x := Nat.lt_of_lt_of_le (ht.later hz) (ht.le_follow hr)
    have hn := h.node_above ht hx hy
    funext links
    cases links with
    | nil => simp only [said_nil, hn, Notes.replace]
    | cons other links =>
      by_cases ho : other = link
      · subst ho
        simp [said_cons, link?_congr hn, hz, ih hr, Notes.replace]
      · simp only [said_cons, link?_congr hn, Notes.replace, if_neg ho]
        cases hd : tree.link? y other with
        | none => rfl
        | some d =>
          -- Nodes below another link are not below `x`, or two chains from `y` would end at one node.
          have : after.said d = tree.said d := said_congr fun links c hc => by
            refine h.kept (ht.follow_made (ht.made hd) hc) ?_
            rintro ⟨count, hs⟩
            have hp : tree.follow? y (other :: links) = some c := by simpa [follow?, hd] using hc
            have hi : tree.follow? y (link :: rest ++ List.replicate count .items) = some c := by
              rw [follow?_append, follow?, hz, Option.bind_some, hr]
              exact hs
            exact ho (List.cons.inj (ht.follow?_unique hp hi)).1
          simp [this]

theorem said_of_items (ht : tree.Linked) (h : Grows y tree after) (hy : tree.link? x .items = some y) :
    after.said x = (tree.said x).onItems fun _ => after.said y := by
  have hf : tree.follow? x [.items] = some y := by simp [follow?, hy]
  rw [h.said_above ht (ht.made hy) hf]
  funext links
  cases links with
  | nil => rfl
  | cons link links => cases link <;> simp [Notes.replace, Notes.onItems]

end Grows

/-! ### Making nodes -/

theorem alloc_grows (h : tree.Linked) (x : NodeId) : Grows x tree tree.alloc.2 where
  size_le := by simp
  linked := by
    refine ⟨fun hl => h.later (by simpa using hl), fun hl => ?_, fun hl hl' => ?_, fun p => ?_⟩
    · rw [size_alloc]
      exact Nat.lt_succ_of_lt (h.made (by simpa using hl))
    · exact h.once (by simpa using hl) (by simpa using hl')
    · rw [node_alloc]
      exact h.sorted p
  old := fun _ hl => by simpa using hl
  kept := fun _ _ => node_alloc ..

@[simp] theorem said_alloc (tree : Tree) (x : NodeId) : tree.alloc.2.said x = tree.said x :=
  said_congr fun _ _ _ => node_alloc ..

/-- Nothing is said from a node that was not made yet. -/
theorem said_of_size_le (h : tree.size ≤ x) : tree.said x = Notes.none := by
  funext links
  cases links with
  | nil => simp [said_nil, node_of_size_le h, Notes.none]
  | cons l links => simp [said_cons, link?_of_size_le h, Notes.none]

/-- A step at a node that was just made leaves all others alone. -/
theorem Grows.of_made (ht : tree.Linked) (h : Grows tree.size tree.alloc.2 after) (x : NodeId) :
    Grows x tree after where
  size_le := Nat.le_trans (by simp) h.size_le
  linked := h.linked
  old := fun hc hl => by simpa using h.old (by simpa using Nat.lt_succ_of_lt hc) hl
  kept := fun {y} hy _ => by
    rw [h.kept (by simpa using Nat.lt_succ_of_lt hy), node_alloc]
    rintro ⟨count, hs⟩
    exact absurd ((alloc_grows ht 0).linked.le_follow hs) (Nat.not_le_of_lt hy)

theorem Grows.said_of_made (ht : tree.Linked) (h : Grows tree.size tree.alloc.2 after) (hx : x < tree.size) :
    after.said x = tree.said x :=
  said_congr fun links z hz => by
    have hz := ht.follow_made hx hz
    refine (h.kept (by simpa using Nat.lt_succ_of_lt hz) ?_).trans (node_alloc ..)
    rintro ⟨count, hs⟩
    exact absurd ((alloc_grows ht 0).linked.le_follow hs) (Nat.not_le_of_lt hz)

/-- Nothing leads to a node that was just made, and a step at it does not change that. -/
theorem Grows.unlinked_of_made (ht : tree.Linked) (h : Grows tree.size tree.alloc.2 after) (p : NodeId)
    (l : Link) : after.link? p l ≠ some tree.size := by
  intro hl
  have := h.old (by simp) hl
  rw [link?_alloc] at this
  exact absurd (ht.made this) (Nat.lt_irrefl _)

/-! ### Linking a node -/

section Attach
variable (h : tree.Linked) (name : String) (hx : x < c) (hc : c < tree.size)
include h hx hc

theorem attach_linked (hl : ∀ p l, tree.link? p l ≠ some c) : (tree.attach x name c).Linked := by
  have hxs : x < tree.size := Nat.lt_trans hx hc
  refine ⟨fun hp => ?_, fun hp => ?_, fun hp hp' => ?_, sorted_modify h.sorted fun _ hs => hs.insert name c⟩
  · rw [tree.link?_attach name c hxs] at hp
    split at hp
    · simp_all
    · exact h.later hp
  · rw [tree.link?_attach name c hxs] at hp
    rw [size_attach]
    split at hp
    · simp_all
    · exact h.made hp
  · rw [tree.link?_attach name c hxs] at hp hp'
    split at hp <;> split at hp'
    · simp_all
    · cases hp
      exact absurd hp' (hl _ _)
    · cases hp'
      exact absurd hp (hl _ _)
    · exact h.once hp hp'

theorem said_attach : (tree.attach x name c).said x = (tree.said x).attach name (tree.said c) := by
  have hxs : x < tree.size := Nat.lt_trans hx hc
  have hm {y : NodeId} (hy : x < y) : (tree.attach x name c).said y = tree.said y := h.said_modify hy _
  funext links
  match links with
  | [] => simp [said_nil, attach, node_modify, hxs, Notes.attach]
  | .items :: links =>
    simp only [said_cons, tree.link?_attach name c hxs, Notes.attach]
    cases hd : tree.link? x .items with
    | none => simp
    | some d => simp [hm (h.later hd)]
  | .property other :: links =>
    simp only [said_cons, tree.link?_attach name c hxs, Notes.attach]
    by_cases ho : other = name
    · simp [ho, hm hx]
    · cases hd : tree.link? x (.property other) with
      | none => simp [ho]
      | some d => simp [ho, hm (h.later hd)]

end Attach

/-- A node that was just made is linked after a step at it. -/
theorem Grows.attach (ht : tree.Linked) (h : Grows tree.size tree.alloc.2 after) (hx : x < tree.size)
    (name : String) : Grows x tree (after.attach x name tree.size) where
  size_le := by
    have := (h.of_made ht x).size_le
    simpa using this
  linked := attach_linked h.linked name hx (Nat.lt_of_lt_of_le (by simp) h.size_le) (h.unlinked_of_made ht)
  old := fun {p l c} hc hl => by
    have hs : x < after.size := Nat.lt_of_lt_of_le hx (h.of_made ht x).size_le
    rw [after.link?_attach name tree.size hs] at hl
    split at hl
    · cases hl
      exact absurd hc (Nat.lt_irrefl _)
    · exact (h.of_made ht x).old hc hl
  kept := fun {y} hy hs => by
    have hne : y ≠ x := fun he => hs (he ▸ tree.onSpine_refl _)
    rw [← (h.of_made ht x).kept hy hs]
    simp [Tree.attach, node_modify, hne]

theorem Grows.said_attach (ht : tree.Linked) (h : Grows tree.size tree.alloc.2 after) (hx : x < tree.size)
    (name : String) :
    (after.attach x name tree.size).said x = (tree.said x).attach name (after.said tree.size) := by
  rw [Tree.said_attach h.linked name hx (Nat.lt_of_lt_of_le (by simp) h.size_le), h.said_of_made ht hx]

/-! ### Items -/

/-- The tree with a node made and linked as the items of another. -/
def withItems (tree : Tree) (x : NodeId) : Tree :=
  tree.alloc.2.modify x fun node => { node with items := some tree.size }

@[simp] theorem size_withItems (tree : Tree) (x : NodeId) : (tree.withItems x).size = tree.size + 1 := by
  simp [withItems]

theorem link?_withItems (hx : x < tree.size) (p : NodeId) (l : Link) :
    (tree.withItems x).link? p l = if p = x ∧ l = .items then some tree.size else tree.link? p l := by
  by_cases hp : p = x
  · subst hp
    have hp : p < tree.size + 1 := Nat.lt_succ_of_lt hx
    cases l <;> simp [withItems, link?, child?, node_modify, hp]
  · have hn : (tree.withItems x).node p = tree.node p := by simp [withItems, node_modify, hp]
    rw [link?_congr hn]
    simp [hp]

section Items
variable (h : tree.Linked) (hx : x < tree.size)
include h hx

theorem withItems_linked : (tree.withItems x).Linked := by
  refine ⟨fun hp => ?_, fun hp => ?_, fun hp hp' => ?_,
    sorted_modify (alloc_grows h x).linked.sorted fun _ hs => hs⟩
  · rw [link?_withItems hx] at hp
    split at hp
    · simp_all
    · exact h.later hp
  · rw [link?_withItems hx] at hp
    rw [size_withItems]
    split at hp
    · simp_all
    · exact Nat.lt_succ_of_lt (h.made hp)
  · rw [link?_withItems hx] at hp hp'
    split at hp <;> split at hp'
    · simp_all
    · cases hp
      exact absurd (h.made hp') (Nat.lt_irrefl _)
    · cases hp'
      exact absurd (h.made hp) (Nat.lt_irrefl _)
    · exact h.once hp hp'

theorem withItems_grows : Grows x tree (tree.withItems x) where
  size_le := by simp
  linked := withItems_linked h hx
  old := fun hc hl => by
    rw [link?_withItems hx] at hl
    split at hl
    · cases hl
      exact absurd hc (Nat.lt_irrefl _)
    · exact hl
  kept := fun {y} hy hs => by
    have hne : y ≠ x := fun he => hs (he ▸ tree.onSpine_refl _)
    simp [withItems, node_modify, hne]

theorem said_withItems (hi : tree.link? x .items = none) : (tree.withItems x).said x = tree.said x := by
  have hm {y : NodeId} (hy : x < y) : (tree.withItems x).said y = tree.said y := by
    rw [withItems, (alloc_grows h x).linked.said_modify hy, said_alloc]
  funext links
  match links with
  | [] => simp [said_nil, withItems, node_modify, Nat.lt_succ_of_lt hx]
  | .items :: links =>
    simp [said_cons, link?_withItems hx, hi, hm hx, said_of_size_le (Nat.le_refl _), Notes.none]
  | .property name :: links =>
    simp only [said_cons, link?_withItems hx]
    cases hd : tree.link? x (.property name) with
    | none => simp
    | some d => simp [hm (h.later hd)]

/-- The node of the items, whether it was there or is made. -/
theorem items_spec :
    (tree.items x).2.link? x .items = some (tree.items x).1 ∧ Grows x tree (tree.items x).2 ∧
      (tree.items x).2.said x = tree.said x := by
  cases hi : (tree.node x).items with
  | some y =>
    have : tree.items x = (y, tree) := by simp [items, hi]
    rw [this]
    exact ⟨hi, .refl h x, rfl⟩
  | none =>
    have : tree.items x = (tree.size, tree.withItems x) := by simp [items, hi, withItems]
    rw [this]
    exact ⟨by simp [link?_withItems hx], withItems_grows h hx, said_withItems h hx hi⟩

end Items

/-! ### Paths of properties -/

/-- The node of a property, whether it was there or is made. -/
theorem child_spec (h : tree.Linked) (hx : x < tree.size) (name : String) :
    (tree.child x name).2.link? x (.property name) = some (tree.child x name).1 ∧
      Grows x tree (tree.child x name).2 ∧ (tree.child x name).2.said x = tree.said x := by
  cases hc : tree.child? x name with
  | some y =>
    have : tree.child x name = (y, tree) := by simp [child, hc]
    rw [this]
    exact ⟨hc, .refl h x, rfl⟩
  | none =>
    have : tree.child x name = (tree.size, tree.alloc.2.attach x name tree.size) := by simp [child, hc]
    rw [this]
    have ha : Grows tree.size tree.alloc.2 tree.alloc.2 := .refl (alloc_grows h x).linked _
    refine ⟨?_, ha.attach h hx name, ?_⟩
    · rw [link?_attach _ _ _ (by simpa using Nat.lt_succ_of_lt hx), if_pos ⟨rfl, rfl⟩]
    · rw [ha.said_attach h hx, said_alloc, said_of_size_le (Nat.le_refl _)]
      funext links
      match links with
      | [] => rfl
      | .items :: links => rfl
      | .property other :: links =>
        by_cases ho : other = name
        · subst ho
          simp [Notes.attach, Notes.none, said_cons, link?, hc]
        · simp [Notes.attach, ho]

/-- **Making the nodes of a path says nothing**, and leaves alone what leads to where the path starts. -/
theorem descend_spec (h : tree.Linked) {path : List Link} (hy : y < tree.size)
    (hf : tree.follow? y path = some x) (names : List String) :
    (tree.descend x names).2.follow? y (path ++ names.map .property) = some (tree.descend x names).1 ∧
      (∀ path z, z ≤ x → tree.follow? y path = some z → (tree.descend x names).2.follow? y path = some z) ∧
      (tree.descend x names).2.Linked ∧ y < (tree.descend x names).2.size ∧
      (tree.descend x names).2.said y = tree.said y := by
  induction names generalizing tree x path with
  | nil => exact ⟨by rw [List.map_nil, List.append_nil]; exact hf, fun _ _ _ hz => hz, h, hy, rfl⟩
  | cons name rest ih =>
    have hx := h.follow_made hy hf
    obtain ⟨hl, hg, hs⟩ := child_spec h hx name
    have hs : (tree.child x name).2.said y = tree.said y := by
      rw [hg.said_above h hx hf, hs]
      exact replace_said hf
    have hlt : x < (tree.child x name).1 := hg.linked.later hl
    obtain ⟨hend, habove, hlinked, hm, ht⟩ := ih hg.linked (Nat.lt_of_lt_of_le hy hg.size_le)
      (follow?_snoc (hg.follow?_above h hx (Nat.le_refl x) hf) hl)
    refine ⟨?_, fun path z hz hf => ?_, hlinked, hm, ht.trans hs⟩
    · rw [List.map_cons, List.append_cons]
      exact hend
    · exact habove path z (Nat.le_trans hz (Nat.le_of_lt hlt)) (hg.follow?_above h hx hz hf)

/-! ### What is said at a node -/

theorem annotate_grows (h : tree.Linked) (x : NodeId) (name : String) (value : Json) :
    Grows x tree (tree.annotate x name value) where
  size_le := by simp
  linked := by
    refine ⟨fun hl => ?_, fun hl => ?_, fun hl hl' => ?_, sorted_modify h.sorted fun _ hs => hs⟩
    · rw [link?_annotate] at hl
      exact h.later hl
    · rw [link?_annotate] at hl
      simpa using h.made hl
    · rw [link?_annotate] at hl hl'
      exact h.once hl hl'
  old := fun _ hl => by rwa [link?_annotate] at hl
  kept := fun {y} hy hs => by
    have hne : y ≠ x := fun he => hs (he ▸ tree.onSpine_refl _)
    simp [annotate, node_modify, hne]

theorem said_annotate (h : tree.Linked) (hx : x < tree.size) (name : String) (value : Json) :
    (tree.annotate x name value).said x = (tree.said x).annotate name value := by
  have hm {y : NodeId} (hy : x < y) : (tree.annotate x name value).said y = tree.said y := h.said_modify hy _
  funext links
  cases links with
  | nil => simp [said_nil, annotate, node_modify, hx, Notes.annotate]
  | cons l links =>
    simp only [said_cons, link?_annotate, Notes.annotate]
    cases hd : tree.link? x l with
    | none => rfl
    | some d => simp [hm (h.later hd)]

/-! ### Unlinking what is below a node -/

/-- The tree with nothing linked below a node. -/
def cut (tree : Tree) (x : NodeId) : Tree :=
  tree.modify x fun node => { node with properties := [], items := none }

@[simp] theorem size_cut (tree : Tree) (x : NodeId) : (tree.cut x).size = tree.size := size_modify ..

theorem link?_cut (tree : Tree) (x p : NodeId) (l : Link) :
    (tree.cut x).link? p l = if p = x then none else tree.link? p l := by
  by_cases hp : p = x
  · subst hp
    by_cases hs : p < tree.size
    · cases l <;> simp [cut, link?, child?, node_modify, hs]
    · simpa using link?_of_size_le (by simpa using hs)
  · have hn : (tree.cut x).node p = tree.node p := by simp [cut, node_modify, hp]
    rw [link?_congr hn]
    simp [hp]

theorem cut_grows (h : tree.Linked) (x : NodeId) : Grows x tree (tree.cut x) where
  size_le := by simp
  linked := by
    have hl {p l c} : (tree.cut x).link? p l = some c → tree.link? p l = some c := by
      rw [link?_cut]
      split <;> simp
    exact ⟨fun hp => h.later (hl hp), fun hp => by simpa using h.made (hl hp),
      fun hp hp' => h.once (hl hp) (hl hp'), sorted_modify h.sorted fun _ _ => .nil⟩
  old := fun _ hp => by
    rw [link?_cut] at hp
    split at hp
    · simp at hp
    · exact hp
  kept := fun {y} hy hs => by
    have hne : y ≠ x := fun he => hs (he ▸ tree.onSpine_refl _)
    simp [cut, node_modify, hne]

theorem said_cut (tree : Tree) (x : NodeId) : (tree.cut x).said x = (tree.said x).here := by
  funext links
  cases links with
  | nil =>
    simp only [said_nil, cut, node_modify, Notes.here]
    split <;> rfl
  | cons l links => simp [said_cons, link?_cut, Notes.here]

end Tree

end CrdForge.Extension
