import CrdForge.Proofs.Extension.Subtrees

/-! Edits of a tree at the end of a path.

Whatever a step does at a node, from the root it shows only from the end of the path to the node on:
`Edits` says so for each operation on annotations, and leaves open which node stands there. -/
namespace CrdForge.Extension

namespace Notes

theorem replace_append (notes below : Notes) (path rest links : List Link) :
    notes.replace below (path ++ rest) (path ++ links) = (notes.beyond path).replace below rest links := by
  induction path generalizing notes with
  | nil => rfl
  | cons link path ih =>
    rw [List.cons_append, List.cons_append, replace_cons, if_pos rfl]
    exact ih _

theorem replace_outside {path links : List Link} (notes below : Notes) (h : ¬ path <+: links) :
    notes.replace below path links = notes links := by
  induction path generalizing notes links with
  | nil => exact absurd (List.nil_prefix) h
  | cons link path ih =>
    cases links with
    | nil => rfl
    | cons other links =>
      rw [replace_cons]
      split
      · next he =>
        subst he
        exact ih _ fun hp => h (List.cons_prefix_cons.mpr ⟨rfl, hp⟩)
      · rfl

theorem replace_beyond (notes : Notes) (path : List Link) :
    notes.replace (notes.beyond path) path = notes := by
  induction path generalizing notes with
  | nil => rfl
  | cons link path ih =>
    funext links
    cases links with
    | nil => rfl
    | cons other links =>
      rw [replace_cons]
      split
      · next he =>
        subst he
        exact congrFun (ih fun links => notes (other :: links)) links
      · rfl

theorem beyond_append (notes : Notes) (path rest : List Link) :
    notes.beyond (path ++ rest) = (notes.beyond path).beyond rest := by
  funext links
  rw [beyond, beyond, beyond, List.append_assoc]

theorem replace_annotate (notes : Notes) (path : List Link) (name : String) (value : Json)
    (links : List Link) :
    notes.replace ((notes.beyond path).annotate name value) path links =
      if links = path then Keyed.insert name value (notes path) else notes links := by
  by_cases hp : path <+: links
  · obtain ⟨rest, rfl⟩ := hp
    have happend := notes.replace_append ((notes.beyond path).annotate name value) path [] rest
    rw [List.append_nil] at happend
    rw [happend]
    cases rest with
    | nil => simp [replace, annotate, beyond]
    | cons link rest => simp [replace, annotate, beyond]
  · rw [replace_outside _ _ hp, if_neg fun he : links = path => hp (he ▸ List.prefix_refl path)]

end Notes

namespace Tree
variable {tree after : Tree} {x y z : NodeId} {path : List Link}

/-- Whether a tree reads as one and has a root. -/
structure Sound (tree : Tree) : Prop where
  linked : tree.Linked
  made : root < tree.size

theorem empty_sound : empty.Sound := ⟨empty_linked, Nat.zero_lt_one⟩

theorem empty_said (x : NodeId) : empty.said x = Notes.none := by
  funext links
  cases links with
  | nil => rw [said_nil, empty_node, Notes.none]
  | cons link links =>
    have hl : empty.link? x link = none := by
      cases link <;> rw [link?] <;> simp [child?, empty_node]
    rw [said_cons, hl]
    rfl

/-- A step that changes notes from the end of a path on. -/
structure Edits (path : List Link) (tree after : Tree) (notes : Notes) : Prop where
  sound : after.Sound
  said : after.said root = (tree.said root).replace notes path

theorem Grows.edits (h : Grows x tree after) (ht : tree.Sound) (hx : tree.follow? root path = some x) :
    Edits path tree after (after.said x) :=
  ⟨⟨h.linked, Nat.lt_of_lt_of_le ht.made h.size_le⟩,
    h.said_above ht.linked (ht.linked.follow_made ht.made hx) hx⟩

/-- What leads to the node of a step leads there after it. -/
theorem Grows.keeps (h : Grows x tree after) (ht : tree.Sound) (hx : tree.follow? root path = some x)
    {before : List Link} (hb : before <+: path) (hz : tree.follow? root before = some z) :
    after.follow? root before = some z := by
  obtain ⟨rest, rfl⟩ := hb
  rw [follow?_append, hz] at hx
  refine h.follow?_above ht.linked ?_ (ht.linked.le_follow hx) hz
  exact ht.linked.follow_made (ht.linked.follow_made ht.made hz) hx

/-- To make the nodes of a path says nothing. -/
theorem descend_edits (h : tree.Sound) (names : List String) :
    Edits (names.map .property) tree (tree.descend root names).2
      ((tree.said root).beyond (names.map .property)) ∧
      (tree.descend root names).2.follow? root (names.map .property) = some (tree.descend root names).1 := by
  have hroot : tree.follow? root [] = some root := rfl
  obtain ⟨hend, -, hlinked, hmade, hsaid⟩ := descend_spec h.linked h.made hroot names
  exact ⟨⟨⟨hlinked, hmade⟩, hsaid.trans (Notes.replace_beyond _ _).symm⟩, hend⟩

theorem child_edits (h : tree.Sound) (hx : tree.follow? root path = some x) (name : String) :
    Edits path tree (tree.child x name).2 ((tree.said root).beyond path) ∧
      (tree.child x name).2.follow? root (path ++ [.property name]) = some (tree.child x name).1 ∧
      Grows x tree (tree.child x name).2 := by
  obtain ⟨hl, hg, hs⟩ := child_spec h.linked (h.linked.follow_made h.made hx) name
  have he := hg.edits h hx
  rw [hs, said_of_follow hx] at he
  exact ⟨he, follow?_snoc (hg.keeps h hx (List.prefix_refl _) hx) hl, hg⟩

theorem annotate_edits (h : tree.Sound) (hx : tree.follow? root path = some x)
    (name : String) (value : Json) :
    Edits path tree (tree.annotate x name value) (((tree.said root).beyond path).annotate name value) := by
  have he := (annotate_grows h.linked x name value).edits h hx
  rwa [said_annotate h.linked (h.linked.follow_made h.made hx), said_of_follow hx] at he

/-- To say something at the end of a path changes what is said there. -/
theorem annotate_spec (h : tree.Sound) (hx : tree.follow? root path = some x) (name : String) (value : Json) :
    (tree.annotate x name value).Sound ∧ (tree.annotate x name value).follow? root path = some x ∧
      ∀ links, (tree.annotate x name value).said root links =
        if links = path then Keyed.insert name value (tree.said root links) else tree.said root links := by
  have he := annotate_edits h hx name value
  refine ⟨he.sound, ?_, fun links => ?_⟩
  · exact (annotate_grows h.linked x name value).keeps h hx (List.prefix_refl _) hx
  · rw [he.said, Notes.replace_annotate]
    split
    · next hl => rw [hl]
    · rfl

end Tree

end CrdForge.Extension
