import CrdForge.Proofs.Conversion.Shape
import CrdForge.Proofs.Extension.Notes

/-! What conversions say beside the schema.

A conversion writes its annotations to a tree in which branches of a schema share a node, properties are
linked once it is known that they stay, and nodes of items are linked before. `notesWithin` says what that
comes to, as a change of the notes from the node on and without a tree: a property that is listed takes the
place of what was said under its name, branches add to what is there, and a reference to a secret conceals
what was said below it. `convertWithin_tells` is the main statement. -/
namespace CrdForge.Conversion

open Extension (NodeId Tree Notes)

/-- What is made of the notes from a node on by the conversion of a schema at a path. -/
abbrev Telling := OpenApi.Schema → List String → Notes → Notes

/-- Says of the site that it refers to a secret, and nothing else. -/
def Site.concealNotes (site : Site) (notes : Notes) : Notes :=
  (notes.here.annotate Extension.clusterMapping secretMapping).annotate Extension.apiMapping
    (secretOrigin site)

/-! ### Parts of a schema -/

section Parts
variable (shape : Shape) (tell : Telling) (path : List String)

def optionNotes (schema : Option OpenApi.Schema) (notes : Notes) : Notes :=
  match schema with
  | some schema => tell schema path notes
  | none => notes

def branchNotes (branches : List OpenApi.Schema) (notes : Notes) : Notes :=
  branches.foldl (fun notes branch => tell branch path notes) notes

def itemsNotes (items : Option OpenApi.Schema) (notes : Notes) : Notes :=
  match items with
  | some items => notes.onItems (tell items (path ++ [Path.wildcard]))
  | none => notes

def propertyNotes (notes : Notes) : List (String × OpenApi.Schema) → Notes
  | [] => notes
  | (key, schema) :: rest =>
    match shape schema (path ++ [key]) with
    | some converted =>
      propertyNotes (notes.attach (converted.id.getD key) (tell schema (path ++ [key]) .none)) rest
    | none => propertyNotes notes rest

def optionsNotes (notes : Notes) : List OpenApi.Schema → Notes
  | [] => notes
  | branch :: rest =>
    match branch.reference with
    | none => optionsNotes notes rest
    | some reference =>
      match shape branch (path ++ [optionName reference]) with
      | some _ =>
        optionsNotes
          (notes.attach (optionName reference) (tell branch (path ++ [optionName reference]) .none))
          rest
      | none => optionsNotes notes rest

/-! ### Whole schemas -/

def partNotes (source : OpenApi.Schema) (notes : Notes) : Notes :=
  let notes := itemsNotes tell path source.items notes
  let notes := branchNotes tell path source.allOf notes
  let notes := branchNotes tell path source.anyOf notes
  let notes := if isUnion source then notes else branchNotes tell path source.oneOf notes
  let notes := propertyNotes shape tell path notes source.properties
  let notes := optionNotes tell path source.not notes
  optionNotes tell path source.additionalSchema notes

def unionNotes (source : OpenApi.Schema) (schema : Crd.Schema) (notes : Notes) : Notes :=
  if isTagged source schema then optionsNotes shape tell path notes source.oneOf
  else if isUnion source then branchNotes tell path source.oneOf notes
  else notes

def sourceNotes (setting : Setting) (source : OpenApi.Schema) (notes : Notes) : Notes :=
  let site := setting.site source path
  let told := concealing site site.concealNotes setting.plugins (partNotes shape tell path source notes)
  match outcome site setting.plugins (partShapes shape path source).1 with
  | some kept => unionNotes shape tell path source (settle source kept) told
  | none => told

end Parts

/-- What a conversion says, with no more schemas nested in each other than the second argument says. -/
def notesWithin (setting : Setting) : Nat → Telling
  | 0, _, _, notes => notes
  | depth + 1, schema, path, notes =>
    match setting.document.resolve schema with
    | some source =>
      sourceNotes (shapeWithin setting depth) (notesWithin setting depth) (rooted path) setting source notes
    | none => notes

/-! ### Steps that write notes -/

/-- A step at a node stays below it, and these are the notes afterwards. -/
structure Writes (x : NodeId) (tree after : Tree) (notes : Notes) : Prop where
  grows : Tree.Grows x tree after
  said : after.said x = notes

namespace Writes
variable {x : NodeId} {tree middle after : Tree} {first notes : Notes}

theorem refl (h : tree.Linked) (x : NodeId) : Writes x tree tree (tree.said x) := ⟨.refl h x, rfl⟩

theorem trans (h : Writes x tree middle first) (h' : Writes x middle after notes) :
    Writes x tree after notes := ⟨h.grows.trans h'.grows, h'.said⟩

theorem linked (h : Writes x tree after notes) : after.Linked := h.grows.linked

theorem made (h : Writes x tree after notes) (hx : x < tree.size) : x < after.size :=
  Nat.lt_of_lt_of_le hx h.grows.size_le

end Writes

theorem conceal_writes (site : Site) {tree : Tree} (h : tree.Linked) (hx : site.node < tree.size) :
    Writes site.node tree (site.conceal tree) (site.concealNotes (tree.said site.node)) := by
  have hc := Tree.cut_grows h site.node
  have ha := Tree.annotate_grows hc.linked site.node Extension.clusterMapping secretMapping
  have hb := Tree.annotate_grows ha.linked site.node Extension.apiMapping (secretOrigin site)
  refine ⟨(hc.trans ha).trans hb, ?_⟩
  show (((tree.cut site.node).annotate site.node Extension.clusterMapping secretMapping).annotate site.node
    Extension.apiMapping (secretOrigin site)).said site.node = _
  rw [Tree.said_annotate ha.linked (by simpa using hx), Tree.said_annotate hc.linked (by simpa using hx),
    Tree.said_cut]
  rfl

theorem concealing_writes (site : Site) (plugins : List PropertyPlugin) {tree : Tree} (h : tree.Linked)
    (hx : site.node < tree.size) :
    Writes site.node tree (concealing site site.conceal plugins tree)
      (concealing site site.concealNotes plugins (tree.said site.node)) := by
  induction plugins generalizing tree with
  | nil => exact .refl h _
  | cons plugin rest ih =>
    simp only [concealing]
    have hp : Writes site.node tree (if plugin.conceals site then site.conceal tree else tree)
        (if plugin.conceals site then site.concealNotes (tree.said site.node) else tree.said site.node) := by
      split
      · exact conceal_writes site h hx
      · exact .refl h _
    split
    · exact hp
    · exact hp.trans (hp.said ▸ ih hp.linked (hp.made hx))

/-- The node at which annotations are written does not matter to whether they are concealed. -/
theorem concealing_site {σ : Type} (setting : Setting) (source : OpenApi.Schema) (path : List String)
    (node : NodeId) (conceal : σ → σ) (plugins : List PropertyPlugin) (said : σ) :
    concealing (setting.site source path node) conceal plugins said =
      concealing (setting.site source path) conceal plugins said := by
  induction plugins generalizing said with
  | nil => rfl
  | cons plugin rest ih =>
    simp only [concealing, ih]
    cases plugin <;> rfl

/-! ### Conversions write what they tell -/

/-- The conversion of every schema writes what is told of it to the node of its place. -/
def Tells (convert : Converter) (tell : Telling) : Prop :=
  ∀ (place : Place) (tree : Tree), tree.Linked → place.node < tree.size →
    Writes place.node tree (convert place tree).2
      ((place.schema.map fun schema => tell schema place.path (tree.said place.node)).getD
        (tree.said place.node))

namespace Tells
variable {convert : Converter} {shape : Shape} {tell : Telling} (ha : Answers convert shape)
  (h : Tells convert tell) {tree : Tree} (ht : tree.Linked)
include h ht

theorem below (place : Place) (schema : OpenApi.Schema) (node : NodeId) (segment : Option String)
    (hx : node < tree.size) :
    Writes node tree (convert (place.below schema node segment) tree).2
      (tell schema (place.path ++ segment.toList) (tree.said node)) :=
  h (place.below schema node segment) tree ht hx

variable (place : Place) (hx : place.node < tree.size)
include hx

theorem option (schema : Option OpenApi.Schema) :
    Writes place.node tree (convertOption convert place schema tree).2
      (optionNotes tell place.path schema (tree.said place.node)) := by
  cases schema with
  | none => exact .refl ht _
  | some schema => simpa [convertOption, optionNotes] using h.below ht place schema place.node none hx

theorem branches (branches : List OpenApi.Schema) :
    Writes place.node tree (convertBranches convert place branches tree).2
      (branchNotes tell place.path branches (tree.said place.node)) := by
  induction branches generalizing tree with
  | nil => exact .refl ht _
  | cons branch rest ih =>
    have hb := h.below ht place branch place.node none hx
    simp only [Option.toList_none, List.append_nil] at hb
    have hr := ih hb.linked (hb.made hx)
    rw [hb.said] at hr
    exact hb.trans hr

theorem items (items : Option OpenApi.Schema) :
    Writes place.node tree (convertItems convert place items tree).2
      (itemsNotes tell place.path items (tree.said place.node)) := by
  cases items with
  | none => exact .refl ht _
  | some items =>
    obtain ⟨hl, hg, hs⟩ := Tree.items_spec ht hx
    have hm := hg.linked.made hl
    have hb := h.below hg.linked place items (tree.items place.node).1 (some Path.wildcard) hm
    have hn := hb.grows.said_of_items hg.linked hl
    refine ⟨hg.trans (hb.grows.of_items hl), ?_⟩
    rw [convertItems, bind_apply, modifyGet_apply, hn, hb.said, hs]
    funext links
    cases links with
    | nil => rfl
    | cons link links =>
      cases link with
      | property => rfl
      | items =>
        have hb : ((tree.items place.node).2.said (tree.items place.node).1) =
            fun links => tree.said place.node (.items :: links) := by
          rw [← hs]
          funext links
          simp [Tree.said_cons, hl]
        simp only [Notes.onItems, itemsNotes, hb, Option.toList_some]

theorem additional (additional : Option OpenApi.Schema) :
    Writes place.node tree (convertAdditional convert place additional tree).2
      (optionNotes tell place.path additional (tree.said place.node)) := by
  cases additional with
  | none => exact .refl ht _
  | some additional =>
    have hb := h.below ht place additional place.node none hx
    simp only [Option.toList_none, List.append_nil] at hb
    simp only [convertAdditional, bind_apply, optionNotes]
    generalize convert (place.below additional place.node none) tree = result at hb ⊢
    cases result.1 <;> exact hb

/-- The branches of a schema that is no union, at their place among its parts. -/
theorem alternatives (source : OpenApi.Schema) :
    Writes place.node tree
      ((if isUnion source then pure [] else convertBranches convert place source.oneOf :
        Step (List Crd.Schema)) tree).2
      (if isUnion source then tree.said place.node
        else branchNotes tell place.path source.oneOf (tree.said place.node)) := by
  split
  · exact .refl ht _
  · exact h.branches ht place hx source.oneOf

include ha

theorem properties (found : Properties) (properties : List (String × OpenApi.Schema)) :
    Writes place.node tree (convertProperties convert place found properties tree).2
      (propertyNotes shape tell place.path (tree.said place.node) properties) := by
  induction properties generalizing found tree with
  | nil => exact .refl ht _
  | cons property rest ih =>
    obtain ⟨key, schema⟩ := property
    have hm : tree.size < tree.alloc.2.size := by simp
    have hb := h.below (Tree.alloc_grows ht 0).linked place schema tree.size (some key) hm
    have hr := ha.below place schema tree.size (some key) tree.alloc.2
    simp only [Option.toList_some] at hb hr
    simp only [convertProperties, bind_apply, modifyGet_apply, Tree.alloc_fst, propertyNotes, ← hr]
    rw [Tree.said_alloc, Tree.said_of_size_le (Nat.le_refl _)] at hb
    generalize convert (place.below schema tree.size (some key)) tree.alloc.2 = result at hb ⊢
    obtain ⟨converted, after⟩ := result
    cases converted with
    | none =>
      have ho : Writes place.node tree after (tree.said place.node) :=
        ⟨hb.grows.of_made ht _, hb.grows.said_of_made ht hx⟩
      have hn := ih ho.linked (ho.made hx) found
      rw [ho.said] at hn
      exact ho.trans hn
    | some converted =>
      have ho : Writes place.node tree (after.attach place.node (converted.id.getD key) tree.size)
          ((tree.said place.node).attach (converted.id.getD key) (tell schema (place.path ++ [key]) .none)) :=
        ⟨hb.grows.attach ht hx _, by rw [hb.grows.said_attach ht hx, hb.said]⟩
      have hn := ih ho.linked (ho.made hx) (found.list key converted)
      rw [ho.said] at hn
      exact ho.trans hn

theorem options (schema : Crd.Schema) (branches : List OpenApi.Schema) :
    Writes place.node tree (convertOptions convert place schema branches tree).2
      (optionsNotes shape tell place.path (tree.said place.node) branches) := by
  induction branches generalizing schema tree with
  | nil => exact .refl ht _
  | cons branch rest ih =>
    simp only [convertOptions, optionsNotes]
    cases branch.reference with
    | none => exact ih ht hx schema
    | some reference =>
      have hm : tree.size < tree.alloc.2.size := by simp
      have hb := h.below (Tree.alloc_grows ht 0).linked place branch tree.size
        (some (optionName reference)) hm
      have hr := ha.below place branch tree.size (some (optionName reference)) tree.alloc.2
      simp only [Option.toList_some] at hb hr
      simp only [bind_apply, modifyGet_apply, Tree.alloc_fst, ← hr]
      rw [Tree.said_alloc, Tree.said_of_size_le (Nat.le_refl _)] at hb
      simp only [optionName] at hb ⊢
      generalize convert (place.below branch tree.size (some _)) tree.alloc.2 = result at hb ⊢
      obtain ⟨converted, after⟩ := result
      cases converted with
      | none =>
        have ho : Writes place.node tree after (tree.said place.node) :=
          ⟨hb.grows.of_made ht _, hb.grows.said_of_made ht hx⟩
        have hn := ih ho.linked (ho.made hx) schema
        rw [ho.said] at hn
        exact ho.trans hn
      | some converted =>
        have ho : Writes place.node tree (after.attach place.node (optionName reference) tree.size)
            ((tree.said place.node).attach (optionName reference)
              (tell branch (place.path ++ [optionName reference]) .none)) :=
          ⟨hb.grows.attach ht hx _, by rw [hb.grows.said_attach ht hx, hb.said]; rfl⟩
        have hn := ih ho.linked (ho.made hx) (schema.insert (optionName reference) converted)
        rw [ho.said] at hn
        exact ho.trans hn

theorem union (source : OpenApi.Schema) (schema : Crd.Schema) :
    Writes place.node tree (convertUnion convert place source schema tree).2
      (unionNotes shape tell place.path source schema (tree.said place.node)) := by
  by_cases hu : isUnion source = true
  · by_cases hi : (schema.properties.isEmpty && schema.additional.isNone) = true
    · have hi' : isTagged source schema = true := by simp [isTagged, hu, hi]
      simp only [convertUnion, unionNotes, hu, hi, hi', Bool.not_true, Bool.false_eq_true, if_true, if_false]
      exact h.options ha ht place hx _ _
    · have hi' : isTagged source schema = false := by
        rw [isTagged, hu, Bool.true_and]
        exact Bool.eq_false_iff.mpr hi
      simp only [convertUnion, unionNotes, hu, hi, hi', Bool.not_true, Bool.false_eq_true, if_true, if_false]
      exact h.branches ht place hx _
  · have hi : isTagged source schema = false := by simp [isTagged, hu]
    simp only [convertUnion, unionNotes, hu, hi, Bool.false_eq_true, if_false]
    exact .refl ht _

theorem parts (source : OpenApi.Schema) :
    Writes place.node tree (convertParts convert place source tree).2
      (partNotes shape tell place.path source (tree.said place.node)) := by
  have h₁ := h.items ht place hx source.items
  have m₁ := h₁.made hx
  have h₂ := h.branches h₁.linked place m₁ source.allOf
  have m₂ := h₂.made m₁
  have h₃ := h.branches h₂.linked place m₂ source.anyOf
  have m₃ := h₃.made m₂
  have h₄ := h.alternatives h₃.linked place m₃ source
  have m₄ := h₄.made m₃
  have h₅ := h.properties ha h₄.linked place m₄ {} source.properties
  have m₅ := h₅.made m₄
  have h₆ := h.option h₅.linked place m₅ source.not
  have h₇ := h.additional h₆.linked place (h₆.made m₅) source.additionalSchema
  rw [h₁.said] at h₂
  rw [h₂.said] at h₃
  rw [h₃.said] at h₄
  rw [h₄.said] at h₅
  rw [h₅.said] at h₆
  rw [h₆.said] at h₇
  have hw := (((((h₁.trans h₂).trans h₃).trans h₄).trans h₅).trans h₆).trans h₇
  by_cases hu : isUnion source = true
  · simpa only [convertParts, partNotes, hu, bind_apply, pure_apply, if_true] using hw
  · simpa only [convertParts, partNotes, hu, Bool.false_eq_true, bind_apply, pure_apply, if_false] using hw

theorem source (setting : Setting) (source : OpenApi.Schema) :
    Writes place.node tree (convertSource setting convert place source tree).2
      (sourceNotes shape tell place.path setting source (tree.said place.node)) := by
  let site := setting.site source place.path place.node
  have hp := h.parts ha ht place hx source
  have hr := ha.parts place source tree
  have hm := hp.made hx
  simp only [convertSource, bind_apply, sourceNotes, ← hr]
  generalize convertParts convert place source tree = parts at hp hm ⊢
  obtain ⟨⟨schema, renames⟩, middle⟩ := parts
  have hc := concealing_writes site setting.plugins hp.linked hm
  rw [show site.node = place.node from rfl, hp.said] at hc
  have he : outcome site setting.plugins schema =
      outcome (setting.site source place.path) setting.plugins schema :=
    outcome_site setting source place.path place.node setting.plugins schema
  have hn : concealing site site.concealNotes setting.plugins
        (partNotes shape tell place.path source (tree.said place.node)) =
      concealing (setting.site source place.path)
        (setting.site source place.path).concealNotes setting.plugins
        (partNotes shape tell place.path source (tree.said place.node)) :=
    concealing_site setting source place.path place.node _ setting.plugins _
  simp only [applyAll_eq]
  rw [show (⟨setting.document, setting.filters, source, place.node, place.path⟩ : Site) = site from rfl, he]
  cases outcome (setting.site source place.path) setting.plugins schema with
  | none => exact hn ▸ hp.trans hc
  | some kept =>
    have hw := hp.trans hc
    have hu := h.union ha hw.linked place (hw.made hx) source (settle source kept)
    rw [hw.said, hn] at hu
    exact hw.trans hu

end Tells

/-- **What a conversion writes beside the schema does not depend on the rest of the tree.** -/
theorem convertWithin_tells (setting : Setting) (depth : Nat) :
    Tells (convertWithin setting depth) (notesWithin setting depth) := by
  induction depth with
  | zero =>
    intro place tree ht hx
    cases place.schema <;> exact .refl ht _
  | succ depth ih =>
    intro place tree ht hx
    simp only [convertWithin]
    cases hp : place.schema with
    | none => exact .refl ht _
    | some schema =>
      simp only [Option.bind_some, Option.map_some, Option.getD_some, notesWithin]
      cases setting.document.resolve schema with
      | none => exact .refl ht _
      | some source =>
        exact Tells.source (convertWithin_fst setting depth) ih ht
          ⟨some schema, place.node, rooted place.path⟩ hx
          setting source

end CrdForge.Conversion
