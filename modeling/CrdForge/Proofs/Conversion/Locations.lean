import CrdForge.Proofs.Path
import CrdForge.Proofs.Conversion.Secrets

/-! Which nodes a path stands for.

Filters and references name nodes by the texts of their paths. As long as names are plain, a text stands
for one path, so an entry of a filter is met at one path at most, a chain of links is told by the text of
its path, and what a reference stands in for is what its path leads to (`legible_paths_told`). -/
namespace CrdForge.Conversion

open Extension (Link Tree)
open CrdForge.Path (IsName Legible lastName?)

variable {path other : List String} {entry : String} {links others : List Link}

/-- Whether an entry of a filter names what stands at a path. -/
def Meets (entry : String) (path : List String) : Prop := entry = Path.render path

instance (entry : String) (path : List String) : Decidable (Meets entry path) :=
  inferInstanceAs (Decidable (entry = Path.render path))

theorem meets_unique (h : Legible path) (ho : Legible other) (hm : Meets entry path)
    (hm' : Meets entry other) :
    path = other :=
  Path.render_injOn h ho (hm.symm.trans hm')

/-! ### Entries of filters -/

/-- A node is skipped where an entry is met. -/
theorem skipped_iff_meets (site : Site) (schema : Crd.Schema) (tree : Tree) :
    (PropertyPlugin.skipped.apply site schema tree).1 = none ↔
      ∃ entry ∈ site.filters.skipped, Meets entry site.path := by
  have hdrops := PropertyPlugin.skipped.outcome_isSome site schema
  rw [PropertyPlugin.apply_eq, ← Option.not_isSome_iff_eq_none, hdrops, Bool.not_eq_true, Bool.not_eq_false',
    PropertyPlugin.drops, List.contains_iff_mem]
  constructor
  · intro hm
    exact ⟨_, hm, rfl⟩
  · rintro ⟨_, hm, rfl⟩
    exact hm

/-- A reference to a secret takes the place of a node where an entry is met, -/
theorem sensitive_of_meets {site : Site} {leaf : String}
    (hm : ∃ entry ∈ site.filters.sensitive, Meets entry site.path) (hl : site.path.getLast? = some leaf)
    (schema : Crd.Schema) (tree : Tree) :
    (PropertyPlugin.sensitive.apply site schema tree).1 = some (secretReference leaf schema.description) := by
  obtain ⟨entry, hm, rfl⟩ := hm
  have hs : site.secret? = some leaf := by
    rw [Site.secret?, Site.location, if_pos (List.contains_iff_mem.mpr hm), hl]
  rw [PropertyPlugin.apply_eq, PropertyPlugin.outcome, hs]
  rfl

/-- and nothing is done to it where none is. -/
theorem sensitive_of_not_meets {site : Site} (hm : ¬ ∃ entry ∈ site.filters.sensitive, Meets entry site.path)
    (schema : Crd.Schema) (tree : Tree) :
    PropertyPlugin.sensitive.apply site schema tree = (some schema, tree) := by
  have hs : site.secret? = none := by
    rw [Site.secret?, Site.location, if_neg]
    intro hc
    exact hm ⟨_, List.contains_iff_mem.mp hc, rfl⟩
  rw [PropertyPlugin.apply_eq, PropertyPlugin.outcome, PropertyPlugin.conceals, hs]
  rfl

/-! ### Chains of links -/

/-- Whether a chain goes along plain names. -/
def LegibleLinks (links : List Link) : Prop := ∀ name, .property name ∈ links → IsName name

theorem LegibleLinks.legible (h : LegibleLinks links) : Legible (Path.root :: links.map linkSegment) := by
  refine ⟨_, rfl, ?_⟩
  intro segment hs
  obtain ⟨link, hl, rfl⟩ := List.mem_map.mp hs
  cases link with
  | property name => exact .inr (h name hl)
  | items => exact .inl rfl

/-- The link that a segment of a plain path stands for. -/
def segmentLink (segment : String) : Link := if segment = Path.wildcard then .items else .property segment

theorem LegibleLinks.of_segments (h : LegibleLinks links) :
    (links.map linkSegment).map segmentLink = links := by
  rw [List.map_map]
  conv => rhs; rw [← List.map_id links]
  apply List.map_congr_left
  intro link hl
  cases link with
  | property name => exact if_neg (h name hl).ne_wildcard
  | items => rfl

theorem LegibleLinks.meets_unique (h : LegibleLinks links) (ho : LegibleLinks others)
    (hm : Meets entry (Path.root :: links.map linkSegment))
    (hm' : Meets entry (Path.root :: others.map linkSegment)) :
    links = others := by
  have hpaths := Conversion.meets_unique h.legible ho.legible hm hm'
  rw [List.cons.injEq] at hpaths
  rw [← h.of_segments, ← ho.of_segments, hpaths.2]

/-! ### All of it -/

/-- **A path of plain names is told by its text.** The last name of the text is that of the path. So an
entry of a filter is met at one path at most, and at the end of one chain of links, which is all that
plugins look at; and a reference stands in for the property that its path leads to. -/
theorem legible_paths_told :
    Set.InjOn Path.render {path | Legible path} ∧
    (∀ path, Legible path → lastName? path = some (Path.leaf (Path.render path))) ∧
    (∀ entry, {path | Legible path ∧ Meets entry path}.Subsingleton ∧
      {links | LegibleLinks links ∧ Meets entry (Path.root :: links.map linkSegment)}.Subsingleton) ∧
    (∀ (site : Site) (schema : Crd.Schema) (tree : Tree),
      ((PropertyPlugin.skipped.apply site schema tree).1 = none ↔
        ∃ entry ∈ site.filters.skipped, Meets entry site.path) ∧
      ((∃ entry ∈ site.filters.sensitive, Meets entry site.path) → ∀ leaf, site.path.getLast? = some leaf →
        (PropertyPlugin.sensitive.apply site schema tree).1 =
          some (secretReference leaf schema.description)) ∧
      ((¬ ∃ entry ∈ site.filters.sensitive, Meets entry site.path) →
        PropertyPlugin.sensitive.apply site schema tree = (some schema, tree))) ∧
    ∀ (reference : Config.Reference) (path : List String), Legible path → Meets reference.property path →
      lastName? path = some reference.leaf := by
  refine ⟨Path.render_injOn, fun path h => Path.leaf_render h, ?_, ?_, ?_⟩
  · intro entry
    constructor
    · intro path h other ho
      exact meets_unique h.1 ho.1 h.2 ho.2
    · intro links h others ho
      exact h.1.meets_unique ho.1 h.2 ho.2
  · intro site schema tree
    refine ⟨skipped_iff_meets site schema tree, ?_, ?_⟩
    · intro hm leaf hl
      exact sensitive_of_meets hm hl schema tree
    · intro hm
      exact sensitive_of_not_meets hm schema tree
  · intro reference path h hm
    rw [Path.leaf_render h, Config.Reference.leaf, hm]

/-- A node at a path, with one sensitive path. -/
def linkSite (path : List String) : Site :=
  ⟨{}, { sensitive := ["$.links[*].href"] }, {}, Tree.root, path⟩

/-- A reference that stands in for the items of the items of a property. -/
def matrixReference : Config.Reference where
  name := "matrixRef"
  property := "$.matrix[*][*]"
  target := { type := { kind := "Matrix", version := "v1", resource := "matrices" } }

theorem links_told :
    (∀ path, Legible path → Meets "$.links[*].href" path → path = ["$", "links", "[*]", "href"]) ∧
    (PropertyPlugin.sensitive.apply (linkSite ["$", "links", "[*]", "href"]) {} Tree.empty).1 =
      some (secretReference "href" none) ∧
    PropertyPlugin.sensitive.apply (linkSite ["$", "links", "[*]"]) {} Tree.empty = (some {}, Tree.empty) ∧
    lastName? ["$", "matrix", "[*]", "[*]"] = some matrixReference.leaf := by
  obtain ⟨-, -, hunique, hplugins, hreference⟩ := legible_paths_told
  have hlink : Legible ["$", "links", "[*]", "href"] := ⟨_, rfl, by decide⟩
  have hmatrix : Legible ["$", "matrix", "[*]", "[*]"] := ⟨_, rfl, by decide⟩
  refine ⟨?_, ?_, ?_, ?_⟩
  · intro path h hm
    exact (hunique "$.links[*].href").1 ⟨h, hm⟩ ⟨hlink, by decide⟩
  · exact (hplugins (linkSite _) {} Tree.empty).2.1 ⟨_, List.mem_singleton_self _, by decide⟩ "href" rfl
  · apply (hplugins (linkSite ["$", "links", "[*]"]) {} Tree.empty).2.2
    decide
  · exact hreference matrixReference _ hmatrix (by decide)

end CrdForge.Conversion
