import CrdForge.Crd.Schema
import CrdForge.Proofs.Extension.Links

/-! The places of a schema.

Annotations know of properties and items only. `Stands` says which nodes of a schema a chain of such links
leads to: branches are entered without a link, since they share the place of the schema that they belong to,
so one chain may lead to several nodes. -/
namespace CrdForge.Crd

open Extension (Link)

namespace Schema

/-- The schema of properties that are not listed. -/
def additionalSchema? (schema : Schema) : Option Schema :=
  match schema.additional with
  | some (.schema additional) => some additional
  | _ => none

/-- The schemas that share the place of a schema. -/
def branches (schema : Schema) : List Schema :=
  schema.allOf ++ schema.oneOf ++ schema.anyOf ++ schema.not.toList ++ schema.additionalSchema?.toList

/-- A node at the end of a chain of links. -/
inductive Stands : Schema → List Link → Schema → Prop
  | here (schema : Schema) : Stands schema [] schema
  | property {schema property node : Schema} {name : String} {links : List Link} :
    schema.properties.lookup name = some property → Stands property links node →
      Stands schema (.property name :: links) node
  | items {schema items node : Schema} {links : List Link} :
    schema.items = some items → Stands items links node → Stands schema (.items :: links) node
  | branch {schema branch node : Schema} {links : List Link} :
    branch ∈ schema.branches → Stands branch links node → Stands schema links node

/-- Whether a chain of links leads to a node. -/
def Leads (schema : Schema) (links : List Link) : Prop := ∃ node, Stands schema links node

variable {schema other node : Schema} {links : List Link}

/-- The name that a property asks for says nothing of its places. -/
theorem Stands.unnamed (h : Stands { schema with id := none } links node) :
    ∃ place, Stands schema links place ∧ place.properties = node.properties := by
  generalize hs : { schema with id := none } = unnamed at h
  cases h with
  | here => exact ⟨schema, .here schema, by rw [← hs]⟩
  | property hp h => exact ⟨node, .property (by rw [← hp, ← hs]) h, rfl⟩
  | items hi h => exact ⟨node, .items (by rw [← hi, ← hs]) h, rfl⟩
  | branch hb h => exact ⟨node, .branch (by rw [← hs] at hb; exact hb) h, rfl⟩

/-- A chain of links does not go on from a node that nests nothing. -/
theorem Stands.end_of_leaf (hp : schema.properties = []) (hi : schema.items = none)
    (hb : schema.branches = []) (h : Stands schema links node) : node = schema := by
  cases h with
  | here => rfl
  | property h => simp [hp] at h
  | items h => simp [hi] at h
  | branch h => simp [hb] at h

theorem leads_nil (schema : Schema) : schema.Leads [] := ⟨schema, .here schema⟩

/-- Only properties, items and branches matter to where chains lead. -/
theorem Leads.congr (h : schema.Leads links) (hp : other.properties = schema.properties)
    (hi : other.items = schema.items) (hb : other.branches = schema.branches) : other.Leads links := by
  obtain ⟨node, h⟩ := h
  cases h with
  | here => exact leads_nil other
  | property hl h => exact ⟨node, .property (hp ▸ hl) h⟩
  | items hl h => exact ⟨node, .items (hi ▸ hl) h⟩
  | branch hm h => exact ⟨node, .branch (hb ▸ hm) h⟩

theorem Leads.property {name : String} (hp : schema.properties.lookup name = some other)
    (h : other.Leads links) :
    schema.Leads (.property name :: links) := h.imp fun _ h => .property hp h

theorem Leads.items (hi : schema.items = some other) (h : other.Leads links) :
    schema.Leads (.items :: links) :=
  h.imp fun _ h => .items hi h

theorem Leads.branch (hb : other ∈ schema.branches) (h : other.Leads links) : schema.Leads links :=
  h.imp fun _ h => .branch hb h

/-! ### Where chains end -/

/-- The schema that a link leads to from a schema itself. -/
def below? (schema : Schema) : Link → Option Schema
  | .property name => schema.properties.lookup name
  | .items => schema.items

/-- Whether a chain meets no branches and leaves the schema. -/
def astray : Schema → List Link → Bool
  | _, [] => false
  | schema, link :: rest => schema.branches.isEmpty &&
    match schema.below? link with
    | some below => below.astray rest
    | none => true

theorem not_leads_of_astray (h : schema.astray links = true) : ¬ schema.Leads links := by
  induction links generalizing schema with
  | nil => cases h
  | cons link rest ih =>
    rw [astray, Bool.and_eq_true, List.isEmpty_iff] at h
    obtain ⟨hb, hl⟩ := h
    have hbelow {other : Schema} (hother : schema.below? link = some other) : ¬ other.Leads rest := by
      rw [hother] at hl
      exact ih hl
    rintro ⟨node, hs⟩
    cases hs with
    | property hp hs => exact hbelow hp ⟨node, hs⟩
    | items hi hs => exact hbelow hi ⟨node, hs⟩
    | branch hm hs =>
      rw [hb] at hm
      cases hm

/-! ### Schemas with the same places -/

/-- Whether a schema has all places of another one, but for what is below some of its properties. -/
structure Covers (names : List String) (schema other : Schema) : Prop where
  items : schema.items = other.items
  branches : schema.branches = other.branches
  properties : ∀ name, name ∉ names → schema.properties.lookup name = other.properties.lookup name
  listed : ∀ name ∈ names, (schema.properties.lookup name).isSome = true

namespace Covers
variable {names more : List String} {middle : Schema}

theorem of_eq (hp : schema.properties = other.properties) (hi : schema.items = other.items)
    (hb : schema.branches = other.branches) : Covers [] schema other :=
  ⟨hi, hb, fun _ _ => by rw [hp], fun _ h => absurd h List.not_mem_nil⟩

theorem refl (schema : Schema) : Covers [] schema schema := of_eq rfl rfl rfl

theorem trans (h : Covers names schema middle) (h' : Covers more middle other) :
    Covers (names ++ more) schema other where
  items := h.items.trans h'.items
  branches := h.branches.trans h'.branches
  properties name hn := by
    rw [List.mem_append, not_or] at hn
    rw [h.properties name hn.1, h'.properties name hn.2]
  listed name hn := by
    by_cases hm : name ∈ names
    · exact h.listed name hm
    · rw [h.properties name hm]
      exact h'.listed name ((List.mem_append.mp hn).resolve_left hm)

theorem congr (h : Covers names schema other) (hm : ∀ name, name ∈ more ↔ name ∈ names) :
    Covers more schema other :=
  ⟨h.items, h.branches, fun name hn => h.properties name fun hc => hn ((hm name).mpr hc),
    fun name hn => h.listed name ((hm name).mp hn)⟩

/-- Where a chain leads in one schema it leads in the other, unless it goes on below a property that is not
the same. -/
theorem leads (h : Covers names schema other) (hl : other.Leads links) :
    schema.Leads links ∨ ∃ name ∈ names, ∃ rest, rest ≠ [] ∧ links = .property name :: rest := by
  obtain ⟨node, hl⟩ := hl
  cases hl with
  | here => exact .inl (leads_nil schema)
  | items hi hl => exact .inl ⟨node, .items (h.items.trans hi) hl⟩
  | branch hb hl => exact .inl ⟨node, .branch (h.branches ▸ hb) hl⟩
  | @property _ _ _ name rest hp hl =>
    by_cases hn : name ∈ names
    · by_cases hr : rest = []
      · obtain ⟨listed, hs⟩ := Option.isSome_iff_exists.mp (h.listed name hn)
        exact .inl (hr ▸ .property hs (leads_nil listed))
      · exact .inr ⟨name, hn, rest, hr, rfl⟩
    · exact .inl ⟨node, .property ((h.properties name hn).trans hp) hl⟩

theorem leads_of_nil (h : Covers [] schema other) (hl : other.Leads links) : schema.Leads links :=
  (h.leads hl).resolve_right fun ⟨_, hn, _⟩ => absurd hn List.not_mem_nil

end Covers

end Schema

end CrdForge.Crd
