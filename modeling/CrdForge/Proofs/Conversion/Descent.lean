import CrdForge.Proofs.Conversion.Validity
import CrdForge.Proofs.Crd.Nesting

/-! Where the nodes of a converted schema come from.

Whatever plugins a chain has, and in whatever order, what a converted schema nests are conversions of
what its source nests, and a few strings that no schema of the API stands behind: the discriminator of a
union, and the name and the key of a reference to a secret (`sourceShape_inherits`). What plugins make of
a node has no rules, and says nothing about unknown fields; that is left to the last steps. -/
namespace CrdForge.Conversion

open OpenApi.Schema (mem_nested_of_items mem_nested_of_property mem_nested_of_additional
  mem_nested_of_not allOf_subset_nested anyOf_subset_nested oneOf_subset_nested)

/-- The strings that no schema of the API is converted to. -/
inductive Synthetic : Crd.Schema → Prop
  | discriminator (options : List String) : Synthetic (discriminator options)
  | secret {leaf : String} {description : Option String} {name : String} {property : Crd.Schema} :
    (name, property) ∈ (secretReference leaf description).properties → Synthetic property

theorem Synthetic.string {node : Crd.Schema} (h : Synthetic node) : ∃ description default enumeration,
    node = { Crd.Schema.string description with default := default, enumeration := enumeration } := by
  cases h with
  | discriminator options => exact ⟨_, none, options.map .string, rfl⟩
  | secret hm =>
    rcases Keyed.mem_insert hm with he | hm
    · cases he
      exact ⟨_, _, [], rfl⟩
    · rcases Keyed.mem_insert hm with he | hm
      · cases he
        exact ⟨_, none, [], rfl⟩
      · cases hm

/-- A node that is the conversion of what a source nests, listed or not, or synthetic. -/
inductive Descends (shape : Shape) (source : OpenApi.Schema) : Crd.Schema → Prop
  | synthetic {inner : Crd.Schema} : Synthetic inner → Descends shape source inner
  | converted {schema : OpenApi.Schema} {path : List String} {result : Crd.Schema} :
    schema ∈ source.nested → shape schema path = some result → Descends shape source result
  | listed {schema : OpenApi.Schema} {path : List String} {result : Crd.Schema} :
    schema ∈ source.nested → shape schema path = some result →
      Descends shape source { result with id := none }

/-- A node of which everything nested descends from a source. -/
def Inherits (shape : Shape) (source : OpenApi.Schema) (schema : Crd.Schema) : Prop :=
  ∀ inner ∈ schema.nested, Descends shape source inner

section
variable {shape : Shape} {path : List String} {source : OpenApi.Schema} {schema kept : Crd.Schema}

/-! ### Parts -/

theorem Descends.of_branchShapes {branches : List OpenApi.Schema} {branch : Crd.Schema}
    (hb : branch ∈ branchShapes shape path branches) (hn : branches ⊆ source.nested) :
    Descends shape source branch := by
  obtain ⟨schema, hm, hs⟩ := mem_branchShapes hb
  exact .converted (hn hm) hs

theorem Descends.of_propertyShapes {name : String} {listed : Crd.Schema}
    (hm : (name, listed) ∈ (propertyShapes shape path {} source.properties).properties) :
    Descends shape source listed := by
  have hsorted : Keyed.Sorted (propertyShapes shape path {} source.properties).properties :=
    propertyShapes_sorted .nil
  rcases propertyShapes_lookup (hsorted.lookup_of_mem hm) with hf | ⟨key, schema, converted, hp, hc, -, rfl⟩
  · cases hf
  · exact .listed (mem_nested_of_property hp) hc

theorem partShapes_inherits : Inherits shape source (partShapes shape path source).1 := by
  intro inner hi
  simp only [partShapes, Crd.Schema.nested, Crd.Schema.branches, List.mem_append, List.mem_map,
    Option.mem_toList] at hi
  rcases hi with (⟨⟨name, listed⟩, hm, rfl⟩ | hi) | (((hb | hb) | hb) | hn) | ha
  · exact .of_propertyShapes hm
  · obtain ⟨items, hm, hc⟩ := Option.bind_eq_some_iff.mp hi
    exact .converted (mem_nested_of_items hm) hc
  · exact .of_branchShapes hb allOf_subset_nested
  · split at hb
    · cases hb
    · exact .of_branchShapes hb oneOf_subset_nested
  · exact .of_branchShapes hb anyOf_subset_nested
  · obtain ⟨excluded, hm, hc⟩ := Option.bind_eq_some_iff.mp hn
    exact .converted (mem_nested_of_not hm) hc
  · obtain ⟨schema, hm, hc⟩ := mem_additionalShape rfl (Option.mem_toList.mpr ha)
    exact .converted (mem_nested_of_additional (Option.mem_toList.mp hm)) hc

/-! ### Plugins -/

theorem secretReference_inherits (leaf : String) (description : Option String) :
    Inherits shape source (secretReference leaf description) := by
  intro inner hi
  have hnested : (secretReference leaf description).nested =
      (secretReference leaf description).properties.map (·.2) :=
    (List.append_nil _).trans (List.append_nil _)
  obtain ⟨⟨name, property⟩, hm, rfl⟩ := List.mem_map.mp (hnested ▸ hi)
  exact .synthetic (.secret hm)

theorem outcome_inherits {site : Site} {plugins : List PropertyPlugin} (h : Inherits shape source schema)
    (ho : outcome site plugins schema = some kept) : Inherits shape source kept :=
  outcome_preserves (fun _ _ h => h)
    (fun leaf description _ => secretReference_inherits leaf description) h ho

/-- No plugin speaks of unknown fields. -/
theorem outcome_preserveUnknown {site : Site} {plugins : List PropertyPlugin}
    (h : schema.preserveUnknown = none) (ho : outcome site plugins schema = some kept) :
    kept.preserveUnknown = none :=
  outcome_preserves (P := (·.preserveUnknown = none)) (fun _ _ h => h) (fun _ _ _ => rfl) h ho

/-! ### Last steps -/

theorem Inherits.insert {name : String} {property : Crd.Schema} (h : Inherits shape source schema)
    (hp : Descends shape source property) : Inherits shape source (schema.insert name property) := by
  intro inner hi
  rcases Crd.Schema.mem_nested_insert hi with rfl | hi
  · exact hp
  · exact h inner hi

theorem Inherits.choose {branches : List Crd.Schema} (h : Inherits shape source schema)
    (hb : ∀ branch ∈ branches, Descends shape source branch) :
    Inherits shape source { schema with oneOf := branches } := by
  intro inner hi
  rcases Crd.Schema.mem_nested_oneOf hi with hi | hi
  · exact hb inner hi
  · exact h inner hi

theorem optionShapes_inherits {branches : List OpenApi.Schema} (h : Inherits shape source schema)
    (hn : branches ⊆ source.nested) :
    Inherits shape source (optionShapes shape path schema branches) := by
  induction branches generalizing schema with
  | nil => exact h
  | cons branch rest ih =>
    obtain ⟨hbranch, hrest⟩ := List.cons_subset.mp hn
    rw [optionShapes]
    split
    · exact ih h hrest
    · split
      · next hc => exact ih (h.insert (.converted hbranch hc)) hrest
      · exact ih h hrest

theorem unionShape_inherits (h : Inherits shape source schema) :
    Inherits shape source (unionShape shape path source schema) := by
  rw [unionShape]
  split
  · have hbare : Inherits shape source (bareUnion source schema) := by
      have hnone : Inherits shape source { schema with oneOf := [] } := h.choose (by simp)
      exact hnone
    exact (optionShapes_inherits hbare oneOf_subset_nested).insert (.synthetic (.discriminator _))
  · split
    · exact h.choose fun branch hb => .of_branchShapes hb oneOf_subset_nested
    · exact h

end

/-! ### Whole schemas -/

section
variable {setting : Setting} {shape : Shape} {path : List String} {source : OpenApi.Schema}
  {result : Crd.Schema}

/-- What is made of a source: the last steps make it of what plugins keep. -/
theorem sourceShape_last (h : sourceShape setting shape path source = some result) :
    ∃ renames kept, Bare kept ∧ kept.preserveUnknown = none ∧ Inherits shape source kept ∧
      result = reconcileRequired renames (unionShape shape path source (settle source kept)) := by
  obtain ⟨kept, ho, rfl⟩ := Option.map_eq_some_iff.mp h
  exact ⟨_, kept, bare_of_outcome ⟨rfl, rfl⟩ ho, outcome_preserveUnknown rfl ho,
    outcome_inherits partShapes_inherits ho, rfl⟩

/-- **A converted schema nests conversions of what its source nests, and
strings that no schema stands behind.** -/
theorem sourceShape_inherits (h : sourceShape setting shape path source = some result) :
    Inherits shape source result := by
  obtain ⟨renames, kept, -, -, hi, rfl⟩ := sourceShape_last h
  have hsettled : Inherits shape source (settle source kept) := hi
  exact unionShape_inherits hsettled

end

end CrdForge.Conversion
