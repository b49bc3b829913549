import CrdForge.Proofs.Crd.Inspection
import CrdForge.Proofs.Crd.Places

/-! What holds of every node of a schema.

An inspection passes over the branches of a schema and over what it excludes. Here all nodes are looked
at, however they are nested, and edits of a schema are shown to keep what is `Structural` of each of
them: it has a type, a format that is known, rules that say something, and requires properties that it
lists, each of them once. -/
namespace CrdForge.Crd.Schema

/-! ### Nodes -/

/-- The schemas that a schema nests, in whatever way. -/
def nested (schema : Schema) : List Schema :=
  schema.properties.map (·.2) ++ schema.items.toList ++ schema.branches

inductive Nests : Schema → Schema → Prop
  | here (schema : Schema) : Nests schema schema
  | deeper {schema inner node : Schema} : inner ∈ schema.nested → Nests inner node → Nests schema node

/-- Whether something holds of a schema and of all that it nests. -/
def Everywhere (P : Schema → Prop) (schema : Schema) : Prop := ∀ node, schema.Nests node → P node

variable {P Q : Schema → Prop} {schema changed property node : Schema} {name : String}

theorem mem_nested_property (h : (name, property) ∈ schema.properties) : property ∈ schema.nested := by
  rw [nested, List.append_assoc]
  exact List.mem_append_left _ (List.mem_map_of_mem h)

theorem mem_nested_items (h : schema.items = some node) : node ∈ schema.nested := by
  simp [nested, h]

theorem mem_nested_branch (h : node ∈ schema.branches) : node ∈ schema.nested := List.mem_append_right _ h

theorem mem_branches_composed (h : node ∈ schema.composed) : node ∈ schema.branches := by
  rw [branches, List.append_assoc]
  exact List.mem_append_left _ h

theorem mem_branches_additional (h : schema.additional = some (.schema node)) : node ∈ schema.branches := by
  simp [branches, additionalSchema?, h]

theorem Nests.trans {schema middle node : Schema} (h : schema.Nests middle) (h' : middle.Nests node) :
    schema.Nests node := by
  induction h with
  | here => exact h'
  | deeper hi _ ih => exact .deeper hi (ih h')

/-- Of a schema with one more property nothing is new but the property. -/
theorem mem_nested_insert (h : node ∈ (schema.insert name property).nested) :
    node = property ∨ node ∈ schema.nested := by
  simp only [nested, insert, List.append_assoc, List.mem_append, List.mem_map] at h ⊢
  rcases h with ⟨⟨key, listed⟩, hm, rfl⟩ | h
  · rcases Keyed.mem_insert hm with he | hm
    · cases he
      exact .inl rfl
    · exact .inr (.inl ⟨_, hm, rfl⟩)
  · exact .inr (.inr h)

/-- Of a schema with other branches to choose one of nothing is new but the branches. -/
theorem mem_nested_oneOf {branches : List Schema}
    (h : node ∈ ({ schema with oneOf := branches } : Schema).nested) :
    node ∈ branches ∨ node ∈ schema.nested := by
  simp only [nested, Schema.branches, additionalSchema?, List.mem_append] at h ⊢
  tauto

/-- What is inspected is nested. -/
theorem Inspected.nests (h : schema.Inspected node) : schema.Nests node := by
  induction h with
  | here => exact .here _
  | property hm _ ih => exact .deeper (mem_nested_property hm) ih
  | items hi _ ih => exact .deeper (mem_nested_items hi) ih
  | additional ha _ ih => exact .deeper (mem_nested_branch (mem_branches_additional ha)) ih
  | branch hb hm _ ih =>
    exact .deeper (mem_nested_branch (mem_branches_composed hb)) (.deeper (mem_nested_property hm) ih)

namespace Everywhere

theorem self (h : schema.Everywhere P) : P schema := h schema (.here schema)

theorem mono (h : schema.Everywhere P) (hpq : ∀ node, P node → Q node) : schema.Everywhere Q :=
  fun node hn => hpq node (h node hn)

theorem below (h : schema.Everywhere P) (hi : node ∈ schema.nested) : node.Everywhere P :=
  fun _ hn => h _ (.deeper hi hn)

theorem of_nested (h : P schema) (hn : ∀ inner ∈ schema.nested, inner.Everywhere P) :
    schema.Everywhere P := by
  intro node hnode
  cases hnode with
  | here => exact h
  | deeper hi hnode => exact hn _ hi node hnode

/-- A schema that nests the same as another. -/
theorem change (h : schema.Everywhere P) (hc : P changed) (hn : changed.nested = schema.nested) :
    changed.Everywhere P := .of_nested hc fun _ hi => h.below (hn ▸ hi)

end Everywhere

/-! ### Structure -/

/-- What every node of a definition has, whatever it was made from. -/
structure Structural (schema : Schema) : Prop where
  type : schema.type.isSome = true
  format : schema.KnownFormat
  listed : ∀ name ∈ schema.required, Keyed.has name schema.properties = true
  distinct : schema.required.Nodup
  rules : ∀ rule ∈ schema.rules, Text.isBlank rule.rule = false

/-- A structural node that requires properties in order. -/
structure Settled (schema : Schema) : Prop extends Structural schema where
  ascends : schema.required.Pairwise (· < ·)

/-- A node that requires nothing and has no rules. -/
theorem Settled.of_type (ht : schema.type.isSome = true) (hf : schema.KnownFormat) (hr : schema.required = [])
    (hrules : schema.rules = []) : schema.Settled where
  type := ht
  format := hf
  listed := by simp [hr]
  distinct := by simp [hr]
  rules := by simp [hrules]
  ascends := by simp [hr]

theorem object_settled (description : String) : (object description).Everywhere Settled :=
  .of_nested (.of_type rfl (knownFormat_none rfl) rfl
    rfl) (by simp [object, nested, branches, additionalSchema?])

theorem string_settled (description : String) : (string description).Everywhere Settled :=
  .of_nested (.of_type rfl (knownFormat_none rfl) rfl
    rfl) (by simp [string, nested, branches, additionalSchema?])

namespace Everywhere

/-! #### Edits -/

theorem insert (h : schema.Everywhere Structural) (hp : property.Everywhere Structural) :
    (schema.insert name property).Everywhere Structural := by
  refine .of_nested { h.self with listed := fun other ho => ?_ } fun inner hi => ?_
  · rw [Schema.insert, Keyed.has_insert, h.self.listed other ho, Bool.or_true]
  · rcases mem_nested_insert hi with rfl | hi
    · exact hp
    · exact h.below hi

theorem addRequired (h : schema.Everywhere Structural) (hn : Keyed.has name schema.properties = true) :
    (schema.addRequired name).Everywhere Structural := by
  rw [Schema.addRequired]
  split
  · exact h
  · next hc =>
    have hnew : name ∉ schema.required := fun hm => hc (List.contains_iff_mem.mpr hm)
    refine h.change { h.self with listed := fun other ho => ?_, distinct := ?_ } rfl
    · rcases List.mem_cons.mp (Keyed.mem_ascending.mp ho) with rfl | ho
      · exact hn
      · exact h.self.listed other ho
    · exact (Keyed.ascending_perm _).nodup_iff.mpr (List.nodup_cons.mpr ⟨hnew, h.self.distinct⟩)

theorem removeRequired (h : schema.Everywhere Structural) (name : String) :
    (schema.removeRequired name).Everywhere Structural := by
  refine h.change { h.self with listed := fun other ho => ?_, distinct := ?_ } rfl
  · exact h.self.listed other (List.mem_filter.mp ho).1
  · exact h.self.distinct.filter _

theorem addRule {rule : Rule} (h : schema.Everywhere Structural) (hr : Text.isBlank rule.rule = false) :
    (schema.addRule rule).Everywhere Structural := by
  rw [Schema.addRule]
  split
  · exact h
  · refine h.change { h.self with rules := fun other ho => ?_ } rfl
    rcases List.mem_append.mp ho with ho | ho
    · exact h.self.rules other ho
    · obtain rfl := List.mem_singleton.mp ho
      exact hr

theorem filterRules (h : schema.Everywhere Structural) (test : Rule → Bool) :
    ({ schema with rules := schema.rules.filter test } : Schema).Everywhere Structural :=
  h.change { h.self with rules := fun rule hm => h.self.rules rule (List.mem_filter.mp hm).1 } rfl

theorem describe (h : schema.Everywhere Structural) (description : Option String) :
    ({ schema with description := description } : Schema).Everywhere Structural :=
  h.change { h.self with } rfl

theorem lookup (h : schema.Everywhere Structural) (hp : schema.property? name = some property) :
    property.Everywhere Structural := h.below (mem_nested_property (Keyed.mem_of_lookup hp))

end Everywhere

/-! ### Findings -/

section
variable {finding : Finding} {path : String}

theorem mem_expect {fine : Bool} {expected : Finding} (h : finding ∈ expect fine expected) :
    finding = expected ∧ fine = false := by
  cases fine with
  | true => cases h
  | false => exact ⟨List.mem_singleton.mp h, rfl⟩

theorem mem_propertiesFindings {properties : List (String × Schema)}
    (h : finding ∈ propertiesFindings path properties) :
    ∃ name property, (name, property) ∈ properties ∧
      finding ∈ schemaFindings (path ++ ".properties[" ++ name ++ "]") property := by
  induction properties with
  | nil => cases h
  | cons first rest ih =>
    obtain ⟨name, property⟩ := first
    rw [propertiesFindings, propertyFindings] at h
    rcases List.mem_append.mp h with h | h
    · exact ⟨name, property, List.mem_cons_self .., h⟩
    · obtain ⟨name, property, hm, h⟩ := ih h
      exact ⟨name, property, List.mem_cons_of_mem _ hm, h⟩

theorem mem_branchesFindings {branches : List Schema} {keyword : String} {index : Nat}
    (h : finding ∈ branchesFindings path keyword index branches) :
    ∃ branch ∈ branches, ∃ path, finding ∈ branchFindings path branch := by
  induction branches generalizing index with
  | nil => cases h
  | cons first rest ih =>
    rw [branchesFindings] at h
    rcases List.mem_append.mp h with h | h
    · exact ⟨first, List.mem_cons_self .., _, h⟩
    · obtain ⟨branch, hb, h⟩ := ih h
      exact ⟨branch, List.mem_cons_of_mem _ hb, h⟩

/-- Whether a finding is one of a node that is inspected, or of the format of a branch of such a node. -/
def Raises (schema : Schema) (finding : Finding) : Prop :=
  ∃ node, schema.Inspected node ∧ ∃ path, finding ∈ nodeFindings node path ∨
    ∃ branch ∈ node.composed, finding ∈ formatFindings branch path

theorem Raises.of_inspected {inner : Schema} (h : inner.Raises finding)
    (hi : ∀ node, inner.Inspected node → schema.Inspected node) : schema.Raises finding := by
  obtain ⟨node, hn, h⟩ := h
  exact ⟨node, hi node hn, h⟩

/-- Findings come from nodes that are inspected. -/
theorem raises_of_mem (schema : Schema) (path : String) (h : finding ∈ schemaFindings path schema) :
    schema.Raises finding := by
  have hproperty {name : String} {property : Schema}
    (hm : (name, property) ∈ schema.properties) {path : String}
      (h : finding ∈ schemaFindings path property) : schema.Raises finding :=
    (raises_of_mem property _ h).of_inspected fun _ hn => .property hm hn
  have hbranches {branches : List Schema} (hb : ∀ branch ∈ branches, branch ∈ schema.composed)
    {path keyword : String}
      {index : Nat} (h : finding ∈ branchesFindings path keyword index branches) : schema.Raises finding := by
    obtain ⟨branch, hm, place, h⟩ := mem_branchesFindings h
    rw [branchFindings_eq] at h
    rcases List.mem_append.mp h with h | h
    · exact ⟨schema, .here schema, place, .inr ⟨branch, hb branch hm, h⟩⟩
    · obtain ⟨name, property, hp, h⟩ := mem_propertiesFindings h
      exact (raises_of_mem property _ h).of_inspected fun _ hn => .branch (hb branch hm) hp hn
  rw [schemaFindings_eq] at h
  simp only [List.mem_append] at h
  rcases h with (((((h | h) | h) | h) | h) | h) | h
  · exact ⟨schema, .here schema, path, .inl h⟩
  · obtain ⟨name, property, hm, h⟩ := mem_propertiesFindings h
    exact hproperty hm h
  · cases hi : schema.items with
    | none =>
      rw [hi] at h
      cases h
    | some items =>
      rw [hi] at h
      exact (raises_of_mem items _ h).of_inspected fun _ hn => .items hi hn
  · cases ha : schema.additional with
    | none =>
      rw [ha] at h
      cases h
    | some additional =>
      rw [ha] at h
      cases additional with
      | flag _ => cases h
      | schema additional => exact (raises_of_mem additional _ h).of_inspected fun _ hn => .additional ha hn
  · exact hbranches (fun branch hb => by simp [composed, hb]) h
  · exact hbranches (fun branch hb => by simp [composed, hb]) h
  · exact hbranches (fun branch hb => by simp [composed, hb]) h
termination_by sizeOf schema
decreasing_by
  · exact sizeOf_property hm
  · exact Nat.lt_trans (sizeOf_property hp) (sizeOf_branch (hb branch hm))
  · exact sizeOf_items hi
  · exact sizeOf_additional ha

/-- Whether a finding is one of the two that a structural node may give cause for. -/
def Offends (node : Schema) (finding : Finding) : Prop :=
  ∃ path, finding = .itemsMissing path ∧ node.typeName = "array" ∧ node.items = none ∨
    finding = .additionalBesideProperties path ∧ node.properties ≠ [] ∧ node.additional ≠ none

/-- **In a structural schema nothing is found but arrays that do not say what their items are, and
properties that are listed beside something that is said of the others.** -/
theorem offends_of_mem (hs : schema.Everywhere Structural) (h : finding ∈ schemaFindings path schema) :
    ∃ node, schema.Inspected node ∧ node.Offends finding := by
  obtain ⟨node, hn, place, h | ⟨branch, hb, h⟩⟩ := raises_of_mem schema path h
  · have hnode := hs node hn.nests
    rw [nodeFindings_eq hnode.type hnode.format hnode.listed hnode.rules] at h
    refine ⟨node, hn, place, (List.mem_append.mp h).imp (fun h => ?_) fun h => ?_⟩
    · obtain ⟨rfl, hf⟩ := mem_expect h
      rw [Bool.or_eq_false_iff, bne_eq_false_iff_eq, Option.isSome_eq_false_iff,
        Option.isNone_iff_eq_none] at hf
      exact ⟨rfl, hf⟩
    · obtain ⟨rfl, hf⟩ := mem_expect h
      rw [Bool.or_eq_false_iff, List.isEmpty_eq_false_iff, Option.isNone_eq_false_iff,
        Option.isSome_iff_ne_none] at hf
      exact ⟨rfl, hf⟩
  · have hbranch : branch.Structural :=
      hs branch (hn.nests.trans (.deeper (mem_nested_branch (mem_branches_composed hb)) (.here branch)))
    rw [formatFindings_nil.mpr hbranch.format] at h
    cases h

end

end CrdForge.Crd.Schema
