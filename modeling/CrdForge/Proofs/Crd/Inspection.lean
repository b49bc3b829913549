import CrdForge.Crd.Structural
import CrdForge.Proofs.Keyed

/-! Which nodes of a schema are inspected, and what is asked of them.

A definition has no findings exactly if each inspected node is sound. Of a branch only its format and its
properties are looked at, so a branch is no inspected node itself. -/
namespace CrdForge.Crd

namespace Schema

/-! ### Nodes -/

/-- The branches whose formats and properties are looked at. -/
def composed (schema : Schema) : List Schema := schema.allOf ++ schema.oneOf ++ schema.anyOf

inductive Inspected : Schema → Schema → Prop
  | here (schema : Schema) : Inspected schema schema
  | property {schema property node : Schema} {name : String} :
    (name, property) ∈ schema.properties → Inspected property node → Inspected schema node
  | items {schema items node : Schema} : schema.items = some items → Inspected items node →
    Inspected schema node
  | additional {schema additional node : Schema} :
    schema.additional = some (.schema additional) → Inspected additional node → Inspected schema node
  | branch {schema branch property node : Schema} {name : String} :
    branch ∈ schema.composed → (name, property) ∈ branch.properties → Inspected property node →
      Inspected schema node

theorem inspected_of_descend {schema node : Schema} {path : List String}
    (h : schema.descend? path = some node) :
    schema.Inspected node := by
  induction path generalizing schema with
  | nil =>
    cases h
    exact .here _
  | cons name rest ih =>
    obtain ⟨property, hp, h⟩ := Option.bind_eq_some_iff.mp h
    exact .property (Keyed.mem_of_lookup hp) (ih h)

/-- The format is one that a cluster knows, if there is one. -/
def KnownFormat (schema : Schema) : Prop :=
  ∀ format, schema.format = some format → supportedFormats.contains format = true

/-- An array says what its items are. -/
def Whole (schema : Schema) : Prop := schema.typeName = "array" → schema.items.isSome = true

/-- Properties are listed, or something is said of those that are not, but not both. -/
def Apart (schema : Schema) : Prop := schema.properties = [] ∨ schema.additional = none

/-- What is asked of every node, besides that it is whole and apart. -/
structure Regular (schema : Schema) : Prop where
  type : schema.type.isSome = true
  format : schema.KnownFormat
  branches : ∀ branch ∈ schema.composed, branch.KnownFormat
  required : ∀ name ∈ schema.required, Keyed.has name schema.properties = true
  rules : ∀ rule ∈ schema.rules, Text.isBlank rule.rule = false

/-- A regular node that is apart, and whole unless arrays may lose their items. -/
structure Fine (emptied : Prop) (schema : Schema) : Prop where
  regular : schema.Regular
  apart : schema.Apart
  whole : schema.Whole ∨ emptied

/-! ### Every node -/

/-- Whether something holds of every inspected node. -/
def Throughout (P : Schema → Prop) (schema : Schema) : Prop := ∀ node, schema.Inspected node → P node

/-- Whether something holds of every inspected node but the schema itself. -/
structure Below (P : Schema → Prop) (schema : Schema) : Prop where
  properties : ∀ name property, (name, property) ∈ schema.properties → property.Throughout P
  items : ∀ items, schema.items = some items → items.Throughout P
  additional : ∀ additional, schema.additional = some (.schema additional) → additional.Throughout P
  branches : ∀ branch ∈ schema.composed, ∀ name property, (name, property) ∈ branch.properties →
    property.Throughout P

section
variable {P Q : Schema → Prop} {schema changed property : Schema} {name : String}

namespace Throughout

theorem self (h : schema.Throughout P) : P schema := h schema (.here schema)

theorem mono (h : schema.Throughout P) (hpq : ∀ node, P node → Q node) : schema.Throughout Q :=
  fun node hn => hpq node (h node hn)

theorem of_below (h : P schema) (hb : schema.Below P) : schema.Throughout P := by
  intro node hn
  cases hn with
  | here => exact h
  | property hm hn => exact hb.properties _ _ hm node hn
  | items hi hn => exact hb.items _ hi node hn
  | additional ha hn => exact hb.additional _ ha node hn
  | branch hc hm hn => exact hb.branches _ hc _ _ hm node hn

theorem below (h : schema.Throughout P) : schema.Below P where
  properties _ _ hm node hn := h node (.property hm hn)
  items _ hi node hn := h node (.items hi hn)
  additional _ ha node hn := h node (.additional ha hn)
  branches _ hb _ _ hm node hn := h node (.branch hb hm hn)

end Throughout

namespace Below

/-- A schema that nests the same as another. -/
theorem change (h : schema.Below P) (hproperties : changed.properties = schema.properties)
    (hitems : changed.items = schema.items) (hadditional : changed.additional = schema.additional)
    (hcomposed : changed.composed = schema.composed) : changed.Below P where
  properties _ _ hm := h.properties _ _ (hproperties ▸ hm)
  items _ hi := h.items _ (hitems ▸ hi)
  additional _ ha := h.additional _ (hadditional ▸ ha)
  branches _ hb := h.branches _ (hcomposed ▸ hb)

/-- A schema with one more property. -/
theorem insert (h : schema.Below P) (hp : property.Throughout P) : (schema.insert name property).Below P where
  properties _ _ hm := by
    rcases Keyed.mem_insert hm with he | hm
    · cases he
      exact hp
    · exact h.properties _ _ hm
  items := h.items
  additional := h.additional
  branches := h.branches

end Below

end

/-- A value that nests nothing and is no array. -/
structure IsScalar (schema : Schema) : Prop where
  type : ∃ name, schema.type = some name ∧ name ≠ "array"
  format : schema.KnownFormat
  required : schema.required = []
  rules : schema.rules = []
  properties : schema.properties = []
  items : schema.items = none
  additional : schema.additional = none
  composed : schema.composed = []

theorem IsScalar.fine {schema : Schema} (h : schema.IsScalar) (emptied : Prop) :
    schema.Throughout (Fine emptied) := by
  obtain ⟨name, hn, ha⟩ := h.type
  refine .of_below ⟨⟨?_, h.format, ?_, ?_, ?_⟩, .inl h.properties, .inl fun ht => ?_⟩ ⟨?_, ?_, ?_, ?_⟩
  · simp [hn]
  · simp [h.composed]
  · simp [h.required]
  · simp [h.rules]
  · rw [typeName, hn] at ht
    exact absurd ht ha
  · simp [h.properties]
  · simp [h.items]
  · simp [h.additional]
  · simp [h.composed]

theorem knownFormat_none {schema : Schema} (h : schema.format = none) : schema.KnownFormat := by
  simp [KnownFormat, h]

theorem string_isScalar (description : String) : (string description).IsScalar :=
  ⟨⟨_, rfl, by decide⟩, knownFormat_none rfl, rfl, rfl, rfl, rfl, rfl, rfl⟩

/-! ### Sizes -/

variable {schema branch property node : Schema} {name : String}

theorem sizeOf_property (h : (name, property) ∈ schema.properties) : sizeOf property < sizeOf schema := by
  cases schema
  have hm := List.sizeOf_lt_of_mem h
  simp only [Schema.mk.sizeOf_spec, Prod.mk.sizeOf_spec] at hm ⊢
  omega

theorem sizeOf_items (h : schema.items = some node) : sizeOf node < sizeOf schema := by
  cases schema
  cases h
  simp only [Schema.mk.sizeOf_spec, Option.some.sizeOf_spec]
  omega

theorem sizeOf_additional (h : schema.additional = some (.schema node)) : sizeOf node < sizeOf schema := by
  cases schema
  cases h
  simp only [Schema.mk.sizeOf_spec, Option.some.sizeOf_spec, Additional.schema.sizeOf_spec]
  omega

theorem sizeOf_branch (h : branch ∈ schema.composed) : sizeOf branch < sizeOf schema := by
  cases schema
  simp only [composed, List.mem_append] at h
  rcases h with (h | h) | h <;>
  · have hm := List.sizeOf_lt_of_mem h
    simp only [Schema.mk.sizeOf_spec]
    omega

/-! ### Findings -/

theorem expect_nil {fine : Bool} {finding : Finding} : expect fine finding = [] ↔ fine = true := by
  cases fine <;> simp [expect]

theorem formatFindings_nil {path : String} : formatFindings schema path = [] ↔ schema.KnownFormat := by
  rw [formatFindings, KnownFormat]
  cases schema.format <;> simp [expect_nil]

theorem propertiesFindings_nil {properties : List (String × Schema)} {path : String} :
    propertiesFindings path properties = [] ↔ ∀ name property, (name, property) ∈ properties →
      schemaFindings (path ++ ".properties[" ++ name ++ "]") property = [] := by
  induction properties with
  | nil => simp [propertiesFindings]
  | cons first rest ih =>
    obtain ⟨name, property⟩ := first
    rw [propertiesFindings, propertyFindings, List.append_eq_nil_iff, ih]
    constructor
    · rintro ⟨hf, hr⟩ name' property' hm
      rcases List.mem_cons.mp hm with he | hm
      · cases he
        exact hf
      · exact hr _ _ hm
    · exact fun h => ⟨h _ _ (List.mem_cons_self ..), fun _ _ hm => h _ _ (List.mem_cons_of_mem _ hm)⟩

theorem schemaFindings_eq (path : String) (schema : Schema) : schemaFindings path schema =
    nodeFindings schema path ++ propertiesFindings path schema.properties ++
      itemsFindings path schema.items ++
      additionalFindings? path schema.additional ++ branchesFindings path "allOf" 0 schema.allOf ++
      branchesFindings path "oneOf" 0 schema.oneOf ++ branchesFindings path "anyOf" 0 schema.anyOf := by
  cases schema
  rfl

theorem branchFindings_eq (path : String) (branch : Schema) :
    branchFindings path branch = formatFindings branch path ++ propertiesFindings path branch.properties := by
  cases branch
  rfl

theorem branchFindings_nil {path : String} : branchFindings path branch = [] ↔
    branch.KnownFormat ∧ propertiesFindings path branch.properties = [] := by
  rw [branchFindings_eq, List.append_eq_nil_iff, formatFindings_nil]

theorem branchesFindings_nil {branches : List Schema} {path keyword : String} {index : Nat}
    (h : ∀ branch ∈ branches, ∀ path, branchFindings path branch = []) :
    branchesFindings path keyword index branches = [] := by
  induction branches generalizing index with
  | nil => rfl
  | cons first rest ih =>
    rw [branchesFindings, h first (List.mem_cons_self ..),
      ih fun branch hb => h branch (List.mem_cons_of_mem _ hb)]
    rfl

/-- What is left to find in a node that has a type, a known format, rules that say something, and
requires no more than it lists. -/
theorem nodeFindings_eq {path : String} (htype : schema.type.isSome = true) (hformat : schema.KnownFormat)
    (hrequired : ∀ name ∈ schema.required, Keyed.has name schema.properties = true)
    (hrules : ∀ rule ∈ schema.rules, Text.isBlank rule.rule = false) : nodeFindings schema path =
      expect (schema.typeName != "array" || schema.items.isSome) (.itemsMissing path) ++
        expect (schema.properties.isEmpty || schema.additional.isNone)
          (.additionalBesideProperties path) := by
  have hnames : (schema.required.flatMap fun name => expect (Keyed.has name schema.properties ||
      schema.preservesUnknown) (.requiredWithoutProperty path name)) = [] := by
    refine List.flatMap_eq_nil_iff.mpr fun name hm => expect_nil.mpr ?_
    rw [hrequired name hm, Bool.true_or]
  have htexts : (schema.rules.flatMap fun rule => expect (!Text.isBlank rule.rule) (.emptyRule path)) =
      [] := by
    refine List.flatMap_eq_nil_iff.mpr fun rule hm => expect_nil.mpr ?_
    rw [hrules rule hm]
    rfl
  have htyped : expect (schema.type.isSome || schema.preservesUnknown) (.typeMissing path) = [] :=
    expect_nil.mpr (by rw [htype, Bool.true_or])
  rw [nodeFindings, hnames, htexts, formatFindings_nil.mpr hformat, htyped]
  simp only [List.nil_append, List.append_nil]

/-- The findings of a node itself, all of which are the same wherever it stands. -/
theorem nodeFindings_nil {path : String} (h : schema.Regular) : nodeFindings schema path = [] ↔
    schema.Whole ∧ schema.Apart := by
  rw [nodeFindings_eq h.type h.format h.required h.rules]
  simp only [List.append_eq_nil_iff, expect_nil]
  rw [Whole, Apart, Bool.or_eq_true, Bool.or_eq_true, bne_iff_ne, List.isEmpty_iff, Option.isNone_iff_eq_none]
  refine and_congr_left fun _ => ⟨?_, fun hw => ?_⟩
  · exact fun h he => h.resolve_left fun hn => hn he
  · by_cases he : schema.typeName = "array"
    · exact .inr (hw he)
    · exact .inl he

theorem schemaFindings_subset_properties {properties : List (String × Schema)} (path : String)
    (h : (name, property) ∈ properties) :
    schemaFindings (path ++ ".properties[" ++ name ++ "]") property ⊆ propertiesFindings path properties := by
  intro finding hf
  induction properties with
  | nil => cases h
  | cons first rest ih =>
    rw [propertiesFindings]
    rcases List.mem_cons.mp h with rfl | h
    · exact List.mem_append_left _ hf
    · exact List.mem_append_right _ (ih h)

theorem branchFindings_subset {branches : List Schema} (path keyword : String) (index : Nat)
    (h : branch ∈ branches) :
    ∃ place, branchFindings place branch ⊆ branchesFindings path keyword index branches := by
  induction branches generalizing index with
  | nil => cases h
  | cons first rest ih =>
    rw [branchesFindings]
    rcases List.mem_cons.mp h with rfl | h
    · exact ⟨_, List.subset_append_left _ _⟩
    · obtain ⟨place, hp⟩ := ih (index + 1) h
      exact ⟨place, List.subset_append_of_subset_right _ hp⟩

theorem branchFindings_subset_schema (path : String) (h : branch ∈ schema.composed) :
    ∃ place, branchFindings place branch ⊆ schemaFindings path schema := by
  rw [schemaFindings_eq]
  simp only [composed, List.mem_append] at h
  rcases h with (h | h) | h
  · obtain ⟨place, hp⟩ := branchFindings_subset path "allOf" 0 h
    exact ⟨place, fun _ hf => by simp [hp hf]⟩
  · obtain ⟨place, hp⟩ := branchFindings_subset path "oneOf" 0 h
    exact ⟨place, fun _ hf => by simp [hp hf]⟩
  · obtain ⟨place, hp⟩ := branchFindings_subset path "anyOf" 0 h
    exact ⟨place, fun _ hf => by simp [hp hf]⟩

/-- What is found in an inspected node is found in the schema. -/
theorem Inspected.findings (h : schema.Inspected node) (path : String) :
    ∃ place, schemaFindings place node ⊆ schemaFindings path schema := by
  induction h generalizing path with
  | here schema => exact ⟨path, List.Subset.refl _⟩
  | @property schema _ _ name hm _ ih =>
    have hproperty := schemaFindings_subset_properties path hm
    obtain ⟨place, hp⟩ := ih (path ++ ".properties[" ++ name ++ "]")
    refine ⟨place, fun _ hf => ?_⟩
    rw [schemaFindings_eq path schema]
    simp [hproperty (hp hf)]
  | @items schema _ _ hi _ ih =>
    obtain ⟨place, hp⟩ := ih (path ++ ".items")
    refine ⟨place, fun _ hf => ?_⟩
    rw [schemaFindings_eq path schema, hi, itemsFindings]
    simp [hp hf]
  | @additional schema _ _ ha _ ih =>
    obtain ⟨place, hp⟩ := ih (path ++ ".additionalProperties")
    refine ⟨place, fun _ hf => ?_⟩
    rw [schemaFindings_eq path schema, ha, additionalFindings?, additionalFindings]
    simp [hp hf]
  | @branch schema branch _ _ name hb hm _ ih =>
    obtain ⟨inner, hi⟩ := branchFindings_subset_schema path hb
    have hproperty := schemaFindings_subset_properties inner hm
    obtain ⟨place, hp⟩ := ih (inner ++ ".properties[" ++ name ++ "]")
    refine ⟨place, fun _ hf => hi ?_⟩
    rw [branchFindings_eq]
    exact List.mem_append_right _ (hproperty (hp hf))

/-- A schema without findings has inspected nodes without findings. -/
theorem Inspected.nodeFindings (h : schema.Inspected node) {path : String}
    (hf : schemaFindings path schema = []) : ∃ path, nodeFindings node path = [] := by
  obtain ⟨place, hp⟩ := h.findings path
  rw [hf, List.subset_nil, schemaFindings_eq] at hp
  simp only [List.append_eq_nil_iff, and_assoc] at hp
  exact ⟨place, hp.1⟩

/-- A schema whose inspected nodes have no findings has none, wherever it stands. -/
theorem schemaFindings_nil_of_sound (schema : Schema)
    (h : ∀ node, schema.Inspected node → node.Regular ∧ node.Whole ∧ node.Apart) (path : String) :
    schemaFindings path schema = [] := by
  have hproperties (path : String) : propertiesFindings path schema.properties = [] :=
    propertiesFindings_nil.mpr fun name property hm =>
      schemaFindings_nil_of_sound property (fun node hn => h node (.property hm hn)) _
  have hitems : itemsFindings path schema.items = [] := by
    cases hi : schema.items with
    | none => rfl
    | some items => exact schemaFindings_nil_of_sound items (fun node hn => h node (.items hi hn)) _
  have hadditional : additionalFindings? path schema.additional = [] := by
    cases ha : schema.additional with
    | none => rfl
    | some additional =>
      cases additional with
      | flag _ => rfl
      | schema additional =>
        exact schemaFindings_nil_of_sound additional (fun node hn => h node (.additional ha hn)) _
  obtain ⟨hregular, hnode⟩ := h schema (.here schema)
  have hbranch (branch : Schema) (hb : branch ∈ schema.composed) (path : String) :
      branchFindings path branch = [] :=
    branchFindings_nil.mpr ⟨hregular.branches branch hb, propertiesFindings_nil.mpr fun name property hm =>
      schemaFindings_nil_of_sound property (fun node hn => h node (.branch hb hm hn)) _⟩
  have hmem : ∀ branch, branch ∈ schema.composed ↔
      branch ∈ schema.allOf ∨ branch ∈ schema.oneOf ∨ branch ∈ schema.anyOf := by simp [composed]
  rw [schemaFindings_eq, (nodeFindings_nil hregular).mpr hnode, hproperties, hitems, hadditional,
    branchesFindings_nil fun branch hb => hbranch branch ((hmem branch).mpr (.inl hb)),
    branchesFindings_nil fun branch hb => hbranch branch ((hmem branch).mpr (.inr (.inl hb))),
    branchesFindings_nil fun branch hb => hbranch branch ((hmem branch).mpr (.inr (.inr hb)))]
  rfl
termination_by sizeOf schema
decreasing_by
  · exact sizeOf_property hm
  · exact sizeOf_items hi
  · exact sizeOf_additional ha
  · exact Nat.lt_trans (sizeOf_property hm) (sizeOf_branch hb)

/-- **A schema of regular nodes has no findings exactly if all of them are whole and apart.** -/
theorem schemaFindings_nil_iff (h : schema.Throughout Regular) (path : String) :
    schemaFindings path schema = [] ↔ schema.Throughout fun node => node.Whole ∧ node.Apart := by
  constructor
  · intro hf node hn
    obtain ⟨place, hplace⟩ := hn.nodeFindings hf
    exact (nodeFindings_nil (h node hn)).mp hplace
  · exact fun hs => schemaFindings_nil_of_sound schema (fun node hn => ⟨h node hn, hs node hn⟩) path

end Schema

end CrdForge.Crd
