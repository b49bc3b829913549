import CrdForge.Proofs.Crd.Rendering

/-! What a cluster is told of a definition.

The document that a cluster takes says everything of a definition again for each version. Whatever it
says is read from it, so two definitions with the same document are told apart by what is not written
alone (`document_restores`). -/
namespace CrdForge.Crd

open Json (array? object? optional)

/-! ### Parts of definitions -/

theorem Names.ofJson?_toJson (names : Names) : ofJson? names.toJson.sorted = some names := by
  rw [ofJson?, toJson, Json.withNames_sorted]
  refine Option.bind_eq_some_iff.mpr ⟨names.plural, Json.entry_text (by simp), ?_⟩
  refine Option.bind_eq_some_iff.mpr ⟨names.singular, Json.entry_text (by simp), ?_⟩
  refine Option.bind_eq_some_iff.mpr ⟨names.kind, Json.entry_text (by simp), ?_⟩
  refine Option.bind_eq_some_iff.mpr ⟨names.listKind, Json.entry_text (by simp), ?_⟩
  refine Option.bind_eq_some_iff.mpr ⟨names.shortNames, Json.entry_texts (by simp), ?_⟩
  refine Option.bind_eq_some_iff.mpr ⟨names.categories, Json.entry_texts (by simp), ?_⟩
  rfl

theorem Scope.ofJson?_name (scope : Scope) : ofJson? (Json.string scope.name).sorted = some scope := by
  cases scope <;> rfl

theorem Column.ofJson?_toJson (column : Column) : ofJson? column.toJson.sorted = some column := by
  rw [ofJson?, toJson, Json.withNames_sorted]
  refine Option.bind_eq_some_iff.mpr ⟨column.name, Json.entry_text (by simp), ?_⟩
  refine Option.bind_eq_some_iff.mpr ⟨column.type, Json.entry_text (by simp), ?_⟩
  refine Option.bind_eq_some_iff.mpr ⟨column.jsonPath, Json.entry_text (by simp), ?_⟩
  refine Option.bind_eq_some_iff.mpr ⟨column.description, Json.entry?_text (by simp), ?_⟩
  rfl

theorem Subresources.ofJson?_toJson (subresources : Subresources) :
    ofJson? subresources.toJson.sorted = some subresources := by
  obtain ⟨_ | _⟩ := subresources <;> rfl

theorem schemaEntryOf?_schemaEntry {schema : Schema} (h : schema.Everywhere Schema.Readable) :
    schemaEntryOf? (Definition.schemaEntry schema).sorted = some schema.withoutIds := by
  have hget : (Definition.schemaEntry schema).sorted.get? "openAPIV3Schema" = some schema.toJson.sorted := by
    rw [Definition.schemaEntry, Json.get?_sorted]
    rfl
  rw [schemaEntryOf?, Definition.schemaEntry, Json.withNames_sorted, ← Definition.schemaEntry, hget]
  exact schemaOf?_toJson schema h

namespace Definition
variable {definition : Definition}

/-- What can be told from how a definition is written. -/
structure Readable (definition : Definition) : Prop where
  annotations : Keyed.Sorted definition.annotations
  schema : ∀ schema, definition.schema = some schema → schema.Everywhere Schema.Readable

/-- What is said of a version: everything that is said of the definition, but for names of nodes. -/
structure Carries (definition : Definition) (version : Version) (entry : Json) : Prop where
  version : Version.ofJson? entry = some version
  schema : entry.entry? "schema" schemaEntryOf? = some (definition.schema.map Schema.withoutIds)
  columns : entry.entry "additionalPrinterColumns" [] (Json.list? Column.ofJson?) = some definition.columns
  subresources : entry.entry? "subresources" Subresources.ofJson? = some definition.subresources

theorem carries_servedVersion (h : definition.Readable) (version : Version) :
    definition.Carries version (definition.servedVersion version).sorted where
  version := by
    rw [Version.ofJson?, servedVersion, Json.withNames_sorted]
    refine Option.bind_eq_some_iff.mpr ⟨version.name, Json.entry_text (by simp [Version.entries]), ?_⟩
    refine Option.bind_eq_some_iff.mpr ⟨version.served, Json.entry_flag (by simp [Version.entries]), ?_⟩
    refine Option.bind_eq_some_iff.mpr ⟨version.storage, Json.entry_flag (by simp [Version.entries]), ?_⟩
    rfl
  schema := Json.entry?_object (by simp [Version.entries]; rfl)
    fun schema hs => schemaEntryOf?_schemaEntry (h.schema schema hs)
  columns := Json.entry_list (by simp [Version.entries]) fun column _ => Column.ofJson?_toJson column
  subresources := by
    have hs : Json.entry? (definition.servedVersion version).sorted "subresources" Subresources.ofJson? =
        some (definition.subresources.map id) := Json.entry?_object (by simp [Version.entries]; rfl)
      fun subresources _ => Subresources.ofJson?_toJson subresources
    rwa [Option.map_id] at hs

/-- What can be told of a definition from its document: all but the names that nodes have of their own,
whether unknown fields are kept everywhere, and which versions were stored. -/
def rendered (definition : Definition) : Definition :=
  { definition with
    schema := definition.schema.map Schema.withoutIds
    preserveUnknown := none
    storedVersions := [] }

/-- What the document says besides metadata. -/
def specJson (definition : Definition) : Json :=
  .object [
    ("group", .string definition.group),
    ("names", definition.names.toJson),
    ("scope", .string definition.scope.name),
    ("versions", .array (definition.versions.map definition.servedVersion))]

/-- What is read from a document. -/
structure Told (definition : Definition) (document : Json) : Prop where
  metadata : ∃ metadata, document.get? "metadata" = some metadata ∧
    metadata.entry "name" "" Json.text? = some definition.name ∧
    metadata.entry "annotations" [] (Json.map? Json.text?) = some definition.annotations
  spec : ∃ spec entries, document.get? "spec" = some spec ∧
    spec.entry "group" "" Json.text? = some definition.group ∧
    spec.entry "names" {} Names.ofJson? = some definition.names ∧
    spec.entry "scope" .namespaced Scope.ofJson? = some definition.scope ∧
    spec.get? "versions" = some (.array entries) ∧
    List.Forall₂ definition.Carries definition.versions entries

theorem told_document (h : definition.Readable) : definition.Told definition.document where
  metadata := by
    refine ⟨definition.metadataJson.sorted, ?_, Json.entry_text (by simp), ?_⟩
    · rw [document, Json.get?_sorted]
      rfl
    · exact Json.entry_map h.annotations (by simp; rfl) fun _ _ => rfl
  spec := by
    have hspec : definition.document.get? "spec" = some definition.specJson.sorted := by
      rw [document, Json.get?_sorted]
      rfl
    have hversions : definition.specJson.sorted.get? "versions" =
        some (Json.array (definition.versions.map definition.servedVersion)).sorted := by
      rw [specJson, Json.get?_sorted]
      rfl
    refine ⟨_, _, hspec, Json.entry_text (by simp), ?_, ?_,
      hversions.trans (by rw [Json.sorted_array_map]), ?_⟩
    · exact Json.entry_of_lookup definition.names.toJson (by simp) nofun definition.names.ofJson?_toJson
    · exact Json.entry_of_lookup (.string definition.scope.name) (by simp) nofun definition.scope.ofJson?_name
    · exact List.forall₂_map_right_iff.mpr
        (List.forall₂_same.mpr fun version _ => carries_servedVersion h version)

/-- An entry says which version it is for, and the same of the rest whichever version that is. -/
theorem Carries.unique {other : Definition} {version version' : Version} {entry : Json}
    (h : definition.Carries version entry) (h' : other.Carries version' entry) :
    version = version' ∧ definition.schema.map Schema.withoutIds = other.schema.map Schema.withoutIds ∧
      definition.columns = other.columns ∧ definition.subresources = other.subresources :=
  ⟨Option.some.inj (h.version.symm.trans h'.version), Option.some.inj (h.schema.symm.trans h'.schema),
    Option.some.inj (h.columns.symm.trans h'.columns),
    Option.some.inj (h.subresources.symm.trans h'.subresources)⟩

section
variable {other : Definition} {versions versions' : List Version} {entries : List Json}
  (h : List.Forall₂ definition.Carries versions entries) (h' : List.Forall₂ other.Carries versions' entries)
include h h'

theorem versions_eq_of_carries : versions = versions' := by
  induction h generalizing versions' with
  | nil =>
    cases h'
    rfl
  | cons hfirst _ ih =>
    cases h' with
    | cons hfirst' hrest' => rw [(hfirst.unique hfirst').1, ih hrest']

theorem parts_eq_of_carries (hv : versions ≠ []) :
    definition.schema.map Schema.withoutIds = other.schema.map Schema.withoutIds ∧
      definition.columns = other.columns ∧ definition.subresources = other.subresources := by
  cases h with
  | nil => exact absurd rfl hv
  | cons hfirst _ =>
    cases h' with
    | cons hfirst' _ => exact (hfirst.unique hfirst').2

end

/-- Definitions of which the same is told, with at least one version, differ in nothing that is written. -/
theorem rendered_eq_of_told {other : Definition} {document : Json} (h : definition.Told document)
    (h' : other.Told document) (hv : definition.versions ≠ []) : definition.rendered = other.rendered := by
  obtain ⟨metadata, hmetadata, hname, hannotations⟩ := h.metadata
  obtain ⟨metadata', hmetadata', hname', hannotations'⟩ := h'.metadata
  obtain rfl : metadata = metadata' := Option.some.inj (hmetadata.symm.trans hmetadata')
  obtain ⟨spec, entries, hspec, hgroup, hnames, hscope, hentries, hall⟩ := h.spec
  obtain ⟨spec', entries', hspec', hgroup', hnames', hscope', hentries', hall'⟩ := h'.spec
  obtain rfl : spec = spec' := Option.some.inj (hspec.symm.trans hspec')
  obtain rfl : entries = entries' := Json.array.inj (Option.some.inj (hentries.symm.trans hentries'))
  obtain ⟨hschema, hcolumns, hsubresources⟩ := parts_eq_of_carries hall hall' hv
  rw [rendered, rendered, hschema, hcolumns, hsubresources, versions_eq_of_carries hall hall',
    Option.some.inj (hname.symm.trans hname'), Option.some.inj (hannotations.symm.trans hannotations'),
    Option.some.inj (hgroup.symm.trans hgroup'), Option.some.inj (hnames.symm.trans hnames'),
    Option.some.inj (hscope.symm.trans hscope')]

/-- What is not told of a definition is not written. -/
theorem document_rendered (definition : Definition) : definition.rendered.document = definition.document := by
  have hschema : (definition.schema.map Schema.withoutIds).map schemaEntry =
      definition.schema.map schemaEntry := by
    rw [Option.map_map]
    refine Option.map_congr fun schema _ => ?_
    rw [Function.comp_apply, schemaEntry, schemaEntry, schema.toJson_withoutIds]
  have hserved : definition.rendered.servedVersion = definition.servedVersion := by
    funext version
    rw [servedVersion, servedVersion]
    exact congrArg (fun schema => Json.object (version.entries ++ optional "schema" schema ++ _ ++ _)) hschema
  rw [document, document, hserved]
  rfl

/-- **The document of a definition says all of it again.** Metadata, group, names and scope are read from
it as they are, and for each version, in order, there is an entry from which the version, the schema
without the names of nodes, the columns and the subresources are read. So definitions that have a version
have the same document exactly if they differ at most in names of nodes and in what no document says. -/
theorem document_restores (h : definition.Readable) : definition.Told definition.document ∧
    ∀ other : Definition, other.Readable → definition.versions ≠ [] →
      (definition.document = other.document ↔ definition.rendered = other.rendered) := by
  refine ⟨told_document h, fun other h' hv => ⟨fun hd => ?_, fun hr => ?_⟩⟩
  · have htold : other.Told definition.document := hd ▸ told_document h'
    exact rendered_eq_of_told (told_document h) htold hv
  · rw [← definition.document_rendered, hr, other.document_rendered]

/-- A definition with two versions and one property, which may have a name of its own. -/
def sized (id : Option String) : Definition where
  name := "things.g"
  annotations := [("a", ""), ("b", "c")]
  group := "g"
  names := { plural := "things", kind := "Thing", categories := ["all"] }
  versions := [⟨"v1", true, true⟩, ⟨"v2", false, false⟩]
  schema := some {
    type := some "object"
    required := ["size"]
    properties := [("size", {
      id := id
      type := some "number"
      default := some (.number (.int 0))
      multipleOf := some 0.5 })]
    additional := some (.flag false) }
  subresources := some { status := true }
  columns := [{ name := "Size", type := "number", jsonPath := ".size" }]

theorem sized_readable (id : Option String) : (sized id).Readable where
  annotations := by
    show List.Pairwise (fun entry other => entry.1 < other.1) [("a", ""), ("b", "c")]
    decide
  schema := by
    rintro _ ⟨⟩
    refine .of_nested ⟨List.pairwise_singleton .., nofun, nofun, nofun, nofun⟩ fun inner hi => ?_
    obtain rfl := List.mem_singleton.mp hi
    refine .of_nested ⟨.nil, ?_, nofun, nofun, ?_⟩ nofun
    · rintro _ ⟨⟩
      exact ⟨rfl, nofun⟩
    · rintro _ ⟨⟩
      decide

theorem sized_restored : (sized (some "length")).Told (sized (some "length")).document ∧
    (sized (some "length")).document = (sized none).document := by
  obtain ⟨htold, hsame⟩ := document_restores (sized_readable (some "length"))
  exact ⟨htold, (hsame (sized none) (sized_readable none) (by decide)).mpr rfl⟩

end Definition

end CrdForge.Crd
