import CrdForge.Proofs.Config.Check
import CrdForge.Proofs.Pipeline.Structure
import CrdForge.Proofs.Text.Plural

/-! What an inspection finds in a definition that was made.

From a well-formed document a definition is made that has findings for two reasons only: an array was
kept while its items were left out, or references were listed in an entry that describes properties
without listing them. -/
namespace CrdForge.Generation

open Conversion (Emptied PropertyPlugin)
open Crd.Schema (Fine Inspected IsObject Throughout Whole inspected_of_descend)
open Pipeline (FineParts FineSpec Parts PluginSet entryPart specPart statusPart)
open Run

/-! ### Configurations -/

/-- A configuration that may be used names the kind of each resource. -/
theorem kind_of_ofConfig {catalog : Pipeline.Catalog} {loaders : OpenApi.Loaders} {config : Config}
    {generator : Generator} (h : Generator.ofConfig catalog loaders config = .ok generator)
    {resource : Config.Resource} (hr : resource ∈ config.resources) : resource.kind ≠ "" := by
  have hc :=
    (Config.check_of_checkResources (Config.parts_of_check (Generator.ofConfig_ok h).1).2 resource hr).1
  intro hk
  rw [Config.Resource.check, hk] at hc
  cases hc

theorem inspect_of_ofConfig {catalog : Pipeline.Catalog} {loaders : OpenApi.Loaders} {config : Config}
    {generator : Generator} (h : Generator.ofConfig catalog loaders config = .ok generator)
    (definition : Crd.Definition) :
    generator.inspect definition = definition.findings.map Crd.Finding.message := by
  obtain ⟨-, sets, -, rfl⟩ := Generator.ofConfig_ok h
  rfl

/-! ### The root -/

section
variable {resource : Config.Resource} {emptied : Prop} {parts : Parts} {node : Crd.Schema}

/-- An inspected node of an object is the object or one of a property. -/
theorem inspected_object {schema : Crd.Schema} (h : schema.IsObject) (hn : schema.Inspected node) :
    node = schema ∨ ∃ name property, (name, property) ∈ schema.properties ∧ property.Inspected node := by
  cases hn with
  | here => exact .inl rfl
  | property hm hn => exact .inr ⟨_, _, hm, hn⟩
  | items hi hn =>
    rw [h.items] at hi
    cases hi
  | additional ha hn =>
    rw [h.additional] at ha
    cases ha
  | branch hb hm hn => simp [h.composed] at hb

/-- An entry with references: it is regular, but may describe properties that it lists none of. -/
def IsEntry (resource : Config.Resource) (schema node : Crd.Schema) : Prop :=
  ∃ mapping ∈ resource.mappings, mapping.entry.references ≠ [] ∧
    schema.descend? [mapping.majorVersion, entryPart] = some node

/-- The inspected nodes of what is asked for are fine, but for entries with references. -/
theorem spec_nodes {spec : Crd.Schema} (h : FineSpec resource emptied spec) (hn : spec.Inspected node) :
    node.Regular ∧ (node.Whole ∨ emptied) ∧ (node.Apart ∨ IsEntry resource spec node) := by
  have hfine {node : Crd.Schema} (hf : Fine emptied node) :
      node.Regular ∧ (node.Whole ∨ emptied) ∧ (node.Apart ∨ IsEntry resource spec node) :=
    ⟨hf.regular, hf.whole, .inl hf.apart⟩
  rcases inspected_object h.object hn with rfl | ⟨name, version, hv, hn⟩
  · exact hfine h.object.fine
  · have hversion := h.versions name version hv
    rcases inspected_object hversion.object hn with rfl | ⟨key, property, hp, hn⟩
    · exact hfine hversion.object.fine
    · rcases hversion.listed key property hp with hf | ⟨rfl, hbut, mapping, hm, rfl, hr⟩
      · exact hfine (hf node hn)
      · cases hn with
        | here =>
          refine ⟨hbut.regular, hbut.whole, .inr ⟨mapping, hm, hr, ?_⟩⟩
          rw [Crd.Schema.descend?, Crd.Schema.property?, h.object.sorted.lookup_of_mem hv, Option.bind_some,
            Crd.Schema.descend?, Crd.Schema.property?, hversion.object.sorted.lookup_of_mem hp]
          rfl
        | property hm' hn => exact hfine (hbut.below.properties _ _ hm' _ hn)
        | items hi hn => exact hfine (hbut.below.items _ hi _ hn)
        | additional ha hn => exact hfine (hbut.below.additional _ ha _ hn)
        | branch hb hm' hn => exact hfine (hbut.below.branches _ hb _ _ hm' _ hn)

theorem root_isObject (resource : Config.Resource) (parts : Parts) : (parts.root resource).IsObject where
  type := rfl
  format := rfl
  items := rfl
  additional := rfl
  composed := rfl
  sorted := by
    have hlt : specPart < statusPart := by decide
    simpa [Keyed.Sorted, Parts.root] using hlt
  required := by simp [Parts.root, Pipeline.rootSchema, Crd.Schema.object, Crd.Schema.insert]
  rules := by simp [Parts.root, Pipeline.rootSchema, Crd.Schema.object, Crd.Schema.insert]

theorem root_nodes (h : FineParts resource emptied parts) (hn : (parts.root resource).Inspected node) :
    node.Regular ∧ (node.Whole ∨ emptied) ∧ (node.Apart ∨ IsEntry resource parts.spec node) := by
  have hfine {node : Crd.Schema} (hf : Fine emptied node) :
      node.Regular ∧ (node.Whole ∨ emptied) ∧ (node.Apart ∨ IsEntry resource parts.spec node) :=
    ⟨hf.regular, hf.whole, .inl hf.apart⟩
  rcases inspected_object (root_isObject resource parts) hn with rfl | ⟨name, property, hm, hn⟩
  · exact hfine (root_isObject resource parts).fine
  · rcases List.mem_cons.mp hm with he | hm
    · cases he
      exact spec_nodes h.spec hn
    · cases List.mem_singleton.mp hm
      rcases inspected_object h.status hn with rfl | ⟨name, property, hm, hn⟩
      · exact hfine h.status.fine
      · exact hfine (h.statuses name property hm node hn)

/-- A root has no findings exactly if every array kept its items and no entry with references describes
properties that it lists none of. -/
theorem rootFindings_nil_iff (h : FineParts resource emptied parts) :
    Crd.schemaFindings Crd.schemaPath (parts.root resource) = [] ↔
      (parts.root resource).Throughout Whole ∧ ∀ mapping ∈ resource.mappings, mapping.entry.references ≠ [] →
        ∀ entry, (parts.root resource).descend? [specPart, mapping.majorVersion, entryPart] = some entry →
          entry.Apart := by
  have hregular : (parts.root resource).Throughout Crd.Schema.Regular := fun node hn => (root_nodes h hn).1
  rw [Crd.Schema.schemaFindings_nil_iff hregular]
  constructor
  · intro hall
    refine ⟨fun node hn => (hall node hn).1, fun mapping _ _ entry he => (hall entry ?_).2⟩
    exact inspected_of_descend he
  · rintro ⟨hwhole, hentries⟩ node hn
    refine ⟨hwhole node hn, ?_⟩
    rcases (root_nodes h hn).2.2 with ha | ⟨mapping, hm, hr, hd⟩
    · exact ha
    · exact hentries mapping hm hr node hd

end

/-! ### Definitions -/

theorem finish_findings (draft : Pipeline.Draft) :
    (Generator.finish draft).findings = draft.definition.findings := by
  delta Generator.finish
  cases draft.tree.text? <;> rfl

theorem nameFindings_nil {resource : Config.Resource} (hk : resource.kind ≠ "") (parts : Parts) :
    (parts.definition resource).nameFindings = [] := by
  obtain ⟨hlower, hne⟩ := Text.Plural.lower_plural hk
  have hp : (parts.definition resource).names.plural = Text.plural (Text.lower resource.kind) := by
    show (Pipeline.resourceNames resource.kind).1 = _
    rw [Pipeline.resourceNames, if_neg hk]
  have hkind : Crd.expect ((parts.definition resource).names.kind != "") .kindMissing = [] :=
    Crd.Schema.expect_nil.mpr (bne_iff_ne.mpr hk)
  have hname : Crd.expect ((parts.definition resource).name ==
      (parts.definition resource).names.plural ++ "." ++ (parts.definition resource).group)
        (.nameMismatch (parts.definition resource).name
          ((parts.definition resource).names.plural ++ "." ++ (parts.definition resource).group)) = [] :=
    Crd.Schema.expect_nil.mpr (beq_iff_eq.mpr rfl)
  rw [Crd.Definition.nameFindings, hkind, hname, hp, if_neg hne]
  simp [Crd.Schema.expect_nil, hlower]

/-- Nothing is found in names and versions, and nothing in columns that a cluster can read. -/
theorem definition_findings_of_columns {resource : Config.Resource} {parts : Parts} (hk : resource.kind ≠ "")
    (h : ∀ column ∈ parts.columns, Text.startsWith "." column.jsonPath = true) :
    (parts.definition resource).findings = Crd.schemaFindings Crd.schemaPath (parts.root resource) := by
  have hversions : (parts.definition resource).versionFindings = [] := rfl
  have hroot : (parts.definition resource).rootFindings =
    Crd.schemaFindings Crd.schemaPath (parts.root resource) := rfl
  have hcolumns : (parts.definition resource).columnFindings = [] :=
    List.flatMap_eq_nil_iff.mpr fun column hm => Crd.Schema.expect_nil.mpr (h column hm)
  rw [Crd.Definition.findings, nameFindings_nil hk, hversions, hroot, hcolumns, List.append_nil]
  rfl

theorem definition_findings {resource : Config.Resource} {emptied : Prop} {parts : Parts}
    (hk : resource.kind ≠ "") (h : FineParts resource emptied parts) :
    (parts.definition resource).findings = Crd.schemaFindings Crd.schemaPath (parts.root resource) :=
  definition_findings_of_columns hk h.columns

section
variable {config : Config} {loaders : OpenApi.Loaders} {generator : Generator} {resource : Config.Resource}
  {set : PluginSet} {cache after : Cache} {generated : Generated}

/-- Whether a conversion for a resource keeps an array while its items are left out. -/
def EmptiesArrays (generator : Generator) (cache : Cache) (resource : Config.Resource) : Prop :=
  ∃ mapping ∈ resource.mappings, ∃ document, generator.Supplies cache mapping.document document ∧
    ∃ selection ∈ [mapping.parameters, mapping.entry, mapping.status],
      Emptied ⟨document, selection.filters, PropertyPlugin.all⟩

/-- A run over all mappings of a resource leaves fine parts. -/
theorem fine_of_run (hset : generator.UsesAll resource set)
    (hd : ∀ mapping ∈ resource.mappings, ∀ document, generator.Supplies cache mapping.document document →
      document.WellFormed) {parts : Parts}
    (h : Each (generator.Adds set resource cache) resource.mappings (Parts.start resource) parts) :
    FineParts resource (EmptiesArrays generator cache resource) parts := by
  refine h.preserves (fun mapping hm s s' hs hstep => ?_) (Pipeline.start_fine resource)
  obtain ⟨document, hsupplied, middle, hmiddle, hlast⟩ := hstep
  have hfilters : set.propertyPlugins = PropertyPlugin.all := hset.propertyPlugins
  have haccounts : Pipeline.Accounts (EmptiesArrays generator cache resource)
      ⟨resource, mapping, document, set.propertyPlugins⟩ := by
    intro selection hselection he
    rw [hfilters] at he
    exact ⟨mapping, hm, document, hsupplied, selection, hselection, he⟩
  refine hlast.preserves (fun plugin _ s s' hs h => h.fine hs) ?_
  refine hmiddle.preserves (fun plugin _ s s' hs h => ?_) hs
  exact h.fine hfilters (hd mapping hm document hsupplied) haccounts hm hs

/-- **A definition made from well-formed documents has no findings exactly if every array in its schema
kept its items and no entry with references describes properties that it lists none of. An array without
items was kept while its items were left out, because they nest too deep or because of the filters.** -/
theorem findings_nil_iff (hg : Generator.ofConfig Pipeline.Plugin.all loaders config = .ok generator)
    (hr : resource ∈ config.resources) (hset : generator.UsesAll resource set)
    (hd : ∀ mapping ∈ resource.mappings, ∀ document, generator.Supplies cache mapping.document document →
      document.WellFormed) (h : generator.generate resource cache = (.ok generated, after)) :
    ∃ root, generated.definition.schema = some root ∧
      (generated.findings = [] ↔ root.Throughout Whole ∧ ∀ mapping ∈ resource.mappings,
        mapping.entry.references ≠ [] → ∀ entry,
          root.descend? [specPart, mapping.majorVersion, entryPart] = some entry → entry.Apart) ∧
      ∀ node, root.Inspected node → ¬ node.Whole → EmptiesArrays generator cache resource := by
  obtain ⟨-, parts, hdefinition, hfindings, hrun, -⟩ := Generator.generate_ok hset.1 hset.hasBase h
  have hfine := fine_of_run hset hd hrun
  refine ⟨parts.root resource, ?_, ?_, fun node hn hw => ?_⟩
  · rw [hdefinition, Generator.finish_schema]
    rfl
  · have hdraft : (parts.draft resource).definition = parts.definition resource := rfl
    rw [hfindings, inspect_of_ofConfig hg, List.map_eq_nil_iff, hdefinition, finish_findings, hdraft,
      definition_findings (kind_of_ofConfig hg hr) hfine]
    exact rootFindings_nil_iff hfine
  · exact (root_nodes hfine hn).2.1.resolve_left hw

end

/-! ### An array that loses its items -/

/-- Texts that only the service writes. -/
def serverText : OpenApi.Schema where
  type := some (.one "string")
  readOnly := true

def serverTexts : OpenApi.Schema where
  type := some (.one "array")
  items := some serverText

def labels : OpenApi.Schema where
  type := some (.one "object")
  properties := [("tags", serverTexts)]

def labelsDocument : OpenApi.Document where
  components := { schemas := [("Labels", labels)] }

/-- Labels without what only the service writes. -/
def labelsResource : Config.Resource where
  group := "example.com"
  version := "v1"
  kind := "Label"
  mappings := [{ majorVersion := "v1", document := "api",
                 entry := { schema := some "Labels", filters := { readWriteOnly := true } } }]

def labelsConfig : Config where
  kind := Config.expectedKind
  apiVersion := Config.expectedApiVersion
  documents := [⟨"api", some "api.yaml", none⟩]
  resources := [labelsResource]

theorem labelsDocument_holds {schema : OpenApi.Schema} (h : labelsDocument.Holds schema) :
    schema = labels ∨ schema = serverTexts ∨ schema = serverText := by
  induction h with
  | component hm =>
    cases List.mem_singleton.mp hm
    exact .inl rfl
  | parameter hp =>
    cases hp with
    | path hm _ => cases hm
    | operation hm _ _ => cases hm
    | component hm => cases hm
  | body hb =>
    cases hb with
    | operation hm _ _ => cases hm
    | component hm => cases hm
  | property _ hm ih =>
    rcases ih with rfl | rfl | rfl
    · cases List.mem_singleton.mp hm
      exact .inr (.inl rfl)
    · cases hm
    · cases hm
  | items _ hi ih =>
    rcases ih with rfl | rfl | rfl
    · cases hi
    · cases hi
      exact .inr (.inr rfl)
    · cases hi
  | additional _ ha ih => rcases ih with rfl | rfl | rfl <;> cases ha
  | branch _ hb ih => rcases ih with rfl | rfl | rfl <;> cases hb

theorem labelsDocument_wellFormed : labelsDocument.WellFormed := by
  intro schema h
  rcases labelsDocument_holds h with rfl | rfl | rfl
  · exact ⟨rfl, fun ht => by simp [labels, OpenApi.Schema.typeName] at ht, .inr rfl⟩
  · exact ⟨rfl, fun _ => rfl, .inl rfl⟩
  · exact ⟨rfl, fun ht => by simp [serverText, OpenApi.Schema.typeName] at ht, .inl rfl⟩

/-- The array is kept, and found to say nothing of its items. -/
theorem array_without_items :
    ∃ generated after, Generator.ofConfig Pipeline.Plugin.all
        ⟨fun _ => .ok labelsDocument, fun _ => .ok labelsDocument⟩ labelsConfig =
          .ok (Generator.ofDocument labelsDocument) ∧
      (Generator.ofDocument labelsDocument).generate labelsResource {} = (.ok generated, after) ∧
      generated.findings ≠ [] ∧
      EmptiesArrays (Generator.ofDocument labelsDocument) {} labelsResource := by
  have hcheck :
    (((Generator.ofDocument labelsDocument).generate labelsResource {}).1.toOption.any fun generated =>
      (generated.definition.schema.bind (·.descend? [specPart, "v1", entryPart, "tags"])).any fun node =>
        node.typeName == "array" && node.items.isNone) = true := by decide +kernel
  obtain ⟨generated, after, hgenerated, htags⟩ := Generator.generate_of_check hcheck
  have hconfig : Generator.ofConfig Pipeline.Plugin.all
      ⟨fun _ => .ok labelsDocument, fun _ => .ok labelsDocument⟩ labelsConfig =
        .ok (Generator.ofDocument labelsDocument) := rfl
  have hdocuments : ∀ mapping ∈ labelsResource.mappings, ∀ document,
      (Generator.ofDocument labelsDocument).Supplies {} mapping.document document → document.WellFormed := by
    rintro mapping - document (hl | ⟨source, hm, -, hl⟩)
    · cases hl
    · cases List.mem_singleton.mp hm
      cases hl
      exact labelsDocument_wellFormed
  obtain ⟨root, hroot, hiff, hcause⟩ := findings_nil_iff hconfig (List.mem_singleton.mpr rfl)
    (Generator.ofDocument_usesAll labelsDocument rfl) hdocuments hgenerated
  rw [hroot, Option.bind_some, Option.any_eq_true] at htags
  obtain ⟨tags, hd, ht⟩ := htags
  rw [Bool.and_eq_true, beq_iff_eq, Option.isNone_iff_eq_none] at ht
  have hwhole : ¬ tags.Whole := fun hw => by simpa [ht.2] using hw ht.1
  refine ⟨generated, after, hconfig, hgenerated, fun hn => ?_, hcause tags (inspected_of_descend hd) hwhole⟩
  exact hwhole ((hiff.mp hn).1 tags (inspected_of_descend hd))

end CrdForge.Generation
