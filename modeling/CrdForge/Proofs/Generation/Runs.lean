import CrdForge.Generation.Report
import CrdForge.Proofs.Pipeline.Resolution
import CrdForge.Proofs.Pipeline.Steps

/-! What a definition that was made comes from.

A generation that succeeds is a run over the mappings of the resource (`generate_ok`): each of them has a
document that the generator supplies, and its plugins are steps on the parts of the draft. -/
namespace CrdForge.Generation

open Pipeline (Draft Job MappingPlugin ExtensionPlugin Parts PluginSet PluginStep ExtensionStep StagedFailure)
open Run

variable {resource : Config.Resource} {set : PluginSet}

namespace Generator

/-! ### Configurations -/

theorem ofConfig_ok {catalog : Pipeline.Catalog} {loaders : OpenApi.Loaders} {config : Config}
    {generator : Generator} (h : ofConfig catalog loaders config = .ok generator) :
    config.check = .ok () ∧ ∃ sets, setsOf catalog config = .ok sets ∧
      generator = { sources := config.documents, sets := sets, loaders := loaders } := by
  obtain ⟨_, hc, h⟩ := except_bind_ok h
  obtain ⟨sets, hs, h⟩ := except_bind_ok h
  cases h
  exact ⟨mapError_ok hc, sets, hs, rfl⟩

/-! ### Sets of plugins -/

/-- Whether a resource is made with all plugins, in the order in which they usually run. -/
def UsesAll (generator : Generator) (resource : Config.Resource) (set : PluginSet) : Prop :=
  generator.setOf resource = .ok set ∧ set.plugins = Pipeline.Plugin.all

/-- The set of all plugins is the default one if a configuration declares none. -/
theorem usesAll_of_config {config : Config} {loaders : OpenApi.Loaders} {generator : Generator}
    (h : ofConfig Pipeline.Plugin.all loaders config = .ok generator) (hs : config.sets = [])
    (hr : resource.pluginSet = none) : generator.UsesAll resource ⟨"default", true, Pipeline.Plugin.all⟩ := by
  obtain ⟨-, sets, hsets, rfl⟩ := ofConfig_ok h
  have hall : setsOf Pipeline.Plugin.all config = .ok [⟨"default", true, Pipeline.Plugin.all⟩] := by
    rw [setsOf, hs]
    rfl
  rw [hall] at hsets
  cases hsets
  refine ⟨?_, rfl⟩
  rw [setOf, hr]
  rfl

namespace UsesAll
variable {generator : Generator} (h : generator.UsesAll resource set)
include h

theorem hasBase : set.hasBase = true := by
  rw [PluginSet.hasBase, h.2]
  rfl

theorem mappingPlugins : set.mappingPlugins = MappingPlugin.all := by
  rw [PluginSet.mappingPlugins, h.2]
  rfl

theorem propertyPlugins : set.propertyPlugins = Conversion.PropertyPlugin.all := by
  rw [PluginSet.propertyPlugins, h.2]
  rfl

theorem extensionPlugins : set.extensionPlugins = ExtensionPlugin.all := by
  rw [PluginSet.extensionPlugins, h.2]
  rfl

end UsesAll

/-! ### Single mappings -/

theorem runPlugin_ok {kind majorVersion plugin : String} {build : Pipeline.Build Unit} {draft after : Draft}
    (h : runPlugin kind majorVersion plugin build draft = .ok after) : build draft = (.ok (), after) := by
  rw [runPlugin] at h
  split at h
  · next draft' hb => rw [hb, Except.ok.inj h]
  · cases h

theorem startDraft_ok {draft : Draft} (hb : set.hasBase = true) (h : startDraft set resource = .ok draft) :
    draft = (Parts.start resource).draft resource := by
  rw [startDraft, hb, if_pos rfl] at h
  have h := runPlugin_ok h
  rw [Parts.startOver_start] at h
  exact (ok_ok h).2.symm

/-- All plugins of a set for one mapping, those that change only annotations last. -/
def MappingStep (set : PluginSet) (job : Job) (parts after : Parts) : Prop :=
  ∃ middle, Each (PluginStep job) set.mappingPlugins parts middle ∧
    Each (ExtensionStep job) set.extensionPlugins middle after

theorem addMapping_ok {job : Job} {parts : Parts} {after : Draft}
    (h : addMapping set job (parts.draft resource) = .ok after) :
    ∃ parts', after = parts'.draft resource ∧ MappingStep set job parts parts' := by
  obtain ⟨draft, hm, he⟩ := except_bind_ok h
  obtain ⟨middle, rfl, hmiddle⟩ := (foldlM_ok hm).onParts (Parts.draft resource)
    fun _ _ _ h => MappingPlugin.run_ok (runPlugin_ok h)
  obtain ⟨parts', rfl, hlast⟩ := (foldlM_ok he).onParts (Parts.draft resource)
    fun _ _ _ h => ExtensionPlugin.run_ok (runPlugin_ok h)
  exact ⟨parts', rfl, middle, hmiddle, hlast⟩

/-! ### Documents -/

/-- Whether a generator may take a document for one of this name: it was
loaded before, or a source of that name has it. -/
def Supplies (generator : Generator) (cache : Cache) (name : String) (document : OpenApi.Document) :
    Prop :=
  cache.documents.lookup name = some document ∨
    ∃ source ∈ generator.sources, source.name = name ∧ generator.loaders.load source = .ok document

/-- Whether a later cache holds only what the generator supplies with an earlier one. -/
def Extends (generator : Generator) (cache after : Cache) : Prop :=
  ∀ name document, after.documents.lookup name = some document → generator.Supplies cache name document

variable {generator : Generator} {cache middle after : Cache}

theorem Extends.refl (generator : Generator) (cache : Cache) : generator.Extends cache cache :=
  fun _ _ h => .inl h

theorem Extends.supplies (h : generator.Extends cache middle) {name : String}
    {document : OpenApi.Document} (hs : generator.Supplies middle name document) :
    generator.Supplies cache name document := by
  rcases hs with hs | hs
  · exact h name document hs
  · exact .inr hs

theorem Extends.trans (h : generator.Extends cache middle) (h' : generator.Extends middle after) :
    generator.Extends cache after := fun name document hl => h.supplies (h' name document hl)

theorem load_ok {source : Config.DocumentSource} {document : OpenApi.Document}
    (h : generator.load source cache = (.ok document, after)) :
    generator.loaders.load source = .ok document ∧
      after.documents = Keyed.insert source.name document cache.documents := by
  obtain ⟨_, _, hm, h⟩ := bind_ok h
  cases hm
  cases hs : generator.loaders.load source with
  | error fault =>
    simp only [hs] at h
    exact absurd h throw_ok
  | ok loaded =>
    simp only [hs] at h
    obtain ⟨_, _, hm, h⟩ := bind_ok h
    cases hm
    obtain ⟨rfl, rfl⟩ := pure_ok h
    exact ⟨rfl, rfl⟩

theorem document_ok {name : String} {document : OpenApi.Document}
    (h : generator.document name cache = (.ok document, after)) :
    generator.Supplies cache name document ∧ generator.Extends cache after := by
  obtain ⟨found, _, hg, h⟩ := bind_ok h
  obtain ⟨rfl, rfl⟩ := get_ok hg
  cases hl : cache.documents.lookup name with
  | some known =>
    simp only [hl] at h
    obtain ⟨rfl, rfl⟩ := pure_ok h
    exact ⟨.inl hl, .refl generator cache⟩
  | none =>
    simp only [hl] at h
    cases hf : generator.sources.find? (·.name == name) with
    | none =>
      simp only [hf] at h
      exact absurd h throw_ok
    | some source =>
      simp only [hf] at h
      have hn : source.name = name := by simpa using List.find?_some hf
      obtain ⟨hs, ha⟩ := load_ok h
      refine ⟨.inr ⟨source, List.mem_of_find?_eq_some hf, hn, hs⟩, fun other document' ho => ?_⟩
      rw [ha, Keyed.lookup_insert] at ho
      split at ho
      · next he =>
        cases ho
        exact .inr ⟨source, List.mem_of_find?_eq_some hf, he.symm, hs⟩
      · exact .inl ho

/-! ### All mappings -/

/-- The plugins for a mapping, with a document that the generator supplies. -/
def Adds (generator : Generator) (set : PluginSet) (resource : Config.Resource) (cache : Cache)
    (mapping : Config.Mapping) (parts after : Parts) : Prop :=
  ∃ document, generator.Supplies cache mapping.document document ∧
    MappingStep set ⟨resource, mapping, document, set.propertyPlugins⟩ parts after

theorem addMappings_ok {mappings : List Config.Mapping} {parts : Parts} {draft : Draft}
    (h : generator.addMappings set resource mappings (parts.draft resource) cache = (.ok draft, after)) :
    ∃ parts', draft = parts'.draft resource ∧ Each (generator.Adds set resource cache) mappings parts parts' ∧
      generator.Extends cache after := by
  induction mappings generalizing parts cache with
  | nil =>
    obtain ⟨rfl, rfl⟩ := pure_ok h
    exact ⟨parts, rfl, .nil parts, .refl generator cache⟩
  | cons mapping rest ih =>
    obtain ⟨document, middle, hd, h⟩ := bind_ok h
    obtain ⟨hs, he⟩ := document_ok hd
    obtain ⟨next, _, hl, h⟩ := bind_ok h
    obtain ⟨ha, rfl⟩ := liftExcept_ok hl
    obtain ⟨parts', rfl, hm⟩ := addMapping_ok (mapError_ok ha)
    obtain ⟨last, rfl, hr, hx⟩ := ih h
    refine ⟨last, rfl, .cons ⟨document, hs, hm⟩ (hr.mono ?_), he.trans hx⟩
    rintro other s s' ⟨document', hs', hm'⟩
    exact ⟨document', he.supplies hs', hm'⟩

/-! ### Definitions -/

theorem finish_schema (draft : Draft) : (finish draft).schema = draft.definition.schema := by
  delta finish
  cases draft.tree.text? <;> rfl

theorem finish_spec (parts : Parts) :
    (finish (parts.draft resource)).part? Pipeline.specPart = some parts.spec := by
  rw [Crd.Definition.part?, finish_schema]
  rfl

/-- A generation that succeeds adds the mappings of its resource, none of
them twice, to a definition that was just started. -/
theorem generate_run {generated : Generated} (hs : generator.setOf resource = .ok set)
    (hb : set.hasBase = true) (h : generator.generate resource cache = (.ok generated, after)) :
    resource.majorVersions.Nodup ∧ ∃ draft, generated.definition = finish draft ∧
      generated.findings = generator.inspect generated.definition ∧
      generator.addMappings set resource resource.mappings ((Parts.start resource).draft resource) cache =
        (.ok draft, after) := by
  rw [generate] at h
  cases hr : Pipeline.repeated? [] resource.majorVersions with
  | some majorVersion =>
    simp only [hr] at h
    exact absurd h throw_ok
  | none =>
    simp only [hr] at h
    obtain ⟨found, _, hl, h⟩ := bind_ok h
    obtain ⟨hf, rfl⟩ := liftExcept_ok hl
    rw [hs] at hf
    cases hf
    obtain ⟨draft, _, hl, h⟩ := bind_ok h
    obtain ⟨hd, rfl⟩ := liftExcept_ok hl
    obtain rfl := startDraft_ok hb (mapError_ok hd)
    obtain ⟨draft, _, hm, h⟩ := bind_ok h
    obtain ⟨hg, rfl⟩ := pure_ok h
    refine ⟨(Pipeline.repeated?_eq_none.mp hr).1, draft, ?_, ?_, hm⟩
    · rw [← hg]
    · rw [← hg]

/-- **A definition that was made comes from a run over the mappings of its resource.** -/
theorem generate_ok {generated : Generated} (hs : generator.setOf resource = .ok set)
    (hb : set.hasBase = true) (h : generator.generate resource cache = (.ok generated, after)) :
    resource.majorVersions.Nodup ∧ ∃ parts, generated.definition = finish (parts.draft resource) ∧
      generated.findings = generator.inspect generated.definition ∧
      Each (generator.Adds set resource cache) resource.mappings (Parts.start resource) parts ∧
      generator.Extends cache after := by
  obtain ⟨hd, draft, hdefinition, hfindings, hm⟩ := generate_run hs hb h
  obtain ⟨parts, rfl, hm, he⟩ := addMappings_ok hm
  exact ⟨hd, parts, hdefinition, hfindings, hm, he⟩

/-! ### Single documents -/

/-- A generator with one document, named `api`, and all plugins. -/
def ofDocument (document : OpenApi.Document) : Generator where
  sources := [⟨"api", some "api.yaml", none⟩]
  sets := [⟨"default", true, Pipeline.Plugin.all⟩]
  loaders := ⟨fun _ => .ok document, fun _ => .ok document⟩

theorem ofDocument_usesAll (document : OpenApi.Document) (h : resource.pluginSet = none) :
    (ofDocument document).UsesAll resource ⟨"default", true, Pipeline.Plugin.all⟩ := by
  refine ⟨?_, rfl⟩
  rw [setOf, h]
  rfl

/-- A generation whose result passes a check has one. -/
theorem generate_of_check {generator : Generator} {cache : Cache} {check : Generated → Bool}
    (h : (generator.generate resource cache).1.toOption.any check = true) :
    ∃ generated after, generator.generate resource cache = (.ok generated, after) ∧
      check generated = true := by
  rcases hg : generator.generate resource cache with ⟨_ | generated, after⟩
  · rw [hg] at h
    cases h
  · rw [hg] at h
    exact ⟨generated, after, rfl, h⟩

end Generator

end CrdForge.Generation
