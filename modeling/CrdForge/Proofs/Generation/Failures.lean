import CrdForge.Proofs.Config.Check
import CrdForge.Proofs.Pipeline.Failures

/-! Why there may be no definition of a resource, if its configuration may be used.

A generator of such a configuration knows every document that a mapping names, and has a default set.
With a set that starts the definition over, the parts of the schema are there for all plugins, and so is
the version if it is added before others ask for it. What is left is `Cause`, in one of four kinds. -/
namespace CrdForge.Generation

open Pipeline (Build Catalog Draft Stocked Job MappingPlugin Parts PluginSet StagedFailure Unresolved
  entryPart specPart
  statusPart)
open Run

/-! ### Default sets -/

section
variable {catalog : Catalog} {declarations : List Config.SetDeclaration} {sets chosen : List PluginSet}

theorem default_of_chosen (h : Pipeline.Chosen sets chosen) (hne : sets ≠ []) :
    ∃ set ∈ chosen, set.default = true := by
  cases h with
  | none => exact absurd rfl hne
  | @declared _ set hf =>
    have hm : set ∈ sets.filter (·.default) := hf ▸ List.mem_singleton_self set
    exact ⟨set, List.mem_filter.mp hm⟩
  | first _ => exact ⟨_, List.mem_cons_self .., rfl⟩

/-- Declarations that make sets make a default one, if there are any. -/
theorem default_of_resolveSets (h : Pipeline.resolveSets catalog declarations = .ok sets)
    (hne : declarations ≠ []) :
    ∃ set ∈ sets, set.default = true := by
  rw [Pipeline.resolveSets] at h
  cases hr : Pipeline.repeated? [] (declarations.map (·.name)) with
  | some name =>
    rw [hr] at h
    cases h
  | none =>
    rw [hr] at h
    obtain ⟨last, hl, hchosen⟩ := except_bind_ok h
    have hrun := (Pipeline.Queue.start_sound catalog declarations).run (Pipeline.maxSteps declarations.length)
      (Nat.sub_le ..)
    rw [hl] at hrun
    obtain ⟨⟨⟨done, hdone, hperm⟩, -⟩, hw⟩ := hrun
    rw [hw, List.append_nil] at hperm
    have hspec := Pipeline.chooseDefault_spec last.resolved
    rw [hchosen] at hspec
    refine default_of_chosen hspec.1 ?_
    -- Every declaration was resolved.
    rintro hnil
    have hnames := hdone.names
    rw [hnil, List.map_nil, eq_comm, List.map_eq_nil_iff] at hnames
    rw [hnames] at hperm
    exact hne hperm.nil_eq.symm

end

namespace Generator

/-! ### Generators of configurations -/

section
variable {catalog : Catalog} {loaders : OpenApi.Loaders} {config : Config} {generator : Generator}

/-- A generator of a configuration has a default set. -/
theorem exists_default (h : ofConfig catalog loaders config = .ok generator) :
    ∃ set ∈ generator.sets, set.default = true := by
  obtain ⟨-, sets, hs, rfl⟩ := ofConfig_ok h
  refine default_of_resolveSets (mapError_ok hs) ?_
  split
  · simp
  · next hne => simpa using hne

/-- A generator of a configuration has a source of each document that a mapping names. -/
theorem exists_source (h : ofConfig catalog loaders config = .ok generator) {resource : Config.Resource}
    (hr : resource ∈ config.resources) {mapping : Config.Mapping} (hm : mapping ∈ resource.mappings) :
    ∃ source, generator.sources.find? (·.name == mapping.document) = some source := by
  obtain ⟨hc, sets, -, rfl⟩ := ofConfig_ok h
  have hnames := (Config.check_of_checkResources (Config.parts_of_check hc).2 resource hr).2
  obtain ⟨source, hs, hn⟩ := List.mem_map.mp (Config.Resource.declared_of_check hnames mapping hm)
  refine Option.isSome_iff_exists.mp (List.find?_isSome.mpr ⟨source, hs, ?_⟩)
  exact beq_iff_eq.mpr hn

end

/-! ### Plugins -/

section
variable {resource : Config.Resource} {set : PluginSet}

theorem runPlugin_spec {P Q : Draft → Prop} {F : Pipeline.Failure → Prop} {build : Build Unit} {draft : Draft}
    (h : Triple P build (fun _ => Q) F) (hd : P draft) (kind majorVersion plugin : String) :
    Yields Q (fun staged => F staged.failure) (runPlugin kind majorVersion plugin build draft) := by
  have hstep := h draft hd
  rw [runPlugin]
  rcases hb : build draft with ⟨failure | _, after⟩ <;> rwa [hb] at hstep

/-- The plugins of a set for a mapping keep the parts of the schema, and do not fail for the lack of one.
They do not fail for the lack of the version either, if that is added first. -/
theorem addMapping_spec (set : PluginSet) (job : Job) (parts : Parts) :
    Yields (fun after => ∃ parts' : Parts, after = parts'.draft resource)
      (fun staged => staged.failure.Possible set.VersionFirst)
        (addMapping set job (parts.draft resource)) := by
  have hkept {added : Prop} {draft : Draft} (hd : Stocked resource job added draft)
    (plugins : List MappingPlugin) :
      Yields (fun after => ∃ parts : Parts, after = parts.draft resource)
        (fun staged => staged.failure.Possible added)
        (plugins.foldlM (fun draft plugin =>
          runPlugin job.resource.kind job.majorVersion plugin.name (plugin.run job) draft) draft) :=
    (Yields.foldlM (fun plugin draft hd => runPlugin_spec plugin.run_triple hd _ _ _) hd).mono
      (fun _ h => h.parts) fun _ h => h
  refine Yields.bind (Q := fun after => ∃ parts : Parts, after = parts.draft resource) ?_ ?_
  · by_cases hfirst : set.VersionFirst
    · rw [eq_true hfirst]
      rcases hfirst.head with hm | ⟨rest, hm⟩
      · rw [hm]
        exact ⟨parts, rfl⟩
      · rw [hm, List.foldlM_cons]
        have hadded : Triple (Stocked resource job False) (MappingPlugin.majorVersion.run job)
            (fun _ => Stocked resource job True) (Pipeline.Failure.Possible True) :=
          Pipeline.addVersion_triple.mono (fun _ h => h) (fun _ _ h => h) fun _ => False.elim
        exact (runPlugin_spec hadded ⟨parts, rfl, False.elim⟩ _ _ _).bind fun draft hd => hkept hd rest
    · exact hkept ⟨parts, rfl, fun h => absurd h hfirst⟩ set.mappingPlugins
  · rintro _ ⟨parts', rfl⟩
    have hannotated : Yields (Stocked resource job False)
      (fun staged => staged.failure = .emptyReferenceTarget)
        (set.extensionPlugins.foldlM (fun draft plugin =>
          runPlugin job.resource.kind job.majorVersion plugin.name (plugin.run job) draft)
            (parts'.draft resource)) :=
      Yields.foldlM (fun plugin draft hd => runPlugin_spec plugin.run_triple hd _ _ _)
        ⟨parts', rfl, False.elim⟩
    refine hannotated.mono (fun _ h => h.parts) fun staged h => ?_
    rw [h]
    trivial

/-! ### Definitions -/

variable {generator : Generator}

/-- Why there may be no definition of a resource, from a generator with a
default set and with a source of each of its documents. -/
inductive Cause (generator : Generator) (resource : Config.Resource) : Failure → Prop
  | repeated (majorVersion : String) :
    Cause generator resource (.duplicateMajorVersion resource.kind majorVersion)
  | unknownSet (name : String) : Cause generator resource (.unknownSet resource.kind name)
  | unloaded {source : Config.DocumentSource} {fault : OpenApi.LoadFault} : source ∈ generator.sources →
    generator.loaders.load source = .error fault → Cause generator resource (.unloaded source.name fault)
  | plugin {set : PluginSet} {staged : StagedFailure} : generator.setOf resource = .ok set →
    (set.hasBase = true → staged.failure.Possible set.VersionFirst) →
      Cause generator resource (.plugin staged)

theorem setOf_yields (h : ∃ set ∈ generator.sets, set.default = true) :
    Yields (fun set => generator.setOf resource = .ok set) (Cause generator resource)
      (generator.setOf resource) := by
  rw [setOf]
  split
  · split
    · rfl
    · exact .unknownSet _
  · split
    · rfl
    · next hf =>
      obtain ⟨set, hm, hdefault⟩ := h
      exact absurd hdefault (List.find?_eq_none.mp hf set hm)

theorem document_triple {name : String} {source : Config.DocumentSource}
    (h : generator.sources.find? (·.name == name) = some source) :
    Triple (fun _ => True) (generator.document name) (fun _ _ => True) (Cause generator resource) := by
  refine .bind (Q := fun _ _ => True) (fun _ _ => trivial) fun cache => ?_
  split
  · exact .pure fun _ _ => trivial
  · rw [h]
    refine .bind (Q := fun _ _ => True) (fun _ _ => trivial) fun _ => ?_
    split
    · next hl => exact .throw (.unloaded (List.mem_of_find?_eq_some h) hl)
    · exact .bind (Q := fun _ _ => True) (fun _ _ => trivial) fun _ => .pure fun _ _ => trivial

/-- Whether a draft has all parts, if its set starts the definition over. -/
def Started (set : PluginSet) (resource : Config.Resource) (draft : Draft) : Prop :=
  set.hasBase = true → ∃ parts : Parts, draft = parts.draft resource

theorem startDraft_yields (set : PluginSet) (resource : Config.Resource) {F : Failure → Prop} :
    Yields (Started set resource) F ((startDraft set resource).mapError .plugin) := by
  rw [startDraft]
  split
  · exact fun _ => ⟨Parts.start resource, rfl⟩
  · next hb => exact fun h => absurd h hb

theorem addMapping_yields (hset : generator.setOf resource = .ok set) (job : Job) {draft : Draft}
    (hd : Started set resource draft) :
    Yields (Started set resource) (Cause generator resource)
      ((addMapping set job draft).mapError .plugin) := by
  refine .mapError ?_
  by_cases hb : set.hasBase = true
  · obtain ⟨parts, rfl⟩ := hd hb
    exact (addMapping_spec set job parts).mono (fun _ h _ => h) fun _ h => .plugin hset fun _ => h
  · cases addMapping set job draft with
    | ok after => exact fun h => absurd h hb
    | error staged => exact .plugin hset fun h => absurd h hb

theorem addMappings_triple (hset : generator.setOf resource = .ok set) {mappings : List Config.Mapping}
    (h : ∀ mapping ∈ mappings, ∃ source, generator.sources.find? (·.name == mapping.document) = some source)
    {draft : Draft} (hd : Started set resource draft) :
    Triple (fun _ => True) (generator.addMappings set resource mappings draft) (fun _ _ => True)
      (Cause generator resource) := by
  induction mappings generalizing draft with
  | nil => exact .pure fun _ _ => trivial
  | cons mapping rest ih =>
    obtain ⟨source, hsource⟩ := h mapping (List.mem_cons_self ..)
    refine .bind (document_triple hsource) fun document => ?_
    refine .bind (.liftExcept (addMapping_yields hset _ hd)) fun next => ?_
    rintro cache ⟨hnext, -⟩
    exact ih (fun other ho => h other (List.mem_cons_of_mem _ ho)) hnext cache trivial

/-- **What there is no definition of has one of four causes.** -/
theorem generate_triple (hdefault : ∃ set ∈ generator.sets, set.default = true)
    (h : ∀ mapping ∈ resource.mappings,
      ∃ source, generator.sources.find? (·.name == mapping.document) = some source) :
    Triple (fun _ => True) (generator.generate resource) (fun _ _ => True) (Cause generator resource) := by
  rw [generate]
  split
  · exact .throw (.repeated _)
  · refine .bind (.liftExcept (setOf_yields hdefault)) fun set => ?_
    rintro cache ⟨hset, -⟩
    refine Triple.bind (.liftExcept (I := fun _ => True) (startDraft_yields set resource)) ?_ cache trivial
    rintro draft cache ⟨hdraft, -⟩
    exact Triple.bind (addMappings_triple hset h hdraft) (fun _ => .pure fun _ _ => trivial) cache trivial

end

/-- **A configuration that may be used rules out what only a mistake in the program could lead to.**
There is a default set and a source of every document; a document that was not loaded has a path or a
package, and its loader said why. With a set that starts the definition over no part of the schema is
missing, and no version if it is added first. -/
theorem generate_failure {config : Config} {loaders : OpenApi.Loaders} {generator : Generator}
    {resource : Config.Resource} {cache after : Cache} {failure : Failure}
    (hg : ofConfig Pipeline.Plugin.all loaders config = .ok generator) (hr : resource ∈ config.resources)
    (h : generator.generate resource cache = (.error failure, after)) :
    failure ≠ .noDefaultSet ∧ (∀ name, failure ≠ .unknownDocument name) ∧
      (∀ name fault, failure = .unloaded name fault → ∃ source ∈ config.documents, source.name = name ∧
        source.path.isSome ≠ source.package.isSome ∧ loaders.load source = .error fault) ∧
      ∀ set staged, generator.setOf resource = .ok set → set.hasBase = true → failure = .plugin staged →
        staged.failure ≠ .missingPart specPart ∧ staged.failure ≠ .missingPart statusPart ∧
          (set.VersionFirst → ∀ version, staged.failure ≠ .versionNotFound version) := by
  have hcause : Cause generator resource failure :=
    (generate_triple (exists_default hg) fun mapping hm => exists_source hg hr hm).error trivial h
  obtain ⟨hcheck, sets, -, hgenerator⟩ := ofConfig_ok hg
  refine ⟨?_, fun name => ?_, fun name fault hf => ?_, fun set staged hset hb hf => ?_⟩
  · rintro rfl
    cases hcause
  · rintro rfl
    cases hcause
  · subst hf
    cases hcause with
    | unloaded hm hl =>
      rw [hgenerator] at hm hl
      have hsource := Config.check_of_checkDocuments (Config.parts_of_check hcheck).1 _ hm
      exact ⟨_, hm, rfl, Config.DocumentSource.one_of_check hsource, hl⟩
  · subst hf
    cases hcause with
    | @plugin found _ hfound hpossible =>
      obtain rfl : found = set := Except.ok.inj (hfound.symm.trans hset)
      have hpossible := hpossible hb
      refine ⟨fun he => ?_, fun he => ?_, fun hfirst version he => ?_⟩ <;> rw [he] at hpossible
      · exact absurd hpossible (by decide : specPart ≠ entryPart)
      · exact absurd hpossible (by decide : statusPart ≠ entryPart)
      · exact hpossible hfirst

/-! ### A schema that is not there -/

/-- A version whose entry has a name that no schema has. -/
def lost : Config.Resource where
  group := "example.com"
  version := "v1"
  kind := "Widget"
  mappings := [{ majorVersion := "v1", document := "api", entry := { schema := some "Widget" } }]

def lostConfig : Config where
  kind := Config.expectedKind
  apiVersion := Config.expectedApiVersion
  documents := [⟨"api", some "api.yaml", none⟩]
  resources := [lost]

/-- The plugin for entries fails, for want of a schema and not of a version. -/
theorem lost_schema_fails : ∃ generator after staged,
    ofConfig Pipeline.Plugin.all ⟨fun _ => .ok {}, fun _ => .ok {}⟩ lostConfig = .ok generator ∧
      generator.generate lost {} = (.error (.plugin staged), after) ∧
      staged.failure = .schemaNotFound entryPart "Widget" ∧ staged.failure ≠ .versionNotFound "v1" := by
  have hconfig : ofConfig Pipeline.Plugin.all ⟨fun _ => .ok {}, fun _ => .ok {}⟩ lostConfig =
    .ok (ofDocument {}) := rfl
  have hall : (ofDocument {}).UsesAll lost ⟨"default", true, Pipeline.Plugin.all⟩ := ofDocument_usesAll {} rfl
  have hfirst : PluginSet.VersionFirst ⟨"default", true, Pipeline.Plugin.all⟩ := by
    intro before plugin after hs hne
    rw [hall.mappingPlugins] at hs
    cases before with
    | nil => exact absurd (List.cons.inj hs).1.symm hne
    | cons first _ => exact (List.cons.inj hs).1 ▸ List.mem_cons_self ..
  have hg : ((ofDocument {}).generate lost {}).1 =
      .error (.plugin ⟨"entry", "Widget", "v1", .schemaNotFound entryPart "Widget"⟩) := by rfl
  have h := generate_failure hconfig (List.mem_singleton.mpr rfl) (Prod.ext hg rfl)
  exact ⟨_, _, _, hconfig, Prod.ext hg rfl, rfl, (h.2.2.2 _ _ hall.1 hall.hasBase rfl).2.2 hfirst "v1"⟩

end Generator

end CrdForge.Generation
