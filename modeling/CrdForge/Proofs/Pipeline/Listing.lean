import CrdForge.Proofs.Pipeline.Orphans

/-! What all plugins list for a version.

Conversions answer alike whatever is said beside the schema, so the schema of a version is a function of
its job, but for the description of the entry (`Makes`): the parameters one after another, then the
entry, the references in their place, and the choices. A whole mapping puts such a schema at its version
(`makes_of_mapping`) and nothing changes it afterwards. -/
namespace CrdForge.Pipeline

open Generation.Generator (MappingStep)
open Run

/-! ### Sources -/

namespace Job
variable (job : Job)

/-- What becomes of a parameter, if it has a schema and that has a conversion. -/
def parameterShape? (parameter : OpenApi.Parameter) : Option Crd.Schema :=
  (job.parameterSource? parameter).bind job.shape

/-- Lists a parameter in a version, if there is something to list. -/
def withParameter (version : Crd.Schema) (parameter : OpenApi.Parameter) : Crd.Schema :=
  match job.parameterShape? parameter with
  | some converted => Pipeline.withParameter parameter converted version
  | none => version

/-- What becomes of the entry, if it has a source and that has a conversion. -/
def entryShape? : Option Crd.Schema :=
  (job.partSource? job.mapping.entry entryPart (.property entryPart)).bind job.shape

/-- Lists the entry in a version, if there is something to list. -/
def withEntry (description : String) (version : Crd.Schema) : Crd.Schema :=
  match job.entryShape? with
  | some converted => version.insert entryPart (described description converted)
  | none => version

/-- What becomes of the status, if it has a source and that has a conversion. -/
def statusShape? : Option Crd.Schema :=
  (job.partSource? job.mapping.status statusPart .status).bind job.shape

/-- Lists the status of a version, if there is something to list. -/
def withStatus (description : String) (status : Crd.Schema) : Crd.Schema :=
  match job.statusShape? with
  | some converted => status.insert job.majorVersion (described description converted)
  | none => status

end Job

/-- The references of a mapping listed in a version, and those of its entry in the entry. -/
inductive Refers (mapping : Config.Mapping) (version : Crd.Schema) : Crd.Schema → Prop
  | version {listed : Crd.Schema} : withReferences version mapping.parameters.references = (listed, none) →
    mapping.entry.references = [] → Refers mapping version listed
  | entry {listed entry whole : Crd.Schema} :
    withReferences version mapping.parameters.references = (listed, none) →
    listed.property? entryPart = some entry → withReferences entry mapping.entry.references = (whole, none) →
    Refers mapping version (listed.insert entryPart whole)

/-- What all plugins make of a version. -/
inductive Job.Makes (job : Job) : Crd.Schema → Prop
  | mk {description : String} {referenced : Crd.Schema} :
    Refers job.mapping (job.withEntry description (job.parameters.foldl job.withParameter (emptyVersion job)))
      referenced →
    Makes job (versionWithChoices job.mapping referenced)

/-! ### Steps -/

section
variable {set : PluginSet} {job : Job} {parts after : Parts} {known : Crd.Schema}

theorem ParameterStep.version?_eq {node : Extension.NodeId} {parameter : OpenApi.Parameter}
    (h : ParameterStep job node parameter parts after) (hv : parts.version? job = some known) :
    after.version? job = some (job.withParameter known parameter) ∧ after.status = parts.status := by
  rw [Job.withParameter, Job.parameterShape?, Job.parameterSource?]
  cases h with
  | passed hn =>
    rw [hn]
    exact ⟨hv, rfl⟩
  | left hs hc =>
    have hshape : job.shape ⟨.property parameter.name, job.mapping.parameters, _⟩ = none :=
      Job.conversion_shape hc
    rw [hs, Option.map_some, Option.bind_some, hshape]
    exact ⟨hv, rfl⟩
  | @listed _ _ _ version hs hc hv' =>
    have hshape : job.shape ⟨.property parameter.name, job.mapping.parameters, _⟩ = some _ :=
      Job.conversion_shape hc
    obtain rfl : version = known := Option.some.inj (hv'.symm.trans hv)
    rw [hs, Option.map_some, Option.bind_some, hshape]
    exact ⟨Parts.version?_withVersion .., rfl⟩

theorem ParametersStep.version?_eq (h : ParametersStep job parts after)
    (hv : parts.version? job = some known) :
    after.version? job = some (job.parameters.foldl job.withParameter known) ∧
      after.status = parts.status := by
  cases h with
  | unset hset =>
    rw [Job.parameters_of_unset hset]
    exact ⟨hv, rfl⟩
  | @set _ parameters hset hparameters hrun =>
    rw [Job.parameters_of_set hset hparameters]
    refine hrun.all (fun done s => s.version? job = some (done.foldl job.withParameter known) ∧
      s.status = parts.status) ?_ ⟨hv, rfl⟩
    rintro done parameter s s' - ⟨hs, hstatus⟩ hstep
    obtain ⟨hnext, hsame⟩ := hstep.version?_eq hs
    rw [List.foldl_append]
    exact ⟨hnext, hsame.trans hstatus⟩

theorem EntryStep.version?_eq (h : EntryStep job parts after) (hv : parts.version? job = some known) :
    ∃ description, after.version? job = some (job.withEntry description known) ∧
      after.status = parts.status := by
  cases h with
  | unset hs =>
    refine ⟨"", ?_, rfl⟩
    rw [Job.withEntry, Job.entryShape?, Job.partSource?, hs]
    exact hv
  | @listed schema _ _ version description hs hc hv' =>
    have hshape : job.shape ⟨.property entryPart, job.mapping.entry, schema⟩ = some _ :=
      Job.conversion_shape hc
    obtain rfl : version = known := Option.some.inj (hv'.symm.trans hv)
    refine ⟨description, ?_, rfl⟩
    rw [Job.withEntry, Job.entryShape?, Job.partSource?, hs, Option.bind_some, hshape]
    exact Parts.version?_withVersion ..

theorem StatusStep.status_eq (h : StatusStep job parts after) :
    after.version? job = parts.version? job ∧
      ∃ description, after.status = job.withStatus description parts.status := by
  cases h with
  | unset hs =>
    refine ⟨rfl, "", ?_⟩
    rw [Job.withStatus, Job.statusShape?, Job.partSource?, hs]
    rfl
  | @left schema _ hs hc =>
    have hshape : job.shape ⟨.status, job.mapping.status, schema⟩ = none := Job.conversion_shape hc
    refine ⟨rfl, "", ?_⟩
    rw [Job.withStatus, Job.statusShape?, Job.partSource?, hs, Option.bind_some, hshape]
    rfl
  | @listed schema _ _ description hs hc =>
    have hshape : job.shape ⟨.status, job.mapping.status, schema⟩ = some _ := Job.conversion_shape hc
    refine ⟨rfl, description, ?_⟩
    rw [Job.withStatus, Job.statusShape?, Job.partSource?, hs, Option.bind_some, hshape]
    rfl

theorem ReferencesStep.version?_eq (h : ReferencesStep job parts after)
    (hv : parts.version? job = some known) :
    ∃ referenced, after.version? job = some referenced ∧ Refers job.mapping known referenced ∧
      after.status = parts.status := by
  cases h with
  | unset hparameters hentry =>
    refine ⟨known, hv, .version ?_ hentry, rfl⟩
    rw [hparameters]
    rfl
  | @version version listed hv' hentry hl =>
    obtain rfl : version = known := Option.some.inj (hv'.symm.trans hv)
    exact ⟨listed, Parts.version?_withVersion .., .version hl hentry, rfl⟩
  | @entry version listed entry whole hv' _ hl he hw =>
    obtain rfl : version = known := Option.some.inj (hv'.symm.trans hv)
    exact ⟨_, Parts.version?_withVersion .., .entry hl he hw, rfl⟩

/-- What is asked for after the version was added and changed. -/
theorem AsksFor.spec_eq {first : Crd.Schema} (h : AsksFor job (parts.withVersion job first) after)
    (hv : after.version? job = some known) : after.spec = parts.spec.insert job.majorVersion known := by
  have hone : ∃ version, after.spec = parts.spec.insert job.majorVersion version := by
    rcases h with h | ⟨version, h⟩
    · exact ⟨first, h⟩
    · exact ⟨version, h.trans (by simp [Parts.withVersion, Crd.Schema.insert])⟩
  obtain ⟨version, hs⟩ := hone
  rw [Parts.version?, hs, property?_insert, if_pos rfl] at hv
  rw [hs, Option.some.inj hv]

/-- **A mapping puts what all plugins make of its version at the version**, and its status at the status. -/
theorem makes_of_mapping (hset : set.mappingPlugins = MappingPlugin.all)
    (h : MappingStep set job parts after) :
    ∃ version, job.Makes version ∧ after.spec = withMapping job.resource job.mapping parts.spec version ∧
      ∃ description, after.status = job.withStatus description parts.status := by
  obtain ⟨whole, hm, he⟩ := h
  rw [hset] at hm
  rcases hm with _ | ⟨hversion, hm⟩
  cases hversion
  obtain ⟨listed, hlisted, hlast⟩ := Each.append (show Each (PluginStep job)
    ([.parameters, .entry, .status, .references, .choices] ++ [.versionChoice, .connection, .columns])
      _ whole from hm)
  -- What is asked for until the choice between versions is the version alone.
  have hasks : AsksFor job (parts.withVersion job (emptyVersion job)) listed :=
    .each hlisted fun plugin hp s s' h => by
      refine h.asksFor ?_ ?_ <;> rintro rfl <;> simp at hp
  rcases hlisted with _ | ⟨hparameters, _ | ⟨hentry, _ | ⟨hstatus', _ | ⟨hreferences, _ | ⟨hchoices, hnil⟩⟩⟩⟩⟩
  cases hparameters with | parameters hparameters =>
  cases hentry with | entry hentry =>
  cases hstatus' with | status hstatus' =>
  cases hreferences with | references hreferences =>
  cases hnil
  obtain ⟨hparameters, hs₁⟩ := hparameters.version?_eq (Parts.version?_withVersion ..)
  obtain ⟨_, hentry, hs₂⟩ := hentry.version?_eq hparameters
  obtain ⟨hkept, description, hs₃⟩ := hstatus'.status_eq
  obtain ⟨referenced, hreferenced, hrefers, hs₄⟩ := hreferences.version?_eq (hkept.trans hentry)
  cases hchoices with | choices hv =>
  obtain rfl := Option.some.inj (hreferenced.symm.trans hv)
  rcases hlast with _ | ⟨hchoice, _ | ⟨hconnection, _ | ⟨hcolumns, hnil⟩⟩⟩
  cases hchoice
  cases hconnection
  cases hcolumns
  cases hnil
  refine ⟨_, .mk hrefers, ?_, description, ?_⟩
  · have hlisted := hasks.spec_eq (Parts.version?_withVersion ..)
    rw [extensions_spec he, hlisted]
    rfl
  · rw [extensions_status he]
    exact hs₄.trans (hs₃.trans (by rw [hs₂, hs₁]; rfl))

end

/-! ### Runs -/

section
variable {resource : Config.Resource} {mapping : Config.Mapping}
  {spec version schema : Crd.Schema} {name : String}

theorem property?_withMapping_self :
    (withMapping resource mapping spec version).property? mapping.majorVersion = some version := by
  rw [withMapping, property?_withConnectionRules]
  refine property?_withConnection_some ?_
  rw [property?_withVersionChoice, property?_insert, if_pos rfl]

/-- What is listed stays, but for the version of the mapping. -/
theorem property?_withMapping_some (hn : name ≠ mapping.majorVersion)
    (h : spec.property? name = some schema) :
    (withMapping resource mapping spec version).property? name = some schema := by
  rw [withMapping, property?_withConnectionRules]
  refine property?_withConnection_some ?_
  rwa [property?_withVersionChoice, property?_insert, if_neg hn]

/-- The connection is listed with the first mapping, unless that has its name. -/
theorem property?_withMapping_connection (hn : connectionProperty ≠ mapping.majorVersion) :
    (withMapping resource mapping spec version).property? connectionProperty =
      some ((spec.property? connectionProperty).getD connectionSchema) := by
  cases h : spec.property? connectionProperty with
  | some schema => exact property?_withMapping_some hn h
  | none =>
    have hnone : Keyed.has connectionProperty (withVersionChoice resource.majorVersions mapping.majorVersion
        (spec.insert mapping.majorVersion version)).properties = false := by
      have hl := property?_withVersionChoice resource.majorVersions mapping.majorVersion
        (spec.insert mapping.majorVersion version) connectionProperty
      rw [property?_insert, if_neg hn, h] at hl
      simpa [Keyed.has, Crd.Schema.property?] using hl
    rw [withMapping, property?_withConnectionRules, withConnection,
      if_neg (by simp [hnone]), property?_insert, if_pos rfl]
    rfl

theorem status_withStatus {job : Job} (description : String) (status : Crd.Schema) (name : String) :
    (job.withStatus description status).property? name =
      if name = job.majorVersion then
        (job.statusShape?.map (described description)).or (status.property? name)
      else status.property? name := by
  rw [Job.withStatus]
  cases job.statusShape? with
  | none => simp
  | some converted =>
    dsimp only
    rw [property?_insert]
    split <;> rfl

/-- What a mapping leaves of its version in what is asked for, and of its status in what is observed. -/
structure Completed (job : Job) (parts : Parts) : Prop where
  version : ∃ version, job.Makes version ∧ parts.version? job = some version
  status : ∃ description, parts.status.property? job.majorVersion =
    (job.statusShape?.map (described description)).or
      ((Parts.start job.resource).status.property? job.majorVersion)

/-- What mappings that are done leave of the parts. -/
structure Done (generator : Generation.Generator) (set : PluginSet) (resource : Config.Resource)
    (cache : Generation.Cache) (done : List Config.Mapping) (parts : Parts) : Prop where
  completed : ∀ mapping ∈ done, ∃ document, generator.Supplies cache mapping.document document ∧
    Completed ⟨resource, mapping, document, set.propertyPlugins⟩ parts
  status : ∀ name, name ∉ done.map (·.majorVersion) →
    parts.status.property? name = (Parts.start resource).status.property? name
  connection : connectionProperty ∉ done.map (·.majorVersion) →
    ∀ schema, parts.spec.property? connectionProperty = some schema → schema = connectionSchema

variable {generator : Generation.Generator} {set : PluginSet} {cache : Generation.Cache} {parts after : Parts}
  {done : List Config.Mapping}

theorem Completed.step {job job' : Job} (h : Completed job parts) (hn : job.majorVersion ≠ job'.majorVersion)
    {version : Crd.Schema} {description : String}
    (hspec : after.spec = withMapping job'.resource job'.mapping parts.spec version)
    (hstatus : after.status = job'.withStatus description parts.status) : Completed job after where
  version := by
    obtain ⟨known, hmakes, hv⟩ := h.version
    refine ⟨known, hmakes, ?_⟩
    rw [Parts.version?, hspec]
    exact property?_withMapping_some hn hv
  status := by
    obtain ⟨known, hs⟩ := h.status
    refine ⟨known, ?_⟩
    rw [hstatus, status_withStatus, if_neg hn, hs]

theorem Done.step (h : Done generator set resource cache done parts)
    (hset : set.mappingPlugins = MappingPlugin.all) (hnew : mapping.majorVersion ∉ done.map (·.majorVersion))
    (hadds : generator.Adds set resource cache mapping parts after) :
    Done generator set resource cache (done ++ [mapping]) after := by
  obtain ⟨document, hsupplies, hstep⟩ := hadds
  obtain ⟨version, hmakes, hspec, description, hstatus⟩ := makes_of_mapping hset hstep
  refine ⟨fun other hm => ?_, fun name hn => ?_, fun hn schema hs => ?_⟩
  · rcases List.mem_append.mp hm with hm | hm
    · obtain ⟨found, hfound, hcompleted⟩ := h.completed other hm
      refine ⟨found, hfound, hcompleted.step (fun he => hnew ?_) hspec hstatus⟩
      exact List.mem_map.mpr ⟨other, hm, he⟩
    · obtain rfl := List.mem_singleton.mp hm
      refine ⟨document, hsupplies, ⟨version, hmakes, ?_⟩, description, ?_⟩
      · rw [Parts.version?, hspec]
        exact property?_withMapping_self
      · have hold := h.status other.majorVersion hnew
        rw [hstatus, status_withStatus, if_pos rfl]
        exact congrArg _ hold
  · rw [List.map_append, List.mem_append, not_or] at hn
    have hne : name ≠ mapping.majorVersion := by simpa using hn.2
    rw [hstatus, status_withStatus]
    exact (if_neg hne).trans (h.status name hn.1)
  · rw [List.map_append, List.mem_append, not_or] at hn
    have hne : connectionProperty ≠ mapping.majorVersion := by simpa using hn.2
    rw [hspec, property?_withMapping_connection hne] at hs
    rw [← Option.some.inj hs]
    cases hold : parts.spec.property? connectionProperty with
    | none => rfl
    | some old => exact h.connection hn.1 old hold

/-- **After a run over mappings each version is what all plugins make of it.** -/
theorem done_of_run (hset : set.mappingPlugins = MappingPlugin.all) (hd : resource.majorVersions.Nodup)
    (h : Each (generator.Adds set resource cache) resource.mappings (Parts.start resource) parts) :
    Done generator set resource cache resource.mappings parts := by
  refine h.all (Done generator set resource cache) ?_ ?_
  · rintro done mapping s s' ⟨rest, hsplit⟩ hs hadds
    refine hs.step hset (fun hm => ?_) hadds
    rw [Config.Resource.majorVersions, show resource.mappings = done ++ mapping :: rest from hsplit,
      List.map_append, List.map_cons] at hd
    exact List.disjoint_of_nodup_append hd hm (List.mem_cons_self ..)
  · refine ⟨fun _ hm => absurd hm List.not_mem_nil, fun _ _ => rfl, fun _ schema hs => ?_⟩
    cases hs

end

end CrdForge.Pipeline
