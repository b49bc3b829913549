import CrdForge.Proofs.Pipeline.Fields

/-! What every definition should have.

The connection and the conditions share their places with versions: a version of that name takes the
place of the connection for good, and its status takes the place of the conditions. Nothing else does
(`fixed_parts_iff`). -/
namespace CrdForge.Generation

open Pipeline (Job Parts PluginSet connectionProperty connectionSchema conditionsSchema described
  specPart statusPart)

namespace Generator

/-! ### What is in their place -/

section
variable {resource : Config.Resource} {job : Job} {parts : Parts}

theorem finish_status (parts : Parts) :
    (finish (parts.draft resource)).part? statusPart = some parts.status := by
  rw [Crd.Definition.part?, finish_schema]
  rfl

/-- A version is described as one, whatever is listed for it. -/
theorem version_ne_connection {version : Crd.Schema} (h : job.Makes version) :
    version ≠ connectionSchema := by
  intro he
  have hdescription := h.heading.description
  rw [he] at hdescription
  have hhead := congrArg (fun text : Option String => text.bind (·.toList.head?)) hdescription
  simp [connectionSchema, Crd.Schema.insert, Crd.Schema.object, Conversion.sensitivePrefix,
    Pipeline.emptyVersion, String.toList_append] at hhead

/-- The status of a version says nothing of how lists are merged, which conditions do. -/
theorem status_ne_conditions {description : String} {converted : Crd.Schema}
    (h : job.statusShape? = some converted) :
    described description converted ≠ conditionsSchema := by
  obtain ⟨source, -, hs⟩ := Option.bind_eq_some_iff.mp h
  have hbare := (Conversion.bare_of_shapeWithin hs).listType
  intro he
  have hlist : (described description converted).listType = some "map" := by rw [he]; rfl
  rw [described, hbare] at hlist
  cases hlist

end

/-! ### Definitions -/

variable {generator : Generator} {resource : Config.Resource} {set : PluginSet} {cache after : Cache}
  {generated : Generated}

/-- **The connection is what it should be exactly if no version has its name, and the conditions are what
they should be exactly if no version of that name has a status.** -/
theorem fixed_parts_iff (hset : generator.UsesAll resource set) (hm : resource.mappings ≠ [])
    (h : generator.generate resource cache = (.ok generated, after)) :
    ∃ documentOf : Config.Mapping → OpenApi.Document,
      (∀ mapping ∈ resource.mappings, generator.Supplies cache mapping.document (documentOf mapping)) ∧
      ∃ spec status, generated.definition.part? specPart = some spec ∧
        generated.definition.part? statusPart = some status ∧
        (spec.property? connectionProperty = some connectionSchema ↔
          ∀ mapping ∈ resource.mappings, mapping.majorVersion ≠ connectionProperty) ∧
        (status.property? "conditions" = some conditionsSchema ↔
          ∀ mapping ∈ resource.mappings, mapping.majorVersion = "conditions" →
            Job.statusShape? ⟨resource, mapping, documentOf mapping, set.propertyPlugins⟩ = none) := by
  obtain ⟨hd, parts, hdefinition, -, hrun, -⟩ := generate_ok hset.1 hset.hasBase h
  have hdone := Pipeline.done_of_run hset.mappingPlugins hd hrun
  have hruled := Pipeline.ruled_of_run hset.mappingPlugins hd hrun
  have hdocument (mapping : Config.Mapping) : ∃ document, mapping ∈ resource.mappings →
      generator.Supplies cache mapping.document document ∧
        Pipeline.Completed ⟨resource, mapping, document, set.propertyPlugins⟩ parts := by
    by_cases hmapping : mapping ∈ resource.mappings
    · obtain ⟨document, hcompleted⟩ := hdone.completed mapping hmapping
      exact ⟨document, fun _ => hcompleted⟩
    · exact ⟨{}, fun hc => absurd hc hmapping⟩
  obtain ⟨documentOf, hdocumentOf⟩ := Classical.skolem.mp hdocument
  have hsupplies mapping hmapping := (hdocumentOf mapping hmapping).1
  have hcompleted mapping hmapping := (hdocumentOf mapping hmapping).2
  refine ⟨documentOf, hsupplies, parts.spec, parts.status, ?_, ?_, ⟨?_, ?_⟩, ⟨?_, ?_⟩⟩
  · rw [hdefinition, finish_spec]
  · rw [hdefinition, finish_status]
  · intro hconnection mapping hmapping hn
    obtain ⟨version, hmakes, hv⟩ := (hcompleted mapping hmapping).version
    have hv : parts.spec.property? connectionProperty = some version := hn ▸ hv
    exact version_ne_connection hmakes (Option.some.inj (hv.symm.trans hconnection))
  · intro hnone
    have hlisted : Keyed.has connectionProperty parts.spec.properties = true :=
      (hruled.listed connectionProperty).mpr (.inr ⟨hm, rfl⟩)
    obtain ⟨schema, hs⟩ := Keyed.has_iff.mp hlisted
    have hunnamed : connectionProperty ∉ resource.mappings.map (·.majorVersion) := by
      intro hc
      obtain ⟨mapping, hmapping, hn⟩ := List.mem_map.mp hc
      exact hnone mapping hmapping hn
    rw [← hdone.connection hunnamed schema hs]
    exact hs
  · intro hconditions mapping hmapping hn
    obtain ⟨description, hs⟩ := (hcompleted mapping hmapping).status
    rw [← hn] at hconditions
    cases hshape : Job.statusShape? ⟨resource, mapping, documentOf mapping, set.propertyPlugins⟩ with
    | none => rfl
    | some converted =>
      rw [hshape] at hs
      exact absurd (Option.some.inj (hs.symm.trans hconditions)) (status_ne_conditions hshape)
  · intro hnone
    by_cases hc : "conditions" ∈ resource.mappings.map (·.majorVersion)
    · obtain ⟨mapping, hmapping, hn⟩ := List.mem_map.mp hc
      obtain ⟨description, hs⟩ := (hcompleted mapping hmapping).status
      rw [hnone mapping hmapping hn] at hs
      have hs : parts.status.property? mapping.majorVersion =
        (Parts.start resource).status.property? mapping.majorVersion := hs
      rwa [hn] at hs
    · exact (hdone.status _ hc).trans rfl

end Generator

/-! ### Versions in their place -/

/-- A status that has a conversion. -/
def statuses : OpenApi.Document where
  components := { schemas := [("Status", {})] }

/-- A resource whose versions have the names of the connection and of the conditions. -/
def displacing : Config.Resource where
  group := "example.com"
  version := "v1"
  kind := "Widget"
  mappings := [{ majorVersion := connectionProperty, document := "api" },
    { majorVersion := "conditions", document := "api", status := { schema := some "Status" } }]

/-- Neither of them is what it should be. -/
theorem versions_displace_fixed_parts :
    ∃ generated after spec status, (Generator.ofDocument statuses).generate displacing {} =
      (.ok generated, after) ∧
      generated.definition.part? specPart = some spec ∧ generated.definition.part? statusPart = some status ∧
      spec.property? connectionProperty ≠ some connectionSchema ∧
      status.property? "conditions" ≠ some conditionsSchema := by
  have hcheck : (((Generator.ofDocument statuses).generate displacing {}).1.toOption.any fun _ => true) =
      true := by
    decide +kernel
  obtain ⟨generated, after, hg, -⟩ := Generator.generate_of_check hcheck
  have hall : (Generator.ofDocument statuses).UsesAll displacing ⟨"default", true, Pipeline.Plugin.all⟩ :=
    Generator.ofDocument_usesAll statuses rfl
  obtain ⟨documentOf, hsupplies, spec, status, hspec, hstatus, hconnection, hconditions⟩ :=
    Generator.fixed_parts_iff hall (by decide) hg
  refine ⟨generated, after, spec, status, hg, hspec, hstatus, fun hc => ?_, fun hc => ?_⟩
  · exact hconnection.mp hc _ (List.mem_cons_self ..) rfl
  · let mapping : Config.Mapping :=
      { majorVersion := "conditions", document := "api", status := { schema := some "Status" } }
    have hmapping : mapping ∈ displacing.mappings := by decide
    have hdocument : documentOf mapping = statuses := by
      rcases hsupplies mapping hmapping with hl | ⟨source, hm, -, hl⟩
      · cases hl
      · cases List.mem_singleton.mp hm
        exact (Except.ok.inj hl).symm
    have hnone := hconditions.mp hc mapping hmapping rfl
    rw [hdocument] at hnone
    have hsome :
        (Job.statusShape? ⟨displacing, mapping, statuses, Conversion.PropertyPlugin.all⟩).isSome = true := by
      decide +kernel
    rw [← hall.propertyPlugins, hnone] at hsome
    cases hsome

end CrdForge.Generation
