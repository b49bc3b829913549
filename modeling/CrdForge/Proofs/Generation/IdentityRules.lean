import CrdForge.Proofs.Generation.MappingOrder
import CrdForge.Proofs.Pipeline.VersionChoice

/-! The connection rules of a definition.

A rule is added to what is asked for only where it is not there yet, and what takes rules back leaves the
others in place, so however many mappings guard a field, no rule stands twice (`nodup_of_run`). With what
a run leaves of the rules (`Ruled`), the rule for an identity of a version's own mapping stands once if
the version lists the identity, and else not at all (`connection_rules_once`). -/
namespace CrdForge

namespace Pipeline

open Run

/-! ### Single rules -/

section
variable {schema spec version : Crd.Schema} {resource : Config.Resource} {mapping : Config.Mapping}

theorem nodup_addRule (h : schema.rules.Nodup) (rule : Crd.Rule) : (schema.addRule rule).rules.Nodup := by
  unfold Crd.Schema.addRule
  split
  · exact h
  · next hc =>
    have hnew : rule ∉ schema.rules := fun hm => hc (List.contains_iff_mem.mpr hm)
    exact List.concat_eq_append ▸ h.concat hnew

theorem nodup_addRules {rules : List Crd.Rule} (h : schema.rules.Nodup) :
    (rules.foldl Crd.Schema.addRule schema).rules.Nodup := by
  induction rules generalizing schema with
  | nil => exact h
  | cons rule rest ih => exact ih (nodup_addRule h rule)

/-- A choice between versions takes the place of the one before. -/
theorem nodup_withVersionChoice (h : spec.rules.Nodup) (configured : List String) (current : String) :
    (withVersionChoice configured current spec).rules.Nodup := by
  rw [withVersionChoice]
  split
  · exact h
  · apply nodup_addRule
    split
    · exact h
    · exact h.filter _

theorem nodup_withMapping (h : spec.rules.Nodup) :
    (withMapping resource mapping spec version).rules.Nodup := by
  unfold withMapping withConnectionRules
  apply nodup_addRules
  rw [withConnection_rules]
  have hinsert : (spec.insert mapping.majorVersion version).rules.Nodup := h
  exact nodup_withVersionChoice hinsert _ _

end

/-! ### Rules of a run -/

section
variable {generator : Generation.Generator} {resource : Config.Resource}
  {cache : Generation.Cache} {set : PluginSet}
  {parts : Parts}

/-- No rule on what is asked for stands twice. -/
theorem nodup_of_run (hset : set.mappingPlugins = MappingPlugin.all)
    (h : Each (generator.Adds set resource cache) resource.mappings (Parts.start resource) parts) :
    parts.spec.rules.Nodup := by
  apply h.preserves (P := fun parts => parts.spec.rules.Nodup)
  · intro mapping _ before after hn ⟨document, _, hstep⟩
    obtain ⟨version, hversion⟩ := spec_withMapping hset hstep
    rw [hversion]
    exact nodup_withMapping hn
  · exact List.nodup_nil

/-- An identity of a mapping is one of its version. -/
theorem identityFrom_own {mappings : List Config.Mapping} {mapping : Config.Mapping} (hm : mapping ∈ mappings)
    {field : String} (hf : field ∈ identities mapping) :
    IdentityFrom mappings mapping.majorVersion field := by
  obtain ⟨before, after, hs⟩ := List.append_of_mem hm
  exact ⟨before, mapping, after, hs, by simp, hf⟩

/-- The rule for an identity of a version's own mapping is there exactly if the version lists the identity. -/
theorem Ruled.own_iff {spec : Crd.Schema} (h : Ruled resource resource.mappings spec)
    {mapping : Config.Mapping} (hm : mapping ∈ resource.mappings)
    (hc : mapping.majorVersion ≠ connectionProperty) {field : String} (hf : field ∈ identities mapping) :
    connectionRule mapping.majorVersion field ∈ spec.rules ↔ ListsField spec mapping.majorVersion field := by
  rw [h.connectionRule_mem (dot_not_mem_identity hf)]
  constructor
  · intro ⟨_, hl, _⟩
    exact hl
  · intro hl
    exact ⟨hc, hl, identityFrom_own hm hf⟩

/-- A rule is a choice between versions, or it is for a field that a version lists. -/
theorem Ruled.named {spec : Crd.Schema} (h : Ruled resource resource.mappings spec) {rule : Crd.Rule}
    (hr : rule ∈ spec.rules) : IsChoice rule ∨ ∃ version ∈ resource.majorVersions, ∃ field,
      ListsField spec version field ∧ rule = connectionRule version field := by
  rcases (h.rules rule).mp hr with ⟨_, he⟩ | ⟨version, field, ⟨hc, hl, _⟩, he⟩
  · exact .inl ⟨_, he⟩
  · have hlisted : Keyed.has version spec.properties = true := by
      obtain ⟨schema, hs, _⟩ := hl
      exact Keyed.has_iff.mpr ⟨schema, hs⟩
    rcases (h.listed version).mp hlisted with hv | ⟨_, hn⟩
    · exact .inr ⟨version, hv, field, hl, he⟩
    · exact absurd hn hc

end

end Pipeline

namespace Generation

open Pipeline (ListsField connectionProperty connectionRule identities specPart)

namespace Generator

variable {generator : Generator} {resource : Config.Resource} {set : Pipeline.PluginSet} {cache after : Cache}
  {made : Generated}

/-- **The rule for an identity of a version's own mapping stands once if the version lists the identity,
and else not at all. A connection rule is for a field that a version lists.** -/
theorem connection_rules_once (hu : generator.UsesAll resource set)
    (hc : connectionProperty ∉ resource.majorVersions)
    (h : generator.generate resource cache = (.ok made, after)) :
    ∃ spec, made.definition.part? specPart = some spec ∧
      (∀ mapping ∈ resource.mappings, ∀ field ∈ identities mapping,
        (ListsField spec mapping.majorVersion field →
          spec.rules.count (connectionRule mapping.majorVersion field) = 1) ∧
        (¬ ListsField spec mapping.majorVersion field →
          spec.rules.count (connectionRule mapping.majorVersion field) = 0)) ∧
      ∀ version field, connectionRule version field ∈ spec.rules →
        ∃ version' ∈ resource.majorVersions, ∃ field', ListsField spec version' field' ∧
          connectionRule version field = connectionRule version' field' := by
  obtain ⟨hd, parts, hdefinition, -, hrun, -⟩ := generate_ok hu.1 hu.hasBase h
  have hruled := Pipeline.ruled_of_run hu.mappingPlugins hd hrun
  have hnodup := Pipeline.nodup_of_run hu.mappingPlugins hrun
  refine ⟨parts.spec, by rw [hdefinition, finish_spec], ?_, ?_⟩
  · intro mapping hm field hf
    have hne : mapping.majorVersion ≠ connectionProperty := by
      intro he
      exact hc (he ▸ List.mem_map_of_mem hm)
    have hiff := hruled.own_iff hm hne hf
    constructor
    · intro hl
      exact List.count_eq_one_of_mem hnodup (hiff.mpr hl)
    · intro hl
      exact List.count_eq_zero.mpr fun hmem => hl (hiff.mp hmem)
  · intro version field hr
    rcases hruled.named hr with ⟨fields, he⟩ | hn
    · exact absurd he (Pipeline.connectionRule_ne _ _ _)
    · exact hn

end Generator

/-- The identity that the second version of projects lists has a rule, and
the group, which it does not list, has none. -/
theorem twoProjects_guarded :
    connectionProperty ∉ twoProjects.majorVersions ∧
    ∃ made after spec, (Generator.ofDocument projects).generate twoProjects {} = (.ok made, after) ∧
      made.definition.part? specPart = some spec ∧ ListsField spec "v2" "projectId" ∧
      ¬ ListsField spec "v2" "groupId" ∧ spec.rules.count (connectionRule "v2" "projectId") = 1 ∧
      spec.rules.count (connectionRule "v2" "groupId") = 0 := by
  have hc : connectionProperty ∉ twoProjects.majorVersions := by decide
  have hcheck : (((Generator.ofDocument projects).generate twoProjects {}).1.toOption.any fun generated =>
      ((generated.definition.part? specPart).bind (·.property? "v2")).any fun version =>
        Keyed.has "projectId" version.properties && !Keyed.has "groupId" version.properties) = true := by
    decide +kernel
  obtain ⟨made, after, hg, hchecked⟩ := Generator.generate_of_check hcheck
  obtain ⟨spec, hspec, honce, -⟩ :=
    Generator.connection_rules_once (Generator.ofDocument_usesAll projects rfl) hc hg
  rw [hspec, Option.bind_some, Option.any_eq_true] at hchecked
  obtain ⟨version, hv, hboth⟩ := hchecked
  rw [Bool.and_eq_true, Bool.not_eq_true'] at hboth
  have hlisted : ListsField spec "v2" "projectId" := ⟨version, hv, hboth.1⟩
  have hunlisted : ¬ ListsField spec "v2" "groupId" := by
    intro ⟨other, ho, hl⟩
    rw [hv] at ho
    cases ho
    rw [hboth.2] at hl
    cases hl
  have hmapping : projectMapping "v2" [projectReference] ∈ twoProjects.mappings := by simp [twoProjects]
  exact ⟨hc, made, after, spec, hg, hspec, hlisted, hunlisted,
    (honce _ hmapping "projectId" (by decide)).1 hlisted,
    (honce _ hmapping "groupId" (by decide)).2 hunlisted⟩

end Generation

end CrdForge
