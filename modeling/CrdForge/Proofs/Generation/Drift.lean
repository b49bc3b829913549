import CrdForge.Proofs.Generation.Versions
import CrdForge.Proofs.Pipeline.Orphans

/-! That annotations lead to places of the schema.

What a definition says of a version is what the mapping of that version says alone, so it is said of a
place that the version has, or it is an orphan of this mapping. The chains to a mapping in the annotation
of a definition are those along which something is said: each of them leads to a node of the schema or
belongs to an orphan (`mappings_lead_or_orphan`). -/
namespace CrdForge.Generation

open Extension (Link Tree)
open Pipeline (Draft Job Orphan Parts PluginSet Silent specPart statusPart versionPath)
open Run

/-! ### Chains of versions -/

/-- A chain that leads somewhere in a version leads there from the root of the schema. -/
theorem root_leads {resource : Config.Resource} {parts : Parts} {job : Job} {links : List Link}
    (h : parts.Leads job links) : (parts.root resource).Leads links := by
  have hspec : (parts.root resource).properties.lookup specPart = some parts.spec := by
    simp [Parts.root]
  have hstatus : (parts.root resource).properties.lookup statusPart = some parts.status := by
    simp [Parts.root, Keyed.lookup_cons, specPart, statusPart]
  rcases h with ⟨version, rest, rfl, hv, hl⟩ | ⟨status, rest, rfl, hs, hl⟩
  · exact .property hspec (.property hv hl)
  · exact .property hstatus (.property hs hl)

namespace Generator
variable {generator : Generator} {resource : Config.Resource} {set : PluginSet} {mapping : Config.Mapping}
  {parts own : Parts}

/-! ### Single versions -/

/-- The draft of a mapping alone comes from a run of its plugins. -/
theorem Made.step (h : generator.Made set resource mapping parts own) :
    ∃ document, (generator.document mapping.document {}).1 = .ok document ∧
      MappingStep set ⟨resource.only mapping, mapping, document, set.propertyPlugins⟩
        (Parts.start (resource.only mapping)) own := by
  have hmade := h.made
  rw [ownDraft, withMapping] at hmade
  obtain ⟨document, hdocument, hmade⟩ := except_bind_ok hmade
  obtain ⟨after, hdraft, hstep⟩ := addMapping_ok (mapError_ok hmade)
  obtain rfl := Parts.draft_injective hdraft
  exact ⟨document, hdocument, hstep⟩

/-- What the draft of a mapping alone says is said of a place of its version, or is an orphan. -/
theorem ownDraft_leads_or_orphan (hu : generator.UsesAll resource set)
    (h : generator.Made set resource mapping parts own) :
    (own.tree.said Tree.root).OnlyMappings ∧
      ∃ document, (generator.document mapping.document {}).1 = .ok document ∧
      ∀ links, own.tree.said Tree.root links ≠ [] →
        own.Leads ⟨resource, mapping, document, set.propertyPlugins⟩ links ∨
          Orphan ⟨resource, mapping, document, set.propertyPlugins⟩ links := by
  obtain ⟨document, hdocument, hstep⟩ := h.step
  obtain ⟨schema, -, hlisted⟩ := h.listed
  have hversion : own.spec.property? mapping.majorVersion = some schema := hlisted
  have hsome : (own.spec.property? mapping.majorVersion).isSome = true := by rw [hversion]; rfl
  obtain ⟨hmappings, hall⟩ := Pipeline.leads_or_orphan hu.mappingPlugins hu.propertyPlugins hstep hsome
  exact ⟨hmappings, document, hdocument, fun links hq => (hall links hq).imp id fun h => h.on resource⟩

/-- What leads somewhere in the version of a mapping alone leads there in
the version that was made with others. -/
theorem Made.leads (h : generator.Made set resource mapping parts own) {job : Job}
    (hj : job.mapping = mapping) {links : List Link} (hl : own.Leads job links) : parts.Leads job links := by
  obtain ⟨schema, hparts, hown⟩ := h.listed
  have hspec : parts.version? job = own.version? job := by
    rw [Parts.version?, Parts.version?, Job.majorVersion, hj, hparts, hown]
  have hstatus : parts.at? job .status = own.at? job .status := by
    rw [Parts.at?, Parts.at?, Job.majorVersion, hj, h.status]
  rwa [Parts.Leads, hspec, hstatus]

/-! ### Definitions -/

/-- Where something is said, a version is that has it. -/
theorem said_of_version (hs : Silent parts.tree)
    (hk : ∀ version, version ∉ resource.majorVersions → Pipeline.Keeps version (Parts.start resource) parts)
    {links : List Link} (hq : parts.tree.said Tree.root links ≠ []) :
    ∃ mapping ∈ resource.mappings, ∃ part rest, links = versionPath part mapping.majorVersion ++ rest := by
  have hversion : ∃ part version, versionPath part version <+: links := by
    refine Classical.byContradiction fun hn => hq (hs links fun part version hp => hn ⟨part, version, hp⟩)
  obtain ⟨part, version, rest, rfl⟩ := hversion
  by_cases hm : version ∈ resource.majorVersions
  · obtain ⟨mapping, hmapping, rfl⟩ := List.mem_map.mp hm
    exact ⟨mapping, hmapping, part, rest, rfl⟩
  · have hnone := congrFun ((hk version hm).notes part) rest
    rw [Extension.Notes.beyond, Extension.Notes.beyond] at hnone
    rw [hnone] at hq
    exact absurd (congrFun (Tree.empty_said _) _) hq

/-- **Every chain that leads to a mapping in the annotation of a definition leads to a node of its
schema, or is an orphan of the mapping of its version.** -/
theorem mappings_lead_or_orphan (hu : generator.UsesAll resource set) {made : Generated}
    (h : generator.alone resource = .ok made) :
    made.definition.annotations.lookup mappingsKey = (generator.annotation? resource).map Json.compact ∧
      ∃ root, made.definition.schema = some root ∧
        ∀ value, generator.annotation? resource = some value → ∀ links, value.Maps links →
          root.Leads links ∨ ∃ mapping ∈ resource.mappings, ∃ document,
            (generator.document mapping.document {}).1 = .ok document ∧
              Orphan ⟨resource, mapping, document, set.propertyPlugins⟩ links := by
  have hgenerate : generator.generate resource {} = (.ok made, (generator.generate resource {}).2) :=
    Prod.ext h rfl
  have hd := (generate_ok hu.1 hu.hasBase hgenerate).1
  have houtcome := draftOf_outcome hu hd
  rw [alone_eq generator hd] at h
  generalize hdraft : generator.draftOf resource = draft at h houtcome
  cases houtcome with
  | error => cases h
  | @ok parts hs hsilent hk hmade =>
    obtain rfl := Except.ok.inj h
    have hparts := annotation?_of_draft hdraft
    -- What is said of a version is what its mapping says alone.
    have hsaid {links : List Link} (hq : parts.tree.said Tree.root links ≠ []) :
      ∃ mapping ∈ resource.mappings, ∃ own,
        generator.Made set resource mapping parts own ∧
          parts.tree.said Tree.root links = own.tree.said Tree.root links := by
      obtain ⟨mapping, hm, part, rest, rfl⟩ := said_of_version hsilent hk hq
      obtain ⟨own, hown⟩ := hmade mapping hm
      exact ⟨mapping, hm, own, hown, congrFun (hown.notes part) rest⟩
    have honly : (parts.tree.said Tree.root).OnlyMappings := by
      intro links entry hentry
      obtain ⟨mapping, -, own, hown, heq⟩ := hsaid (List.ne_nil_of_mem hentry)
      exact (ownDraft_leads_or_orphan hu hown).1 links entry (heq ▸ hentry)
    refine ⟨by rw [finished_text, hparts], parts.root resource, ?_, fun value hv links hmaps => ?_⟩
    · rw [finished, finish_schema]
      rfl
    · rw [hparts] at hv
      have hq := (Tree.value?_maps hs.linked honly hv links).mp hmaps
      obtain ⟨mapping, hm, own, hown, heq⟩ := hsaid hq
      obtain ⟨-, document, hdocument, hall⟩ := ownDraft_leads_or_orphan hu hown
      rcases hall links (heq ▸ hq) with hleads | horphan
      · exact .inl (root_leads (hown.leads rfl hleads))
      · exact .inr ⟨mapping, hm, document, hdocument, horphan⟩

end Generator

/-- The members of a team are read-only, and have passwords. -/
def teams : OpenApi.Document where
  components := { schemas := [("Team", { properties := [
    ("name", {}),
    ("members", {
      type := some (.one "array")
      items := some { readOnly := true, properties := [("password", {})] } })] })] }

/-- Asks for what may be written, and hides passwords. -/
def teamMapping : Config.Mapping where
  majorVersion := "v1"
  document := "api"
  entry := {
    schema := some "Team"
    filters := { readWriteOnly := true, sensitive := ["$.members[*].password"] } }

def team : Config.Resource where
  group := "example.com"
  version := "v1"
  kind := "Team"
  mappings := [teamMapping]

/-- Where the password of a member would stand. -/
def memberPassword : List Link :=
  [.property specPart, .property "v1", .property Pipeline.entryPart, .property "members", .items,
    .property "passwordSecretRef"]

/-- The items of an array are left out, and a secret below them stays annotated. -/
theorem member_password_orphaned :
    ∃ made root value, (Generator.ofDocument teams).alone team = .ok made ∧
      made.definition.schema = some root ∧
      (Generator.ofDocument teams).annotation? team = some value ∧ value.Maps memberPassword ∧
      ¬ root.Leads memberPassword ∧
      Orphan ⟨team, teamMapping, teams, Conversion.PropertyPlugin.all⟩ memberPassword := by
  have hastray : ((Generator.ofDocument teams).alone team).toOption.any (fun made =>
      made.definition.schema.any (·.astray memberPassword)) = true := by decide +kernel
  have hsaid : ((Generator.ofDocument teams).annotation? team).any (fun value =>
      (value.along memberPassword).any fun below => (below.get? Extension.clusterMapping).isSome) = true := by
    decide +kernel
  obtain ⟨made, hmade⟩ : ∃ made, (Generator.ofDocument teams).alone team = .ok made := by
    cases hm : (Generator.ofDocument teams).alone team with
    | ok made => exact ⟨made, rfl⟩
    | error => rw [hm] at hastray; cases hastray
  have hu : (Generator.ofDocument teams).UsesAll team ⟨"default", true, Pipeline.Plugin.all⟩ :=
    Generator.ofDocument_usesAll teams rfl
  obtain ⟨-, root, hroot, hall⟩ := Generator.mappings_lead_or_orphan hu hmade
  obtain ⟨value, hvalue, hbelow⟩ := (Option.any_eq_true ..).mp hsaid
  obtain ⟨below, halong, hmapping⟩ := (Option.any_eq_true ..).mp hbelow
  have hmaps : value.Maps memberPassword := Json.maps_iff.mpr ⟨below, halong, .inl hmapping⟩
  have hlost : ¬ root.Leads memberPassword := by
    rw [hmade, Except.toOption, Option.any_some, hroot, Option.any_some] at hastray
    exact Crd.Schema.not_leads_of_astray hastray
  refine ⟨made, root, value, hmade, hroot, hvalue, hmaps, hlost, ?_⟩
  obtain ⟨mapping, hm, document, hdocument, horphan⟩ :=
    (hall value hvalue memberPassword hmaps).resolve_left hlost
  obtain rfl := List.mem_singleton.mp hm
  obtain rfl : teams = document := Except.ok.inj hdocument
  exact horphan

end CrdForge.Generation
