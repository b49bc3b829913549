import CrdForge.Proofs.Generation.Drift
import CrdForge.Proofs.Pipeline.References

/-! References in a whole definition.

A version lists its references, and the annotation says of the same places how they lead to their
targets. What is said of a version is what its mapping says alone, so the annotation says of each place
what the mapping of its version declares last for it, and nothing of the kind elsewhere
(`references_agree`). -/
namespace CrdForge.Generation

open Extension (Link Tree)
open Pipeline (Describes Descriptive ExtensionPlugin Job MappingPlugin Parts PluginSet Referring
  StandsFor entryPart
  specPart versionPath)

namespace Generator

variable {generator : Generator} {resource : Config.Resource} {set : PluginSet} {mapping : Config.Mapping}
  {parts own : Parts} {made : Generated}

/-- What the annotation of a resource says of a place, by name. -/
def said? (generator : Generator) (resource : Config.Resource) (links : List Link) (name : String) :
    Option Json :=
  ((generator.annotation? resource).bind (·.along links)).bind (Json.get? name)

/-! ### Beside the schema -/

/-- Of a version is said what its mapping says alone. -/
theorem Made.said (h : generator.Made set resource mapping parts own) (part : String) (rest : List Link) :
    parts.tree.said Tree.root (versionPath part mapping.majorVersion ++ rest) =
      own.tree.said Tree.root (versionPath part mapping.majorVersion ++ rest) :=
  congrFun (h.notes part) rest

theorem Made.referring (hu : generator.UsesAll resource set)
    (h : generator.Made set resource mapping parts own) :
    Referring mapping.placements own.tree := by
  obtain ⟨document, -, hstep⟩ := h.step
  exact Pipeline.referring_of_mapping hu.mappingPlugins hu.extensionPlugins hstep

/-- The annotation says what is said of versions, each of which was made by its mapping. -/
theorem said?_of_alone (hu : generator.UsesAll resource set) (h : generator.alone resource = .ok made) :
    made.definition.annotations.lookup mappingsKey = (generator.annotation? resource).map Json.compact ∧
      ∃ parts, (∀ mapping ∈ resource.mappings, ∃ own, generator.Made set resource mapping parts own) ∧
        (∀ links, parts.tree.said Tree.root links ≠ [] → ∃ mapping ∈ resource.mappings, ∃ part rest,
          links = versionPath part mapping.majorVersion ++ rest) ∧
        ∀ links name, name = Extension.clusterMapping ∨ name = Extension.apiMapping →
          generator.said? resource links name = (parts.tree.said Tree.root links).lookup name := by
  have hgenerate : generator.generate resource {} = (.ok made, (generator.generate resource {}).2) :=
    Prod.ext h rfl
  have hd := (generate_ok hu.1 hu.hasBase hgenerate).1
  have houtcome := draftOf_outcome hu hd
  rw [alone_eq generator hd] at h
  generalize hdraft : generator.draftOf resource = draft at h houtcome
  cases houtcome with
  | error => cases h
  | @ok parts hs hsilent hk hmade =>
    obtain rfl := Except.ok.inj h
    have hparts := annotation?_of_draft hdraft
    refine ⟨by rw [finished_text, hparts], parts, hmade, fun links => said_of_version hsilent hk, ?_⟩
    have honly : (parts.tree.said Tree.root).OnlyMappings := by
      intro links entry hentry
      obtain ⟨mapping, hm, part, rest, rfl⟩ := said_of_version hsilent hk (List.ne_nil_of_mem hentry)
      obtain ⟨own, hown⟩ := hmade mapping hm
      rw [hown.said part rest] at hentry
      exact (ownDraft_leads_or_orphan hu hown).1 _ entry hentry
    intro links name hn
    rw [said?, hparts]
    exact Tree.value?_get? hs.linked honly hn links

/-- The annotation says of each place of a reference how the one that was declared last for it leads to
its target, and nothing like it of others. -/
theorem described_of_alone (hu : generator.UsesAll resource set) (h : generator.alone resource = .ok made) :
    (∀ mapping ∈ resource.mappings, ∀ place reference, mapping.reference? place = some reference →
      Describes (generator.said? resource (place.map .property)) reference) ∧
    ∀ links, Descriptive (generator.said? resource links) → ∃ mapping ∈ resource.mappings, ∃ place reference,
      mapping.reference? place = some reference ∧ links = place.map .property := by
  obtain ⟨-, parts, hmade, hversion, hsaid⟩ := said?_of_alone hu h
  have hcluster (links : List Link) := hsaid links _ (.inl rfl)
  have hapi (links : List Link) := hsaid links _ (.inr rfl)
  refine ⟨fun mapping hm place reference hr => ?_, fun links hd => ?_⟩
  · obtain ⟨own, hown⟩ := hmade mapping hm
    obtain ⟨-, rest, rfl⟩ := Pipeline.version_of_reference? hr
    have hsame : parts.tree.said Tree.root ((specPart :: mapping.majorVersion :: rest).map .property) =
        own.tree.said Tree.root ((specPart :: mapping.majorVersion :: rest).map .property) :=
      hown.said specPart (rest.map .property)
    obtain ⟨hdescribed, hdescribed'⟩ := (hown.referring hu).last _ reference hr
    exact ⟨by rw [hcluster, hsame, hdescribed], by rw [hapi, hsame, hdescribed']⟩
  · rw [Descriptive, hcluster, hapi] at hd
    have hq : parts.tree.said Tree.root links ≠ [] := by
      intro hnil
      exact Pipeline.not_descriptive_nil (hnil ▸ hd)
    obtain ⟨mapping, hm, part, rest, rfl⟩ := hversion links hq
    obtain ⟨own, hown⟩ := hmade mapping hm
    rw [hown.said part rest] at hd
    obtain ⟨place, reference, hr, he⟩ := (hown.referring hu).only _ hd
    exact ⟨mapping, hm, place, reference, hr, he⟩

/-! ### Definitions -/

/-- **Schema and annotation agree on references.** At the place of every reference the schema has a
property and the annotation a description, both of the reference that was declared last for the place,
and no other place has such a description. Where references were added to the schema, plugins that
describe them do not fail. -/
theorem references_agree (hset : generator.UsesAll resource set) :
    (∀ job draft after, MappingPlugin.references.run job draft = (.ok (), after) →
      ∀ plugin ∈ set.extensionPlugins, ∀ later, ∃ last, plugin.run job later = (.ok (), last)) ∧
    ∀ cache generated after, generator.Faithful cache →
      generator.generate resource cache = (.ok generated, after) →
      generated.definition.annotations.lookup mappingsKey =
        (generator.annotation? resource).map Json.compact ∧
      ∃ root, generated.definition.schema = some root ∧
        (∀ mapping ∈ resource.mappings, ∀ place reference, (place, reference) ∈ mapping.placements →
          ∃ last, mapping.reference? place = some last ∧
            (∃ property, root.descend? place = some property ∧ StandsFor property last) ∧
            Describes (generator.said? resource (place.map .property)) last) ∧
        ∀ links, Descriptive (generator.said? resource links) → ∃ mapping ∈ resource.mappings,
          ∃ place reference,
          (place, reference) ∈ mapping.placements ∧ links = place.map .property := by
  refine ⟨fun job draft after h plugin _ later => plugin.run_of_references h later, ?_⟩
  intro cache generated after hc h
  have halone : generator.alone resource = .ok generated := by
    rw [alone, ← (generate_transparent generator resource cache hc).result, h]
  obtain ⟨hd, parts, hdefinition, -, hrun, -⟩ := generate_ok hset.1 hset.hasBase h
  have hdone := Pipeline.done_of_run hset.mappingPlugins hd hrun
  obtain ⟨hdescribed, honly⟩ := described_of_alone hset halone
  refine ⟨(said?_of_alone hset halone).1,
    parts.root resource, by rw [hdefinition, finish_schema]; rfl, ?_, ?_⟩
  · intro mapping hm place reference hp
    obtain ⟨last, hlast⟩ := Pipeline.lookup_of_mem_placements hp
    refine ⟨last, hlast, ?_, hdescribed mapping hm place last hlast⟩
    obtain ⟨document, -, hcompleted⟩ := hdone.completed mapping hm
    obtain ⟨version, hmakes, hv⟩ := hcompleted.version
    obtain ⟨rest, property, rfl, hproperty, hstands⟩ := hmakes.stands hlast
    have hspec : (parts.root resource).property? specPart = some parts.spec := by
      simp [Parts.root, Crd.Schema.property?]
    have hv : parts.spec.property? mapping.majorVersion = some version := hv
    refine ⟨property, ?_, hstands⟩
    rw [Crd.Schema.descend?, hspec, Option.bind_some, Crd.Schema.descend?, Job.majorVersion,
      hv, Option.bind_some, hproperty]
  · intro links hl
    obtain ⟨mapping, hm, place, reference, hr, he⟩ := honly links hl
    exact ⟨mapping, hm, place, reference, (Pipeline.version_of_reference? hr).1, he⟩

end Generator

/-! ### References of members -/

/-- A reference to a resource by its identity. -/
def identityReference (name property kind : String) : Config.Reference where
  name := name
  property := property
  target := { type := { kind := kind, version := "v1", resource := kind }, properties := ["$.status.id"] }

def members : OpenApi.Document where
  components := { schemas := [("Member", { properties := [("teamId", { type := some (.one "string") })] })] }

/-- The group of a member is declared twice, and its entry refers to a team. -/
def memberMapping : Config.Mapping where
  majorVersion := "v1"
  document := "api"
  parameters := { references :=
    [identityReference "groupRef" "$.group" "group", identityReference "groupRef" "$.groupId" "project"] }
  entry := { schema := some "Member", references := [identityReference "teamRef" "$.teamId" "team"] }

def member : Config.Resource where
  group := "example.com"
  version := "v1"
  kind := "Member"
  mappings := [memberMapping]

/-- The group is listed and described as it was declared last, and the team in the entry. -/
theorem member_references_agree :
    ∃ generated after root, (Generator.ofDocument members).generate member {} = (.ok generated, after) ∧
      generated.definition.schema = some root ∧
      (∃ property, root.descend? [specPart, "v1", "groupRef"] = some property ∧
        StandsFor property (identityReference "groupRef" "$.groupId" "project")) ∧
      Describes ((Generator.ofDocument members).said? member
        [.property specPart, .property "v1", .property "groupRef"])
        (identityReference "groupRef" "$.groupId" "project") ∧
      ∃ property, root.descend? [specPart, "v1", entryPart, "teamRef"] = some property ∧
        StandsFor property (identityReference "teamRef" "$.teamId" "team") := by
  have hcheck : (((Generator.ofDocument members).generate member {}).1.toOption.any fun _ => true) =
      true := by
    decide +kernel
  obtain ⟨generated, after, hg, -⟩ := Generator.generate_of_check hcheck
  have hall : (Generator.ofDocument members).UsesAll member ⟨"default", true, Pipeline.Plugin.all⟩ :=
    Generator.ofDocument_usesAll members rfl
  obtain ⟨-, root, hroot, hplaces, -⟩ := (Generator.references_agree hall).2 {} generated after
    (Generator.fresh_faithful _) hg
  have hm : memberMapping ∈ member.mappings := List.mem_singleton.mpr rfl
  obtain ⟨group, hgroup, hlisted, hdescribed⟩ := hplaces memberMapping hm [specPart, "v1", "groupRef"]
    (identityReference "groupRef" "$.group" "group") (List.mem_cons_self ..)
  obtain ⟨team, hteam, hentry, -⟩ := hplaces memberMapping hm [specPart, "v1", entryPart, "teamRef"]
    (identityReference "teamRef" "$.teamId" "team") (by decide)
  obtain rfl : identityReference "groupRef" "$.groupId" "project" = group := Option.some.inj hgroup
  obtain rfl : identityReference "teamRef" "$.teamId" "team" = team := Option.some.inj hteam
  exact ⟨generated, after, root, hg, hroot, hlisted, hdescribed, hentry⟩

end CrdForge.Generation
