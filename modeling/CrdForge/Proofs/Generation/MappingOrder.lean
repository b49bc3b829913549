import CrdForge.Proofs.Generation.Versions

/-! What the order of the mappings of a resource changes.

Versions are made independently of each other, so in every order all of them are made or none is, and a
version lists the same fields. A connection rule is there for a field that is an identity of the mapping
of its version or of a mapping that comes later, and which ones come later is a matter of order. So two
orders give the same connection rules exactly if later mappings add no identity in one order that they do
not add in the other (`connection_rules_iff_of_perm`). -/
namespace CrdForge

/-! ### Names in paths -/

theorem Text.not_mem_afterLast (mark : Char) (text : String) : mark ∉ (Text.afterLast mark text).toList := by
  rw [afterLast, String.toList_ofList, List.mem_reverse]
  intro hm
  have hall := List.all_eq_true.mp (List.all_takeWhile (p := (· != mark))) mark hm
  simp at hall

namespace Pipeline

/-- An identity is a single name. -/
theorem dot_not_mem_identity {mapping : Config.Mapping} {field : String} (h : field ∈ identities mapping) :
    '.' ∉ field.toList := by
  rw [identities, Keyed.mem_distinct, List.mem_cons, List.mem_map] at h
  rcases h with rfl | ⟨reference, -, rfl⟩
  · decide
  · exact Text.not_mem_afterLast '.' _

theorem append_dot_inj {front front' back back' : List Char} (hb : '.' ∉ back) (hb' : '.' ∉ back')
    (h : front ++ '.' :: back = front' ++ '.' :: back') : front = front' ∧ back = back' := by
  rcases List.append_eq_append_iff.mp h with ⟨middle, rfl, hm⟩ | ⟨middle, rfl, hm⟩
  · cases middle with
    | nil => exact ⟨(List.append_nil _).symm, List.cons.inj hm |>.2⟩
    | cons c rest =>
      obtain ⟨-, rfl⟩ := List.cons.inj hm
      exact absurd (List.mem_append_right _ (List.mem_cons_self ..)) hb
  · cases middle with
    | nil => exact ⟨List.append_nil _, (List.cons.inj hm).2.symm⟩
    | cons c rest =>
      obtain ⟨-, rfl⟩ := List.cons.inj hm
      exact absurd (List.mem_append_right _ (List.mem_cons_self ..)) hb'

/-- A connection rule names its version and its field. -/
theorem connectionRule_inj {version version' field field' : String} (hf : '.' ∉ field.toList)
    (hf' : '.' ∉ field'.toList) (h : connectionRule version field = connectionRule version' field') :
    version = version' ∧ field = field' := by
  have hm := congrArg (fun rule : Crd.Rule => rule.message.toList) h
  simp only [connectionRule, String.toList_append, List.append_assoc, List.append_cancel_left_eq] at hm
  simp only [← List.append_assoc, List.append_cancel_right_eq] at hm
  have hdot : ".".toList = ['.'] := rfl
  rw [hdot, List.append_assoc, List.append_assoc, List.singleton_append, List.singleton_append] at hm
  obtain ⟨hv, hf⟩ := append_dot_inj hf hf' hm
  exact ⟨String.toList_injective hv, String.toList_injective hf⟩

/-! ### Guarded fields -/

/-- Whether a version lists a field. -/
def ListsField (spec : Crd.Schema) (version field : String) : Prop :=
  ∃ schema, spec.property? version = some schema ∧ Keyed.has field schema.properties = true

/-- Whether a field is an identity of the mapping of a version or of a mapping after it. -/
def IdentityFrom (mappings : List Config.Mapping) (version field : String) : Prop :=
  ∃ before mapping after, mappings = before ++ mapping :: after ∧
    version ∈ (before ++ [mapping]).map (·.majorVersion) ∧ field ∈ identities mapping

theorem IdentityFrom.dot_not_mem {mappings : List Config.Mapping} {version field : String}
    (h : IdentityFrom mappings version field) : '.' ∉ field.toList := by
  obtain ⟨_, _, _, -, -, hi⟩ := h
  exact dot_not_mem_identity hi

/-- There is a connection rule for the fields that are guarded and for no others. -/
theorem Ruled.connectionRule_mem {resource : Config.Resource} {mappings : List Config.Mapping}
    {spec : Crd.Schema} (h : Ruled resource mappings spec) {version field : String}
    (hf : '.' ∉ field.toList) :
    connectionRule version field ∈ spec.rules ↔ Guards mappings spec version field := by
  rw [h.rules]
  constructor
  · rintro (⟨-, he⟩ | ⟨version', field', hg, he⟩)
    · exact absurd he (connectionRule_ne _ _ _)
    · obtain ⟨rfl, rfl⟩ := connectionRule_inj hf (IdentityFrom.dot_not_mem hg.2.2) he
      exact hg
  · exact fun hg => .inr ⟨version, field, hg, rfl⟩

/-- A connection rule that is there is one for a guarded field. -/
theorem Ruled.guarded {resource : Config.Resource} {mappings : List Config.Mapping} {spec : Crd.Schema}
    (h : Ruled resource mappings spec) {version field : String}
    (hm : connectionRule version field ∈ spec.rules) :
    ∃ version' field', Guards mappings spec version' field' ∧
      connectionRule version field = connectionRule version' field' := by
  rcases (h.rules _).mp hm with ⟨-, he⟩ | hg
  · exact absurd he (connectionRule_ne _ _ _)
  · exact hg

end Pipeline

namespace Generation

open Pipeline (Guards IdentityFrom ListsField Ruled connectionProperty connectionRule specPart)

namespace Generator

variable {generator : Generator} {resource : Config.Resource} {set : Pipeline.PluginSet}
  {mappings : List Config.Mapping}

/-! ### Other orders -/

theorem failure?_eq_none :
    generator.failure? resource = none ↔ ∃ made, generator.alone resource = .ok made := by
  rw [failure?]
  cases generator.alone resource with
  | ok made => simp
  | error failure => simp

/-- The draft of a definition that was made alone. -/
theorem ruled_of_alone (hu : generator.UsesAll resource set) {made : Generated}
    (h : generator.alone resource = .ok made) : ∃ spec, made.definition.part? specPart = some spec ∧
      Ruled resource resource.mappings spec := by
  have hg : generator.generate resource {} = (.ok made, (generator.generate resource {}).2) := Prod.ext h rfl
  obtain ⟨hd, parts, hdefinition, -, hrun, -⟩ := generate_ok hu.1 hu.hasBase hg
  exact ⟨parts.spec, by rw [hdefinition, finish_spec], Pipeline.ruled_of_run hu.mappingPlugins hd hrun⟩

theorem nodup_of_perm (hd : resource.majorVersions.Nodup) (hp : mappings.Perm resource.mappings) :
    (Config.Resource.majorVersions { resource with mappings := mappings }).Nodup :=
  (hp.map _).nodup_iff.mpr hd

/-- In another order a definition is made as well, if one is made. -/
theorem made_of_perm (hu : generator.UsesAll resource set) (hd : resource.majorVersions.Nodup)
    (hp : mappings.Perm resource.mappings) :
    (∃ made, generator.alone resource = .ok made) ↔
      ∃ made, generator.alone { resource with mappings := mappings } = .ok made := by
  have hu' : generator.UsesAll { resource with mappings := mappings } set := hu
  rw [← failure?_eq_none, ← failure?_eq_none, (versions_independent hu hd).1,
    (versions_independent hu' (nodup_of_perm hd hp)).1, List.findSome?_eq_none_iff,
    List.findSome?_eq_none_iff]
  exact ⟨fun h mapping hm => h mapping (hp.mem_iff.mp hm), fun h mapping hm => h mapping (hp.mem_iff.mpr hm)⟩

/-- A version is the same in every order. -/
theorem version_of_perm (hu : generator.UsesAll resource set) (hd : resource.majorVersions.Nodup)
    (hp : mappings.Perm resource.mappings) {made made' : Generated} (h : generator.alone resource = .ok made)
    (h' : generator.alone { resource with mappings := mappings } = .ok made') {mapping : Config.Mapping}
    (hm : mapping ∈ resource.mappings) :
    (made.definition.part? specPart).bind (·.property? mapping.majorVersion) =
      (made'.definition.part? specPart).bind (·.property? mapping.majorVersion) := by
  have hu' : generator.UsesAll { resource with mappings := mappings } set := hu
  obtain ⟨own, ho, -, hs⟩ := ((versions_independent hu hd).2 made h).2 mapping hm
  obtain ⟨own', ho', -, hs'⟩ :=
    ((versions_independent hu' (nodup_of_perm hd hp)).2 made' h').2 mapping (hp.mem_iff.mpr hm)
  obtain rfl : own = own' := Except.ok.inj (ho.symm.trans ho')
  rw [hs.schema specPart (List.mem_cons_self ..), hs'.schema specPart (List.mem_cons_self ..)]

/-! ### Connection rules -/

/-- **In two orders of the mappings of a resource a definition is made in both or in neither, and they
have the same connection rules exactly if what a version lists is in both an identity of its own mapping
or a later one, or in neither.** -/
theorem connection_rules_iff_of_perm (hu : generator.UsesAll resource set) (hd : resource.majorVersions.Nodup)
    (hp : mappings.Perm resource.mappings) :
    ((∃ made, generator.alone resource = .ok made) ↔
      ∃ made, generator.alone { resource with mappings := mappings } = .ok made) ∧
    ∀ made made', generator.alone resource = .ok made →
      generator.alone { resource with mappings := mappings } = .ok made' →
      ∃ spec spec', made.definition.part? specPart = some spec ∧
        made'.definition.part? specPart = some spec' ∧
        ((∀ version field, connectionRule version field ∈ spec.rules ↔
          connectionRule version field ∈ spec'.rules) ↔
          ∀ version field, version ≠ connectionProperty → ListsField spec version field →
            (IdentityFrom resource.mappings version field ↔ IdentityFrom mappings version field)) := by
  refine ⟨made_of_perm hu hd hp, fun made made' h h' => ?_⟩
  have hu' : generator.UsesAll { resource with mappings := mappings } set := hu
  obtain ⟨spec, hspec, hr⟩ := ruled_of_alone hu h
  obtain ⟨spec', hspec', hr'⟩ := ruled_of_alone hu' h'
  have hsame {version field : String} (hc : version ≠ connectionProperty) :
      ListsField spec version field ↔ ListsField spec' version field := by
    by_cases hv : version ∈ resource.mappings.map (·.majorVersion)
    · obtain ⟨mapping, hm, rfl⟩ := List.mem_map.mp hv
      have hversion := version_of_perm hu hd hp h h' hm
      rw [hspec, hspec', Option.bind_some, Option.bind_some] at hversion
      rw [ListsField, ListsField, hversion]
    · have hnone : ¬ Keyed.has version spec.properties = true := by
        rw [hr.listed]
        exact fun hl => hl.elim hv fun hl => hc hl.2
      have hnone' : ¬ Keyed.has version spec'.properties = true := by
        rw [hr'.listed]
        exact fun hl => hl.elim (fun hm => hv ((hp.map _).mem_iff.mp hm)) fun hl => hc hl.2
      refine iff_of_false ?_ ?_
      · rintro ⟨schema, hs, -⟩
        exact hnone (Keyed.has_iff.mpr ⟨schema, hs⟩)
      · rintro ⟨schema, hs, -⟩
        exact hnone' (Keyed.has_iff.mpr ⟨schema, hs⟩)
  refine ⟨spec, spec', hspec, hspec', fun hrules version field hc hl => ⟨fun hi => ?_, fun hi => ?_⟩,
    fun hi version field => ⟨fun hm => ?_, fun hm => ?_⟩⟩
  · have hrule := (hr.connectionRule_mem hi.dot_not_mem).mpr ⟨hc, hl, hi⟩
    exact ((hr'.connectionRule_mem hi.dot_not_mem).mp ((hrules _ _).mp hrule)).2.2
  · have hrule := (hr'.connectionRule_mem hi.dot_not_mem).mpr ⟨hc, (hsame hc).mp hl, hi⟩
    exact ((hr.connectionRule_mem hi.dot_not_mem).mp ((hrules _ _).mpr hrule)).2.2
  · obtain ⟨version', field', ⟨hc, hl, hf⟩, he⟩ := hr.guarded hm
    rw [he, hr'.connectionRule_mem (IdentityFrom.dot_not_mem hf)]
    exact ⟨hc, (hsame hc).mp hl, (hi _ _ hc hl).mp hf⟩
  · obtain ⟨version', field', ⟨hc, hl, hf⟩, he⟩ := hr'.guarded hm
    have hl := (hsame hc).mpr hl
    rw [he, hr.connectionRule_mem (IdentityFrom.dot_not_mem hf)]
    exact ⟨hc, hl, (hi _ _ hc hl).mpr hf⟩

end Generator

/-! ### An identity that comes later -/

/-- Projects are asked for by their identity. -/
def projects : OpenApi.Document where
  paths := [("/projects", { get := some {}, parameters := [{ name := "projectId", schema := some {} }] })]

/-- A version of projects, with references that stand in for fields. -/
def projectMapping (majorVersion : String) (references : List Config.Reference) : Config.Mapping where
  majorVersion := majorVersion
  document := "api"
  parameters := { endpoint := { name := "/projects", verb := "get" }, references := references }

/-- A reference that stands in for the identity of a project. -/
def projectReference : Config.Reference where
  name := "projectRef"
  property := "$.projectId"
  target :=
    { type := { kind := "Project", version := "v1", resource := "projects" }, properties := ["$.status.id"] }

/-- A resource whose second version has a reference that its first one lacks. -/
def twoProjects : Config.Resource where
  group := "example.com"
  version := "v1"
  kind := "Project"
  mappings := [projectMapping "v1" [], projectMapping "v2" [projectReference]]

/-- The first version's identity is guarded in one order and not in the other. -/
theorem later_identity_unguarded :
    twoProjects.mappings.reverse.Perm twoProjects.mappings ∧
    ∃ made made' spec spec', (Generator.ofDocument projects).alone twoProjects = .ok made ∧
      (Generator.ofDocument projects).alone { twoProjects with mappings := twoProjects.mappings.reverse } =
        .ok made' ∧
      made.definition.part? specPart = some spec ∧ made'.definition.part? specPart = some spec' ∧
      ListsField spec "v1" "projectId" ∧
      ¬ ∀ version field, connectionRule version field ∈ spec.rules ↔
        connectionRule version field ∈ spec'.rules := by
  have hperm : twoProjects.mappings.reverse.Perm twoProjects.mappings := List.reverse_perm _
  have hcheck : (((Generator.ofDocument projects).generate twoProjects {}).1.toOption.any fun generated =>
      ((generated.definition.part? specPart).bind (·.property? "v1")).any fun version =>
        Keyed.has "projectId" version.properties) = true := by decide +kernel
  obtain ⟨made, after, hg, hlisted⟩ := Generator.generate_of_check hcheck
  have hmade : (Generator.ofDocument projects).alone twoProjects = .ok made := by rw [Generator.alone, hg]
  have hall : (Generator.ofDocument projects).UsesAll twoProjects ⟨"default", true, Pipeline.Plugin.all⟩ :=
    Generator.ofDocument_usesAll projects rfl
  obtain ⟨hboth, hrules⟩ := Generator.connection_rules_iff_of_perm hall (by decide) hperm
  obtain ⟨made', hmade'⟩ := hboth.mp ⟨made, hmade⟩
  obtain ⟨spec, spec', hspec, hspec', hiff⟩ := hrules made made' hmade hmade'
  rw [hspec, Option.bind_some, Option.any_eq_true] at hlisted
  refine ⟨hperm, made, made', spec, spec', hmade, hmade', hspec, hspec', hlisted, fun hall => ?_⟩
  have hfrom : IdentityFrom twoProjects.mappings "v1" "projectId" :=
    ⟨[projectMapping "v1" []], projectMapping "v2" [projectReference], [], rfl, by decide, by decide⟩
  obtain ⟨before, mapping, rest, hs, hm, hi⟩ := (hiff.mp hall "v1" "projectId" (by decide) hlisted).mp hfrom
  -- The second version's mapping comes first, and the first version's has no other identity than the group.
  match before, hs with
  | [], hs =>
    cases hs
    exact absurd hm (by decide)
  | [_], hs =>
    cases hs
    exact absurd hi (by decide)
  | _ :: _ :: _, hs => simp [twoProjects] at hs

end Generation

end CrdForge
