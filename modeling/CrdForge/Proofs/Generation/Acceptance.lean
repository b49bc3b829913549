import CrdForge.Proofs.Crd.Grammar
import CrdForge.Proofs.Pipeline.SpecRules

/-! Which objects the rules on what is asked for accept.

An object is legitimate if it sets one of the versions and the connection. The choice between versions
accepts it, and so do the connection rules of its own version; a connection rule of another version asks
for a field of something that is not there, which is an error. -/
namespace CrdForge.Generation

open Crd.Presence
open Pipeline (Guards PluginSet connectionProperty connectionRule identities specPart)

/-! ### Single fields -/

section
variable {entries inner : List (String × Json)} {version field : String}

theorem holds_single (present : Bool) : Asked.Holds ⟨[field], present⟩ (.object entries) ↔
    Keyed.has field entries = present := by
  rw [Asked.Holds, present?, Option.some_inj]

/-! ### One of several fields -/

/-- The questions that choose one of the fields, those before the remaining ones excluded throughout. -/
def chosenOf (before : List String) : List String → List (List Asked)
  | [] => []
  | field :: rest =>
    ((before.map fun other => ⟨[other], false⟩) ++ ⟨[field], true⟩ :: rest.map fun other =>
      ⟨[other], false⟩) ::
      chosenOf (before ++ [field]) rest

theorem chosenOf_eq (before fields : List String) :
    chosenOf before fields = (Crd.Condition.oneOfClauses before fields).map (·.map askedOf) := by
  induction fields generalizing before with
  | nil => rfl
  | cons field rest ih =>
    rw [chosenOf, Crd.Condition.oneOfClauses, List.map_cons, ih]
    simp [askedOf, Function.comp_def]

theorem chosenOf_literals (before fields : List String) :
    (chosenOf before fields).map (·.map Asked.literal) = Crd.Condition.oneOfClauses before fields := by
  simp [chosenOf_eq, Function.comp_def, literal_askedOf]

theorem mem_chosenOf {before fields : List String} {clause : List Asked} : clause ∈ chosenOf before fields ↔
    ∃ front field back, fields = front ++ field :: back ∧ clause =
      ((before ++ front).map fun other => ⟨[other], false⟩) ++
        ⟨[field], true⟩ :: back.map fun other => ⟨[other], false⟩ := by
  rw [chosenOf_eq, List.mem_map]
  constructor
  · rintro ⟨_, hm, rfl⟩
    obtain ⟨front, field, back, rfl, rfl⟩ := mem_oneOfClauses.mp hm
    exact ⟨front, field, back, rfl, by simp [askedOf, Function.comp_def]⟩
  · rintro ⟨front, field, back, rfl, rfl⟩
    exact ⟨_, mem_oneOfClauses.mpr ⟨front, field, back, rfl, rfl⟩, by simp [askedOf, Function.comp_def]⟩

/-- A rule on several fields accepts the objects with one of them and none of the others. -/
theorem accepts_exactlyOneOf {fields : List String} (hl : 2 ≤ fields.length)
    (hf : ∀ field ∈ fields, isIdentifier field = true) :
    Accepts (.object entries) (.exactlyOneOf fields) ↔ ∃ front field back, fields = front ++ field :: back ∧
      Keyed.has field entries = true ∧ ∀ other ∈ front ++ back, Keyed.has other entries = false := by
  have hcondition : Crd.Condition.exactlyOneOf fields = .anyOf (Crd.Condition.oneOfClauses [] fields) := by
    rcases fields with _ | ⟨first, _ | ⟨second, rest⟩⟩
    · simp at hl
    · simp at hl
    · rfl
  have hne : chosenOf [] fields ≠ [] := by
    cases fields with
    | nil => simp at hl
    | cons first rest => simp [chosenOf]
  have hclause : ∀ clause ∈ chosenOf [] fields, clause ≠ [] ∧ ∀ asked ∈ clause, asked.Readable := by
    intro clause hm
    obtain ⟨front, field, back, rfl, rfl⟩ := mem_chosenOf.mp hm
    refine ⟨by simp, fun asked ha => ?_⟩
    simp only [List.nil_append, List.mem_append, List.mem_map, List.mem_cons] at ha hf
    rcases ha with ⟨other, ho, rfl⟩ | rfl | ⟨other, ho, rfl⟩
    · exact @readable_askedOf ⟨other, false⟩ (hf other (.inl ho))
    · exact @readable_askedOf ⟨field, true⟩ (hf field (.inr (.inl rfl)))
    · exact @readable_askedOf ⟨other, false⟩ (hf other (.inr (.inr ho)))
  rw [Crd.Rule.exactlyOneOf, hcondition, ← chosenOf_literals,
    accepts_condition hne (fun clause hm => (hclause clause hm).1) (fun clause hm => (hclause clause hm).2)]
  constructor
  · rintro ⟨clause, hm, hall⟩
    obtain ⟨front, field, back, rfl, rfl⟩ := mem_chosenOf.mp hm
    refine ⟨front, field, back, rfl, (holds_single true).mp (hall _ (by simp)), fun other ho => ?_⟩
    refine (holds_single false).mp (hall _ ?_)
    rcases List.mem_append.mp ho with ho | ho
    · exact List.mem_append_left _ (List.mem_map.mpr ⟨other, by simpa using ho, rfl⟩)
    · exact List.mem_append_right _ (List.mem_cons_of_mem _ (List.mem_map.mpr ⟨other, ho, rfl⟩))
  · rintro ⟨front, field, back, rfl, hf, ho⟩
    refine ⟨_, mem_chosenOf.mpr ⟨front, field, back, rfl, rfl⟩, fun asked ha => ?_⟩
    simp only [List.nil_append, List.mem_append, List.mem_map, List.mem_cons] at ha
    rcases ha with ⟨other, hm, rfl⟩ | rfl | ⟨other, hm, rfl⟩
    · exact (holds_single false).mpr (ho other (List.mem_append_left _ hm))
    · exact (holds_single true).mpr hf
    · exact (holds_single false).mpr (ho other (List.mem_append_right _ hm))

/-! ### Fields of a version -/

/-- The questions of a connection rule. -/
def connectionAsked (version field : String) : List (List Asked) :=
  [[⟨[version, field], true⟩, ⟨[connectionProperty], true⟩], [⟨[version, field], false⟩]]

/-- A connection rule accepts the objects that set its version, and the connection if they set its field. -/
theorem accepts_connectionRule (hv : isIdentifier version = true) (hf : isIdentifier field = true) :
    Accepts (.object entries) (connectionRule version field) ↔
      (present? (.object entries) [version, field] = some true ∧
        Keyed.has connectionProperty entries = true) ∨
        present? (.object entries) [version, field] = some false := by
  have hreadable (present : Bool) : Asked.Readable ⟨[version, field], present⟩ := by
    refine ⟨List.cons_ne_nil _ _, ?_⟩
    simp [hv, hf]
  have hconnection : Asked.Readable ⟨[connectionProperty], true⟩ := @readable_askedOf ⟨_, true⟩ (by decide)
  have hliterals : (connectionAsked version field).map (·.map Asked.literal) =
      [[⟨version ++ "." ++ field, true⟩, ⟨connectionProperty, true⟩],
        [⟨version ++ "." ++ field, false⟩]] := by
    simp [connectionAsked, Asked.literal, String.intercalate_cons_cons, String.append_assoc]
  rw [connectionRule, Crd.Condition.requiredIf, ← hliterals, accepts_condition (by simp [connectionAsked])
    (by simp [connectionAsked])]
  · simp [connectionAsked, Asked.Holds, present?]
  · simp [connectionAsked, hreadable, hconnection]

end

/-! ### Objects -/

/-- Whether an object sets one version, to an object, and no other. -/
structure SetsOnly (resource : Config.Resource) (entries : List (String × Json)) (version : String)
    (inner : List (String × Json)) : Prop where
  configured : version ∈ resource.majorVersions
  value : entries.lookup version = some (.object inner)
  others : ∀ other ∈ resource.majorVersions, other ≠ version → Keyed.has other entries = false

section
variable {resource : Config.Resource} {entries inner : List (String × Json)} {version : String}
  {spec : Crd.Schema}

theorem present?_field (h : entries.lookup version = some (.object inner)) (field : String) :
    present? (.object entries) [version, field] = some (Keyed.has field inner) := by
  simp [present?, h]

theorem present?_absent (h : Keyed.has version entries = false) (field : String) :
    present? (.object entries) [version, field] = none := by
  have hl : entries.lookup version = none := by simpa [Keyed.has] using h
  simp [present?, hl]

/-- The choice between versions accepts what sets one of them only. -/
theorem SetsOnly.chosen (h : SetsOnly resource entries version inner) (hd : resource.majorVersions.Nodup)
    (hlisted : ∀ name ∈ resource.majorVersions, Keyed.has name spec.properties = true) :
    ∃ front back, Pipeline.presentVersions resource spec = front ++ version :: back ∧
      ∀ other ∈ front ++ back, Keyed.has other entries = false := by
  have hall : Pipeline.presentVersions resource spec = resource.majorVersions :=
    List.filter_eq_self.mpr fun name hm => hlisted name hm
  rw [hall]
  obtain ⟨front, back, hs⟩ := List.append_of_mem h.configured
  refine ⟨front, back, hs, fun other ho => h.others other ?_ ?_⟩
  · rw [hs]
    simp only [List.mem_append, List.mem_cons] at ho ⊢
    exact ho.elim .inl fun hb => .inr (.inr hb)
  · rintro rfl
    rw [hs, List.nodup_append] at hd
    obtain ⟨-, hback, hfront⟩ := hd
    rcases List.mem_append.mp ho with ho | ho
    · exact hfront _ ho _ (List.mem_cons_self ..) rfl
    · exact (List.nodup_cons.mp hback).1 ho

theorem guards_configured {field : String} {other : String} (h : Guards resource.mappings spec other field) :
    other ∈ resource.majorVersions ∧ ∃ mapping ∈ resource.mappings, field ∈ identities mapping := by
  obtain ⟨-, -, before, mapping, after, hs, hm, hi⟩ := h
  rw [Config.Resource.majorVersions, hs]
  exact ⟨Pipeline.mem_names_of_append hm, mapping, by simp, hi⟩

/-- The rules accept an object that sets one version and the connection, if they guard no identity of another
version. -/
theorem accepted_iff (hr : Pipeline.Ruled resource resource.mappings spec) (hd : resource.majorVersions.Nodup)
    (hv : ∀ name ∈ resource.majorVersions, isIdentifier name = true)
    (hf : ∀ mapping ∈ resource.mappings, ∀ field ∈ identities mapping, isIdentifier field = true)
    (h : SetsOnly resource entries version inner) (hc : Keyed.has connectionProperty entries = true) :
    (∀ rule ∈ spec.rules, Accepts (.object entries) rule) ↔
      ∀ other field, Guards resource.mappings spec other field → other = version := by
  have hconnection {other field : String} (hg : Guards resource.mappings spec other field) :
      Accepts (.object entries) (connectionRule other field) ↔ other = version := by
    obtain ⟨hother, mapping, hm, hi⟩ := guards_configured hg
    rw [accepts_connectionRule (hv other hother) (hf mapping hm field hi), hc]
    by_cases he : other = version
    · subst he
      rw [present?_field h.value]
      cases Keyed.has field inner <;> simp
    · rw [present?_absent (h.others other hother he)]
      simp [he]
  constructor
  · intro hall other field hg
    exact (hconnection hg).mp (hall _ ((hr.rules _).mpr (.inr ⟨other, field, hg, rfl⟩)))
  · intro hall rule hm
    rcases (hr.rules rule).mp hm with ⟨hl, rfl⟩ | ⟨other, field, hg, rfl⟩
    · have hlisted : ∀ name ∈ resource.majorVersions, Keyed.has name spec.properties = true :=
        fun name hn => (hr.listed name).mpr (.inl hn)
      obtain ⟨front, back, hs, ho⟩ := h.chosen hd hlisted
      have htwo : 2 ≤ (Pipeline.presentVersions resource spec).length :=
        Pipeline.two_le_presentVersions hd (fun other ho => List.mem_map_of_mem ho) hlisted hl
      refine (accepts_exactlyOneOf htwo fun name hn => hv name (List.mem_filter.mp hn).1).mpr ?_
      exact ⟨front, version, back, hs, Keyed.has_iff.mpr ⟨_, h.value⟩, ho⟩
    · exact (hconnection hg).mpr (hall other field hg)

/-- An object that sets an identity of its version but no connection is not accepted. -/
theorem rejected_of_identity (hr : Pipeline.Ruled resource resource.mappings spec)
    (hv : ∀ name ∈ resource.majorVersions, isIdentifier name = true) {mapping : Config.Mapping}
    {schema : Crd.Schema} {field : String} (hm : mapping ∈ resource.mappings)
    (hi : field ∈ identities mapping) (hf : isIdentifier field = true)
    (hne : mapping.majorVersion ≠ connectionProperty) (hs : spec.property? mapping.majorVersion = some schema)
    (hl : Keyed.has field schema.properties = true)
    (hobject : entries.lookup mapping.majorVersion = some (.object inner))
    (hset : Keyed.has field inner = true) (hc : Keyed.has connectionProperty entries = false) :
    ∃ rule ∈ spec.rules, ¬ Accepts (.object entries) rule := by
  obtain ⟨before, after, hsplit⟩ := List.append_of_mem hm
  have hg : Guards resource.mappings spec mapping.majorVersion field :=
    ⟨hne, ⟨schema, hs, hl⟩, before, mapping, after, hsplit, by simp, hi⟩
  refine ⟨_, (hr.rules _).mpr (.inr ⟨_, _, hg, rfl⟩), ?_⟩
  rw [accepts_connectionRule (hv _ (List.mem_map_of_mem hm)) hf, present?_field hobject, hset, hc]
  simp

/-! ### Definitions -/

/-- **The rules of a definition accept every object that sets one version and the connection exactly if
they guard no identity of another version, and they reject every object that sets an identity of its
version without the connection.** -/
theorem legitimate_accepted_iff {generator : Generator} {set : PluginSet} {cache after : Cache}
    {generated : Generated} (hset : generator.UsesAll resource set)
    (h : generator.generate resource cache = (.ok generated, after))
    (hv : ∀ name ∈ resource.majorVersions, isIdentifier name = true)
    (hf : ∀ mapping ∈ resource.mappings, ∀ field ∈ identities mapping, isIdentifier field = true) :
    ∃ spec, generated.definition.part? specPart = some spec ∧
      (∀ entries version inner, SetsOnly resource entries version inner →
        Keyed.has connectionProperty entries = true →
          ((∀ rule ∈ spec.rules, Accepts (.object entries) rule) ↔
            ∀ other field, Guards resource.mappings spec other field → other = version)) ∧
      ∀ entries inner schema field, ∀ mapping ∈ resource.mappings, field ∈ identities mapping →
        mapping.majorVersion ≠ connectionProperty → spec.property? mapping.majorVersion = some schema →
        Keyed.has field schema.properties = true →
          entries.lookup mapping.majorVersion = some (.object inner) →
        Keyed.has field inner = true → Keyed.has connectionProperty entries = false →
        ∃ rule ∈ spec.rules, ¬ Accepts (.object entries) rule := by
  obtain ⟨hd, parts, hdefinition, -, hrun, -⟩ := Generator.generate_ok hset.1 hset.hasBase h
  have hr := Pipeline.ruled_of_run hset.mappingPlugins hd hrun
  refine ⟨parts.spec, ?_, ?_, ?_⟩
  · rw [hdefinition, Generator.finish_spec]
  · exact fun entries version inner ho hc => accepted_iff hr hd hv hf ho hc
  · intro entries inner schema field mapping hm hi hne hs hl hobject hfield hc
    exact rejected_of_identity hr hv hm hi (hf mapping hm field hi) hne hs hl hobject hfield hc

end

/-- Groups are asked for by their identity. -/
def groups : OpenApi.Document where
  paths := [("/groups", { get := some {}, parameters := [{ name := "groupId", schema := some {} }] })]

def groupMapping (majorVersion : String) : Config.Mapping where
  majorVersion := majorVersion
  document := "api"
  parameters := { endpoint := { name := "/groups", verb := "get" } }

/-- A resource with two versions, both of which list the identity. -/
def twoGroups : Config.Resource where
  group := "example.com"
  version := "v1"
  kind := "Group"
  mappings := [groupMapping "v1", groupMapping "v2"]

/-- A version with the connection is not accepted if the other version lists an identity. -/
theorem two_versions_exclude_each :
    ∃ generated after spec, (Generator.ofDocument groups).generate twoGroups {} = (.ok generated, after) ∧
      generated.definition.part? specPart = some spec ∧
      SetsOnly twoGroups [("v1", .object []), (connectionProperty, .object [])] "v1" [] ∧
      ∃ rule ∈ spec.rules,
        ¬ Accepts (.object [("v1", .object []), (connectionProperty, .object [])]) rule := by
  have hcheck : (((Generator.ofDocument groups).generate twoGroups {}).1.toOption.any fun generated =>
      ((generated.definition.part? specPart).bind (·.property? "v2")).any fun version =>
        Keyed.has "groupId" version.properties) = true := by decide +kernel
  obtain ⟨generated, after, hg, hlisted⟩ := Generator.generate_of_check hcheck
  obtain ⟨spec, hspec, haccepted, -⟩ := legitimate_accepted_iff (Generator.ofDocument_usesAll groups rfl) hg
    (by decide) (by decide)
  have hone : SetsOnly twoGroups [("v1", .object []), (connectionProperty, .object [])] "v1" [] :=
    ⟨by decide, rfl, by decide⟩
  refine ⟨generated, after, spec, hg, hspec, hone, ?_⟩
  refine Classical.byContradiction fun hnone => ?_
  have hall : ∀ rule ∈ spec.rules,
      Accepts (.object [("v1", .object []), (connectionProperty, .object [])]) rule :=
    fun rule hm => Classical.byContradiction fun hn => hnone ⟨rule, hm, hn⟩
  rw [hspec, Option.bind_some, Option.any_eq_true] at hlisted
  have hguarded : Guards twoGroups.mappings spec "v2" "groupId" :=
    ⟨by decide, hlisted, [groupMapping "v1"], groupMapping "v2", [], rfl, by decide, by decide⟩
  have heq := (haccepted _ _ _ hone rfl).mp hall "v2" "groupId" hguarded
  simp at heq

end CrdForge.Generation
