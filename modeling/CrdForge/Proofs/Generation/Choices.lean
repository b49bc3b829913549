import CrdForge.Proofs.Generation.References
import CrdForge.Proofs.Pipeline.VersionChoice

/-! Choices between references and the fields that they stand in for.

References are listed before choices are demanded, and nothing that runs later touches the schemas that
list them. So in a definition that was made each reference is listed, no field that it stands in for is
required, and where both are listed there is a choice between them, each once and in the order of the
references (`references_leave_choices`). -/
namespace CrdForge

namespace Pipeline

section
variable {target listed version referenced schema : Crd.Schema}
  {references : List Config.Reference} {name : String}

/-- The references that a schema lists beside the field that they stand in for. -/
def choosable (target : Crd.Schema) (references : List Config.Reference) : List Config.Reference :=
  references.filter fun reference =>
    Keyed.has reference.leaf target.properties && Keyed.has reference.name target.properties

/-- The choice between a reference and the field that it stands in for. -/
def choiceRule (reference : Config.Reference) : Crd.Rule := .exactlyOneOf [reference.leaf, reference.name]

/-- Whether a schema leaves a choice for each of its references: all are listed, the fields that they
stand in for may be left out, and of those that are listed exactly one is to be set. -/
structure LeavesChoices (target : Crd.Schema) (references : List Config.Reference) : Prop where
  listed : ∀ reference ∈ references, Keyed.has reference.name target.properties = true
  optional : ∀ reference ∈ references, reference.leaf ∉ target.required
  choices : choices target = ((choosable target references).map choiceRule).eraseDups

/-- Where all fields are listed there is a choice for each reference. -/
theorem LeavesChoices.all (h : LeavesChoices target references)
    (hl : ∀ reference ∈ references, Keyed.has reference.leaf target.properties = true) :
    Pipeline.choices target = (references.map choiceRule).eraseDups := by
  have hall : choosable target references = references :=
    List.filter_eq_self.mpr fun reference hm => by rw [hl reference hm, h.listed reference hm, Bool.and_self]
  rw [h.choices, hall]

/-! ### Demanding choices -/

theorem choosable_of_properties (h : schema.properties = target.properties)
    (references : List Config.Reference) :
    choosable schema references = choosable target references := by
  rw [choosable, choosable, h]

/-- Choices change no properties, so they may be listed before any is demanded. -/
theorem withChoices_eq (target : Crd.Schema) (references : List Config.Reference) :
    withChoices target references =
      ((choosable target references).map choiceRule).foldl Crd.Schema.addRule target := by
  induction references generalizing target with
  | nil => rfl
  | cons reference rest ih =>
    rw [withChoices, List.foldl_cons, ← withChoices, choosable, List.filter_cons, ← choosable]
    split
    · rw [ih, choosable_of_properties (addRule_properties ..)]
      rfl
    · exact ih target

theorem addRules_required (rules : List Crd.Rule) (target : Crd.Schema) :
    (rules.foldl Crd.Schema.addRule target).required = target.required := by
  induction rules generalizing target with
  | nil => rfl
  | cons rule rest ih =>
    rw [List.foldl_cons, ih, Crd.Schema.addRule]
    split <;> rfl

/-- Where there are no choices, those that are added stay, each once. -/
theorem choices_addRules {rules : List Crd.Rule} (h : choices target = [])
    (hr : ∀ rule ∈ rules, IsChoice rule) :
    choices (rules.foldl Crd.Schema.addRule target) = rules.eraseDups := by
  induction rules using List.reverseRecOn with
  | nil => exact h
  | append_singleton rest last ih =>
    have ih := ih fun rule hm => hr rule (List.mem_append_left _ hm)
    have hlast : IsChoice last := hr last (List.mem_append_right _ (List.mem_singleton.mpr rfl))
    rw [List.foldl_append, List.foldl_cons, List.foldl_nil, List.eraseDups_append]
    by_cases hm : last ∈ rest
    · rw [addRule_same (by rwa [ih, List.mem_eraseDups]), ih]
      simp [List.removeAll, hm]
    · rw [addRule_choice hlast (by rwa [ih, List.mem_eraseDups]), ih]
      simp [List.removeAll, hm, List.eraseDups_cons]

theorem choices_withChoices (h : choices target = []) (references : List Config.Reference) :
    choices (withChoices target references) = ((choosable target references).map choiceRule).eraseDups := by
  rw [withChoices_eq, choices_addRules h]
  intro rule hm
  obtain ⟨reference, -, rfl⟩ := List.mem_map.mp hm
  exact ⟨_, rfl⟩

/-! ### Listing references -/

/-- Fields that references stand in for are required no more. -/
theorem mem_withReferences_required (h : withReferences target references = (listed, none)) :
    name ∈ listed.required ↔ name ∈ target.required ∧ ∀ reference ∈ references, name ≠ reference.leaf := by
  induction references generalizing target with
  | nil =>
    cases h
    simp
  | cons reference rest ih =>
    rw [withReferences] at h
    split at h
    · cases h
    · rw [ih h, withReference, Crd.Schema.removeRequired, List.mem_filter, List.forall_mem_cons,
        and_assoc, bne_iff_ne]
      rfl

/-- Where references are listed, and none of the fields is required that
they stand in for, the choices between them are left. -/
theorem leavesChoices_withChoices
    (hlisted : ∀ reference ∈ references, Keyed.has reference.name target.properties = true)
    (hoptional : ∀ reference ∈ references, reference.leaf ∉ target.required) (hn : choices target = []) :
    LeavesChoices (withChoices target references) references := by
  have hproperties : (withChoices target references).properties = target.properties :=
    (withChoices_chooses target references).properties
  constructor
  · rwa [hproperties]
  · rwa [withChoices_eq, addRules_required]
  · rw [choices_withChoices hn, choosable_of_properties hproperties]

theorem has_of_withReferences (h : withReferences target references = (listed, none)) :
    ∀ reference ∈ references, Keyed.has reference.name listed.properties = true := by
  intro reference hm
  obtain ⟨property, hp, -⟩ := withReferences_property?_rules h (List.mem_map_of_mem hm)
  exact Keyed.has_iff.mpr ⟨property, hp⟩

theorem leaf_of_withReferences (h : withReferences target references = (listed, none)) :
    ∀ reference ∈ references, reference.leaf ∉ listed.required :=
  fun reference hm hr => ((mem_withReferences_required h).mp hr).2 reference hm rfl

theorem choices_of_withReferences (h : withReferences target references = (listed, none)) :
    choices listed = choices target := by
  rw [choices, choices, (withReferences_heading h).2]

/-- What is listed beside references, or is a reference itself, demands no
choices that were not demanded before. -/
theorem choices_of_property?_withReferences (h : withReferences target references = (listed, none))
    (hn : ∀ name property, target.property? name = some property → choices property = [])
    {property : Crd.Schema} (hp : listed.property? name = some property) : choices property = [] := by
  by_cases hm : name ∈ referenceNames references
  · obtain ⟨other, ho, hrules⟩ := withReferences_property?_rules h hm
    obtain rfl := Option.some.inj (hp.symm.trans ho)
    simp [choices, hrules]
  · exact hn name property ((withReferences_property?_of_notMem h hm).symm.trans hp)

/-! ### Versions -/

section
variable {mapping : Config.Mapping} (h : Refers mapping target referenced)
include h

theorem Refers.leavesChoices (hn : choices target = []) :
    LeavesChoices (withChoices referenced mapping.parameters.references) mapping.parameters.references := by
  cases h with
  | version hl _ =>
    exact leavesChoices_withChoices (has_of_withReferences hl) (leaf_of_withReferences hl)
      ((choices_of_withReferences hl).trans hn)
  | @entry listed entry whole hl _ _ =>
    have hleaf := leaf_of_withReferences hl
    have hnone : choices (listed.insert entryPart whole) = [] := (choices_of_withReferences hl).trans hn
    refine leavesChoices_withChoices (fun reference hm => ?_) hleaf hnone
    rw [Crd.Schema.insert, Keyed.has_insert, has_of_withReferences hl reference hm, Bool.or_true]

theorem Refers.entryLeavesChoices
    (hn : ∀ name property, target.property? name = some property → choices property = []) {entry : Crd.Schema}
    (he : referenced.property? entryPart = some entry) :
    LeavesChoices (withChoices entry mapping.entry.references) mapping.entry.references := by
  cases h with
  | version hl hnone =>
    rw [hnone]
    have hrefers : withReferences entry [] = (entry, none) := rfl
    exact leavesChoices_withChoices (has_of_withReferences hrefers) (leaf_of_withReferences hrefers)
      (choices_of_property?_withReferences hl hn he)
  | @entry listed known whole hl hknown hw =>
    rw [property?_insert, if_pos rfl] at he
    obtain rfl := Option.some.inj he
    exact leavesChoices_withChoices (has_of_withReferences hw) (leaf_of_withReferences hw)
      ((choices_of_withReferences hw).trans (choices_of_property?_withReferences hl hn hknown))

theorem Refers.entry_isSome (hn : mapping.entry.references ≠ []) :
    ∃ entry, referenced.property? entryPart = some entry := by
  cases h with
  | version _ hnone => exact absurd hnone hn
  | entry => exact ⟨_, (property?_insert ..).trans (if_pos rfl)⟩

end

/-- Relisting a property leaves the choices of a schema. -/
theorem LeavesChoices.relist (h : LeavesChoices target references) {old property : Crd.Schema}
    (ho : target.property? name = some old) : LeavesChoices (target.insert name property) references := by
  have hhas (other : String) : Keyed.has other (target.insert name property).properties =
      Keyed.has other target.properties := by
    rw [Crd.Schema.insert, Keyed.has_insert]
    by_cases hn : other = name
    · rw [hn, show Keyed.has name target.properties = true from Keyed.has_iff.mpr ⟨old, ho⟩, Bool.or_true]
    · rw [beq_eq_false_iff_ne.mpr hn, Bool.false_or]
  constructor
  · intro reference hm
    rw [hhas]
    exact h.listed reference hm
  · exact h.optional
  · have hchoosable : choosable (target.insert name property) references = choosable target references := by
      simp only [choosable, hhas]
    rw [hchoosable]
    exact h.choices

/-- Before references are listed, neither a version nor what it lists demands a choice. -/
structure Unchosen (version : Crd.Schema) : Prop where
  self : choices version = []
  property : ∀ name property, version.property? name = some property → choices property = []

theorem Unchosen.insert (h : Unchosen version) {name : String} {property : Crd.Schema}
    (hp : choices property = []) :
    Unchosen (version.insert name property) := by
  refine ⟨h.self, fun other listed hl => ?_⟩
  rw [property?_insert] at hl
  split at hl
  · exact Option.some.inj hl ▸ hp
  · exact h.property other listed hl

section
variable {job : Job}

theorem choices_of_shape {source : Source} {converted : Crd.Schema} (h : job.shape source = some converted) :
    choices converted = [] := by
  rw [choices, (Conversion.bare_of_shapeWithin h).rules]
  rfl

theorem Unchosen.withParameter (h : Unchosen version) (parameter : OpenApi.Parameter) :
    Unchosen (job.withParameter version parameter) := by
  rw [Job.withParameter]
  cases hs : job.parameterShape? parameter with
  | none => exact h
  | some converted =>
    obtain ⟨source, -, hshape⟩ := Option.bind_eq_some_iff.mp hs
    have hconverted := choices_of_shape hshape
    have hproperty : choices (parameterProperty parameter converted) = [] := by
      rw [parameterProperty, choices_addOther]
      · exact hconverted
      · rintro ⟨fields, he⟩
        exact immutable_ne_exactlyOneOf _ fields he
    have hinsert : Unchosen (version.insert parameter.name (parameterProperty parameter converted)) :=
      h.insert hproperty
    dsimp only
    rw [Pipeline.withParameter, Crd.Schema.addRequired]
    split
    · split
      · exact hinsert
      · exact ⟨hinsert.self, hinsert.property⟩
    · exact hinsert

theorem Unchosen.withEntry (h : Unchosen version) (description : String) :
    Unchosen (job.withEntry description version) := by
  rw [Job.withEntry]
  cases hs : job.entryShape? with
  | none => exact h
  | some converted =>
    obtain ⟨source, -, hshape⟩ := Option.bind_eq_some_iff.mp hs
    have hconverted := choices_of_shape hshape
    exact h.insert (show choices (described description converted) = [] from hconverted)

/-- **What plugins make of a version leaves choices for the references of the version and of its entry.** -/
theorem Job.Makes.leavesChoices (h : job.Makes version) :
    LeavesChoices version job.mapping.parameters.references ∧
      (∀ entry, version.property? entryPart = some entry → LeavesChoices entry job.mapping.entry.references) ∧
      (job.mapping.entry.references ≠ [] → ∃ entry, version.property? entryPart = some entry) := by
  obtain @⟨description, referenced, hrefers⟩ := h
  have hempty : Unchosen (emptyVersion job) := ⟨by simp [choices, emptyVersion, Crd.Schema.object], nofun⟩
  have hparameters : Unchosen (job.parameters.foldl job.withParameter (emptyVersion job)) :=
    List.foldlRecOn _ _ hempty fun version hv parameter _ => hv.withParameter parameter
  have hbefore :
      Unchosen (job.withEntry description (job.parameters.foldl job.withParameter (emptyVersion job))) :=
    hparameters.withEntry description
  refine ⟨?_, fun entry he => ?_, fun hn => ?_⟩
  · rw [versionWithChoices]
    split
    · next entry he => exact (hrefers.leavesChoices hbefore.self).relist he
    · exact hrefers.leavesChoices hbefore.self
  · rw [versionWithChoices_property?_eq, if_pos rfl] at he
    obtain ⟨known, hknown, rfl⟩ := Option.map_eq_some_iff.mp he
    exact hrefers.entryLeavesChoices hbefore.property hknown
  · obtain ⟨entry, he⟩ := hrefers.entry_isSome hn
    exact ⟨_, by rw [versionWithChoices_property?_eq, if_pos rfl, he, Option.map_some]⟩

end

end

end Pipeline

namespace Generation.Generator
open Pipeline (PluginSet LeavesChoices entryPart specPart)

variable {generator : Generator} {resource : Config.Resource} {set : PluginSet} {cache after : Cache}
  {generated : Generated}

/-- **In a definition that was made, references leave a choice**: where they are listed, in a version and
in its entry, each is listed, no field that one stands in for is required, and there is exactly one
choice for each that is listed beside its field. -/
theorem references_leave_choices (hset : generator.UsesAll resource set)
    (h : generator.generate resource cache = (.ok generated, after)) :
    ∃ spec, generated.definition.part? specPart = some spec ∧
      ∀ mapping ∈ resource.mappings, ∃ version, spec.property? mapping.majorVersion = some version ∧
        LeavesChoices version mapping.parameters.references ∧
        (∀ entry, version.property? entryPart = some entry → LeavesChoices entry mapping.entry.references) ∧
        (mapping.entry.references ≠ [] → ∃ entry, version.property? entryPart = some entry) := by
  obtain ⟨hd, parts, hdefinition, -, hrun, -⟩ := generate_ok hset.1 hset.hasBase h
  refine ⟨parts.spec, by rw [hdefinition, finish_spec], fun mapping hm => ?_⟩
  obtain ⟨document, -, hcompleted⟩ := (Pipeline.done_of_run hset.mappingPlugins hd hrun).completed mapping hm
  obtain ⟨version, hmakes, hv⟩ := hcompleted.version
  exact ⟨version, hv, hmakes.leavesChoices⟩

end Generation.Generator

namespace Generation
open Pipeline (LeavesChoices choices entryPart specPart)

/-! ### References of seats -/

/-- Seats of groups, each of which is in a team. -/
def seats : OpenApi.Document where
  paths := [("/seats", {
    parameters := [{ name := "groupId", required := true, schema := some { type := some (.one "string") } }]
    get := some {} })]
  components := { schemas := [("Seat", {
    required := ["teamId"]
    properties := [("teamId", { type := some (.one "string") })] })] }

/-- The group of a seat is declared twice. -/
def seatMapping : Config.Mapping where
  majorVersion := "v1"
  document := "api"
  parameters :=
    { endpoint := { name := "/seats", verb := "get" }
      references :=
        [identityReference "groupRef" "$.groupId" "group", identityReference "groupRef" "$.groupId" "group"] }
  entry := { schema := some "Seat", references := [identityReference "teamRef" "$.teamId" "team"] }

def seat : Config.Resource where
  group := "example.com"
  version := "v1"
  kind := "Seat"
  mappings := [seatMapping]

/-- Exactly one of the group and its reference is to be set, and of the team and its reference. -/
theorem seat_leaves_choices :
    ∃ generated after spec version entry,
      (Generator.ofDocument seats).generate seat {} = (.ok generated, after) ∧
      generated.definition.part? specPart = some spec ∧ spec.property? "v1" = some version ∧
      version.property? entryPart = some entry ∧
      LeavesChoices version seatMapping.parameters.references ∧
        LeavesChoices entry seatMapping.entry.references ∧
      choices version = [.exactlyOneOf ["groupId", "groupRef"]] ∧
      choices entry = [.exactlyOneOf ["teamId", "teamRef"]] := by
  have hcheck : (((Generator.ofDocument seats).generate seat {}).1.toOption.any fun generated =>
      ((generated.definition.part? specPart).bind (·.property? "v1")).any fun version =>
        Keyed.has "groupId" version.properties && (version.property? entryPart).any fun entry =>
          Keyed.has "teamId" entry.properties) = true := by
    decide +kernel
  obtain ⟨generated, after, hg, hlisted⟩ := Generator.generate_of_check hcheck
  have hall : (Generator.ofDocument seats).UsesAll seat ⟨"default", true, Pipeline.Plugin.all⟩ :=
    Generator.ofDocument_usesAll seats rfl
  obtain ⟨spec, hspec, hversions⟩ := Generator.references_leave_choices hall hg
  obtain ⟨version, hv, hchoices, hentries, hentry⟩ := hversions seatMapping (List.mem_singleton.mpr rfl)
  obtain ⟨entry, he⟩ := hentry (by simp [seatMapping])
  have hv : spec.property? "v1" = some version := hv
  rw [hspec, Option.bind_some, hv, Option.any_some, he, Option.any_some, Bool.and_eq_true] at hlisted
  refine ⟨generated, after, spec, version, entry, hg, hspec, hv, he, hchoices, hentries entry he, ?_, ?_⟩
  · have hleaf : ∀ reference ∈ seatMapping.parameters.references, reference.leaf = "groupId" := by
      decide +kernel
    rw [hchoices.all fun reference hm => hleaf reference hm ▸ hlisted.1]
    decide +kernel
  · have hleaf : ∀ reference ∈ seatMapping.entry.references, reference.leaf = "teamId" := by decide +kernel
    rw [(hentries entry he).all fun reference hm => hleaf reference hm ▸ hlisted.2]
    decide +kernel

end Generation

end CrdForge
