import CrdForge.Proofs.Conversion.Settling
import CrdForge.Proofs.Pipeline.Structure

/-! Plugins in any order.

Plugins may be called in any order, as often as one likes, for any version, and may
fail; what was done before a failure stays done. Whatever calls there were since
the definition was started over, every node of its schema is structural
(`Draft.Sturdy.after`): in particular it requires nothing that it does not list. -/
namespace CrdForge.Pipeline

open Crd.Schema (Everywhere Settled Structural)
open Run

/-! ### Calls -/

/-- A call of a plugin. -/
inductive Call where
  | base (resource : Config.Resource)
  | mapping (plugin : MappingPlugin) (job : Job)
  | extension (plugin : ExtensionPlugin) (job : Job)

def Call.build : Call → Build Unit
  | .base resource => startOver resource
  | .mapping plugin job => plugin.run job
  | .extension plugin job => plugin.run job

/-- The draft after some calls, whether or not they failed. -/
def Draft.after (draft : Draft) (calls : List Call) : Draft :=
  calls.foldl (fun draft call => (call.build draft).2) draft

/-! ### Edits -/

section
variable {schema property : Crd.Schema}

theorem parameterProperty_structural (h : property.Everywhere Structural) (parameter : OpenApi.Parameter) :
    (parameterProperty parameter property).Everywhere Structural :=
  (h.describe _).addRule (Crd.isBlank_immutable _)

theorem withParameter_structural (h : schema.Everywhere Structural) (hp : property.Everywhere Structural)
    (parameter : OpenApi.Parameter) : (withParameter parameter property schema).Everywhere Structural := by
  have hi : (schema.insert parameter.name (parameterProperty parameter property)).Everywhere Structural :=
    h.insert (parameterProperty_structural hp parameter)
  rw [withParameter]
  split
  · refine hi.addRequired ?_
    rw [Crd.Schema.insert, Keyed.has_insert, beq_self_eq_true, Bool.true_or]
  · exact hi

theorem object_structural (description : String) : (Crd.Schema.object description).Everywhere Structural :=
  (Crd.Schema.object_settled description).mono fun _ hn => hn.toStructural

theorem string_structural (description : String) : (Crd.Schema.string description).Everywhere Structural :=
  (Crd.Schema.string_settled description).mono fun _ hn => hn.toStructural

theorem withReference_structural (h : schema.Everywhere Structural) (reference : Config.Reference)
    (targetProperty : String) : (withReference schema reference targetProperty).Everywhere Structural :=
  (h.insert ((object_structural _).insert (string_structural _))).removeRequired _

theorem withReferences_structural {references : List Config.Reference} {listed : Crd.Schema}
    {failure : Option Failure} (hl : withReferences schema references = (listed, failure))
    (h : schema.Everywhere Structural) : listed.Everywhere Structural :=
  withReferences_keeps (P := Everywhere Structural)
    (fun _ reference targetProperty hs => withReference_structural hs reference targetProperty) hl h

theorem withChoices_structural (h : schema.Everywhere Structural) (references : List Config.Reference) :
    (withChoices schema references).Everywhere Structural :=
  withChoices_keeps (P := Everywhere Structural)
    (fun _ fields hs => hs.addRule (Crd.isBlank_exactlyOneOf fields)) h

theorem versionWithChoices_structural (h : schema.Everywhere Structural) (mapping : Config.Mapping) :
    (versionWithChoices mapping schema).Everywhere Structural := by
  have hv := withChoices_structural h mapping.parameters.references
  rw [versionWithChoices]
  split
  · next entry he => exact hv.insert (withChoices_structural (hv.lookup he) _)
  · exact hv

theorem withVersionChoice_structural (h : schema.Everywhere Structural) (configured : List String)
    (current : String) : (withVersionChoice configured current schema).Everywhere Structural := by
  rw [withVersionChoice]
  split
  · exact h
  · refine Everywhere.addRule ?_ (Crd.isBlank_exactlyOneOf _)
    split
    · exact h
    · exact h.filterRules _

theorem withConnection_structural (h : schema.Everywhere Structural) :
    (withConnection schema).Everywhere Structural := by
  rw [withConnection]
  split
  · exact h
  · exact h.insert ((object_structural _).insert (string_structural _))

theorem withConnectionRules_structural (h : schema.Everywhere Structural) (mapping : Config.Mapping) :
    (withConnectionRules mapping schema).Everywhere Structural := by
  refine List.foldlRecOn _ _ h fun _ hs rule hm => hs.addRule ?_
  obtain ⟨version, field, rfl⟩ := connectionRule_of_mem hm
  exact isBlank_connectionRule version field

/-- What a definition starts with is structural. -/
theorem rootSchema_structural (singular : String) (majorVersions : List String) :
    (rootSchema singular majorVersions).Everywhere Structural := by
  have hfield (type description : String) (format : Option String)
      (hf : ∀ name, format = some name → Crd.supportedFormats.contains name = true) :
      (conditionField type description format).Everywhere Structural := by
    have hsettled : (conditionField type description format).Settled := .of_type rfl hf rfl rfl
    refine .of_nested hsettled.toStructural ?_
    simp [conditionField, Crd.Schema.nested, Crd.Schema.branches, Crd.Schema.additionalSchema?]
  have hcondition : conditionSchema.Everywhere Structural := by
    refine .of_nested
      ⟨rfl, Crd.Schema.knownFormat_none rfl, by decide, by decide, by simp [conditionSchema]⟩ ?_
    intro inner hi
    simp only [conditionSchema, Crd.Schema.nested, Crd.Schema.branches,
      Crd.Schema.additionalSchema?, List.map_cons, List.map_nil, List.append_nil, Option.toList_none,
      List.mem_cons, List.not_mem_nil, or_false] at hi
    rcases hi with rfl | rfl | rfl | rfl | rfl | rfl <;> exact hfield _ _ _ (by decide)
  have hconditions : conditionsSchema.Everywhere Structural := by
    refine .of_nested (Settled.of_type rfl (Crd.Schema.knownFormat_none rfl) rfl rfl).toStructural
      fun inner hi => ?_
    obtain rfl : inner = conditionSchema := by
      simpa [conditionsSchema, Crd.Schema.nested, Crd.Schema.branches, Crd.Schema.additionalSchema?] using hi
    exact hcondition
  exact ((object_structural _).insert (object_structural _)).insert ((object_structural _).insert hconditions)

end

/-! ### Structural drafts -/

/-- A draft that has a schema, with nothing wrong in its nodes, and columns that a cluster can read. -/
structure Draft.Sturdy (draft : Draft) : Prop where
  schema : ∃ root, draft.definition.schema = some root ∧ root.Everywhere Structural
  columns : ∀ column ∈ draft.definition.columns, Text.startsWith "." column.jsonPath = true

/-- Whether a step leaves drafts structural. -/
abbrev Upholds {α : Type} (Q : α → Prop) (step : Build α) : Prop := Maintains Draft.Sturdy Q step

namespace Upholds
variable {α : Type} {job : Job}

theorem onTree {Q : α → Prop} {step : Conversion.Step α} (h : ∀ tree, Q (step tree).1) :
    Upholds Q (onTree step) := by
  intro draft hd
  refine ⟨⟨hd.schema, hd.columns⟩, fun a ha => ?_⟩
  obtain rfl := Except.ok.inj ha
  exact h draft.tree

theorem nodeAt (path : List String) : Upholds (fun _ => True) (nodeAt path) := onTree fun _ => trivial

theorem nodeBelow (parent : Extension.NodeId) (name : String) :
    Upholds (fun _ => True) (nodeBelow parent name) :=
  onTree fun _ => trivial

theorem readPart (part : String) : Upholds (Everywhere Structural) (readPart part) := by
  refine Maintains.get.bind fun draft hd => ?_
  split
  · next schema hs =>
    refine .pure ?_
    obtain ⟨root, hr, he⟩ := hd.schema
    rw [Crd.Definition.part?, hr] at hs
    exact he.lookup hs
  · exact .throw _

theorem editPart {change : Crd.Schema → Crd.Schema} (part : String)
    (h : ∀ schema : Crd.Schema, schema.Everywhere Structural → (change schema).Everywhere Structural) :
    Upholds (fun _ => True) (editPart part change) := by
  refine Maintains.get.bind fun draft hd => ?_
  split
  · next definition hm =>
    refine .set ?_
    obtain ⟨root, hr, he⟩ := hd.schema
    rw [Crd.Definition.modifyPart?, hr] at hm
    obtain ⟨changed, hc, rfl⟩ := Option.map_eq_some_iff.mp hm
    obtain ⟨property, hp, hc⟩ := Option.bind_eq_some_iff.mp hc
    obtain rfl := Option.some.inj hc
    exact ⟨⟨_, rfl, he.insert (h property (he.lookup hp))⟩, hd.columns⟩
  · exact .throw _

theorem readVersion (job : Job) : Upholds (Everywhere Structural) (readVersion job) := by
  refine (readPart specPart).bind fun spec hs => ?_
  split
  · next version hv => exact .pure (hs.lookup hv)
  · exact .throw _

theorem writeVersion {version : Crd.Schema} (h : version.Everywhere Structural) :
    Upholds (fun _ => True) (writeVersion job version) := editPart specPart fun _ hs => hs.insert h

theorem convert (selection : Config.Selection) (schema : OpenApi.Schema) (node : Extension.NodeId) :
    Upholds (fun result => ∀ converted, result = some converted → Everywhere Structural converted)
      (convert job selection schema node) := by
  refine onTree fun tree converted hc => ?_
  have hshape : Conversion.shapeWithin (job.setting selection) Conversion.maxDepth schema [Path.root] =
      some converted := Job.conversion_shape (Prod.ext hc rfl)
  exact (Conversion.shapeWithin_settled _ _ _ _ _ hshape).mono fun _ hn => hn.toStructural

theorem raise (failure : Option Failure) : Upholds (fun _ => True) (raise failure) := by
  cases failure with
  | none => exact .pure trivial
  | some failure => exact .throw failure

end Upholds

/-! ### Plugins -/

section
variable {job : Job}

theorem addVersion_upholds (job : Job) : Upholds (fun _ => True) (addVersion job) :=
  Upholds.editPart specPart fun _ hs => hs.insert (object_structural _)

theorem addParameter_upholds (job : Job) (node : Extension.NodeId) (parameter : OpenApi.Parameter) :
    Upholds (fun _ => True) (addParameter job node parameter) := by
  rw [addParameter]
  split
  · exact .pure trivial
  · split
    · exact .pure trivial
    · refine (Upholds.nodeBelow _ _).bind fun place _ => ?_
      refine (Upholds.convert _ _ _).bind fun result hr => ?_
      split
      · exact .pure trivial
      · next converted =>
        refine (Upholds.readVersion job).bind fun version hv => ?_
        exact Upholds.writeVersion (withParameter_structural hv (hr converted rfl) parameter)

theorem addParameters_upholds (job : Job) : Upholds (fun _ => True) (addParameters job) := by
  rw [addParameters]
  split
  · exact .pure trivial
  · refine (Maintains.liftExcept _).bind fun parameters _ => ?_
    refine (Upholds.nodeAt _).bind fun node _ => ?_
    refine (Upholds.readVersion job).discard.bind fun _ _ => ?_
    refine (Maintains.forIn fun parameter _ => addParameter_upholds job node parameter).bind fun _ _ => ?_
    exact .pure trivial

theorem addEntry_upholds (job : Job) : Upholds (fun _ => True) (addEntry job) := by
  refine (Maintains.liftExcept _).bind fun source _ => ?_
  split
  · exact .pure trivial
  · refine (Upholds.readVersion job).discard.bind fun _ _ => ?_
    refine (Upholds.nodeAt _).bind fun node _ => ?_
    refine (Upholds.convert _ _ _).bind fun result hr => ?_
    split
    · exact .throw _
    · next converted =>
      refine Maintains.get.bind fun draft _ => ?_
      refine (Upholds.readVersion job).bind fun version hv => ?_
      exact Upholds.writeVersion (hv.insert ((hr converted rfl).describe _))

theorem addStatus_upholds (job : Job) : Upholds (fun _ => True) (addStatus job) := by
  refine (Maintains.liftExcept _).bind fun source _ => ?_
  split
  · exact .pure trivial
  · refine (Upholds.nodeAt _).bind fun node _ => ?_
    refine (Upholds.convert _ _ _).bind fun result hr => ?_
    split
    · exact .pure trivial
    · next converted =>
      exact Upholds.editPart statusPart fun _ hs => hs.insert ((hr converted rfl).describe _)

theorem addReferences_upholds (job : Job) : Upholds (fun _ => True) (addReferences job) := by
  rw [addReferences]
  dsimp only
  split
  · exact .pure trivial
  · refine (Upholds.readVersion job).bind fun version hv => ?_
    cases hl : withReferences version job.mapping.parameters.references with
    | mk listed failure =>
      have hlisted := withReferences_structural hl hv
      refine (Upholds.writeVersion hlisted).bind fun _ _ => ?_
      refine (Upholds.raise failure).bind fun _ _ => ?_
      split
      · exact .pure trivial
      · split
        · exact .throw _
        · next entry he =>
          cases hw : withReferences entry job.mapping.entry.references with
          | mk whole failure =>
            have hwhole := withReferences_structural hw (hlisted.lookup he)
            exact (Upholds.writeVersion (hlisted.insert hwhole)).bind fun _ _ => Upholds.raise failure

theorem addChoices_upholds (job : Job) : Upholds (fun _ => True) (addChoices job) :=
  (Upholds.readVersion job).bind fun _ hv =>
    Upholds.writeVersion (versionWithChoices_structural hv job.mapping)

theorem addVersionChoice_upholds (job : Job) : Upholds (fun _ => True) (addVersionChoice job) :=
  Upholds.editPart specPart fun _ hs => withVersionChoice_structural hs _ _

theorem addConnection_upholds (job : Job) : Upholds (fun _ => True) (addConnection job) := by
  refine (Upholds.editPart specPart fun _ hs => withConnection_structural hs).bind fun _ _ => ?_
  refine (Upholds.readVersion job).discard.bind fun _ _ => ?_
  exact Upholds.editPart specPart fun _ hs => withConnectionRules_structural hs job.mapping

theorem setColumns_upholds : Upholds (fun _ => True) setColumns :=
  Maintains.modify fun _ hd => ⟨hd.schema, conditionColumns_fine⟩

theorem annotate_upholds (node : Extension.NodeId) (name : String) (value : Json) :
    Upholds (fun _ => True) (annotate node name value) := Upholds.onTree fun _ => trivial

theorem annotateReference_upholds (parent : List String) (reference : Config.Reference) :
    Upholds (fun _ => True) (annotateReference parent reference) := by
  rw [annotateReference]
  split
  · exact Maintains.bind (Q := fun _ => False) (.throw _) fun _ h => h.elim
  · refine (Upholds.nodeAt _).bind fun place _ => ?_
    refine (Upholds.nodeBelow _ _).bind fun node _ => ?_
    exact (annotate_upholds _ _ _).bind fun _ _ => annotate_upholds _ _ _

theorem MappingPlugin.run_upholds (plugin : MappingPlugin) (job : Job) :
    Upholds (fun _ => True) (plugin.run job) := by
  cases plugin with
  | majorVersion => exact addVersion_upholds job
  | parameters => exact addParameters_upholds job
  | entry => exact addEntry_upholds job
  | status => exact addStatus_upholds job
  | references => exact addReferences_upholds job
  | choices => exact addChoices_upholds job
  | versionChoice => exact addVersionChoice_upholds job
  | connection => exact addConnection_upholds job
  | columns => exact setColumns_upholds

theorem ExtensionPlugin.run_upholds (plugin : ExtensionPlugin) (job : Job) :
    Upholds (fun _ => True) (plugin.run job) := by
  cases plugin with
  | openApiVersion =>
    exact (Upholds.nodeAt _).bind fun _ _ => annotate_upholds _ _ _
  | referenceMetadata =>
    refine (Maintains.forIn fun _ _ => annotateReference_upholds _ _).bind fun _ _ => ?_
    refine (Maintains.forIn fun _ _ => annotateReference_upholds _ _).bind fun _ _ => ?_
    exact .pure trivial

/-- The definition that a resource starts with is structural, whatever the draft was before. -/
theorem startOver_sturdy (resource : Config.Resource) (draft : Draft) :
    (startOver resource draft).2.Sturdy where
  schema := ⟨_, rfl, rootSchema_structural _ _⟩
  columns _ hm := nomatch hm

theorem Call.build_upholds (call : Call) : Upholds (fun _ => True) call.build := by
  cases call with
  | base resource => exact fun draft _ => ⟨startOver_sturdy resource draft, fun _ _ => trivial⟩
  | mapping plugin job => exact plugin.run_upholds job
  | extension plugin job => exact plugin.run_upholds job

/-- **Any calls of plugins leave a draft sturdy that was.** -/
theorem Draft.Sturdy.after {draft : Draft} (h : draft.Sturdy) (calls : List Call) :
    (draft.after calls).Sturdy :=
  List.foldlRecOn calls _ h fun draft hd call _ => (call.build_upholds draft hd).1

/-- **What is required is listed, and required once**: at every node of the schema of a definition,
whatever plugins were called since it was started over, and in ascending order at every node that was
just converted. -/
theorem required_listed (draft : Draft) (resource : Config.Resource) (calls : List Call) :
    (∃ root, (draft.after (.base resource :: calls)).definition.schema = some root ∧
      root.Everywhere fun node => node.required.Nodup ∧ node.required ⊆ Keyed.keys node.properties) ∧
    ∀ setting place depth tree result, (Conversion.convert setting place depth tree).1 = some result →
      result.Everywhere fun node =>
        node.required.Pairwise (· < ·) ∧ node.required ⊆ Keyed.keys node.properties := by
  constructor
  · obtain ⟨root, hr, he⟩ := ((startOver_sturdy resource draft).after calls).schema
    refine ⟨root, hr, he.mono fun node hn => ⟨hn.distinct, fun name hm => ?_⟩⟩
    exact Keyed.mem_keys.mpr (hn.listed name hm)
  · intro setting place depth tree result h
    have hshape := (Conversion.convertWithin_fst setting _ place tree).symm.trans h
    obtain ⟨schema, -, hshape⟩ := Option.bind_eq_some_iff.mp hshape
    refine (Conversion.shapeWithin_settled setting _ _ _ _ hshape).mono fun node hn =>
      ⟨hn.ascends, fun name hm => ?_⟩
    exact Keyed.mem_keys.mpr (hn.listed name hm)

end

/-! #### A login -/

/-- A login with a password, and an identity that only the service writes. -/
def login : OpenApi.Schema where
  type := some (.one "object")
  required := ["user", "password", "team", "id"]
  properties := [("id", { type := some (.one "string"), readOnly := true }),
    ("password", { type := some (.one "string") }), ("team", { type := some (.one "string") }),
    ("user", { type := some (.one "string") })]

/-- The entry of a login refers to a team, and to something without a property. -/
def loginMapping : Config.Mapping where
  majorVersion := "v1"
  document := "api"
  entry := {
    schema := some "Login"
    filters := { readWriteOnly := true, sensitive := ["$.password"] }
    references := [⟨"teamRef", "$.team", ⟨⟨"Team", "example.com", "v1", "teams"⟩, ["$.status.id"]⟩⟩,
      ⟨"userRef", "$.user", ⟨⟨"User", "example.com", "v1", "users"⟩, []⟩⟩] }

def loginResource : Config.Resource where
  group := "example.com"
  version := "v1"
  kind := "Login"
  mappings := [loginMapping]

def loginJob : Job :=
  ⟨loginResource, loginMapping, { components := { schemas := [("Login", login)] } },
    Conversion.PropertyPlugin.all⟩

/-- The first call fails because the version is not there yet, the last one
after the first reference was listed. -/
def loginCalls : List Call :=
  [.mapping .references loginJob, .mapping .majorVersion loginJob, .mapping .entry loginJob,
    .mapping .references loginJob]

theorem login_requires_secret : ∃ root entry,
    (({} : Draft).after (.base loginResource :: loginCalls)).definition.schema = some root ∧
      root.descend? [specPart, "v1", entryPart] = some entry ∧
        entry.required = ["passwordSecretRef", "user"] ∧
      entry.required ⊆ Keyed.keys entry.properties := by
  have hcheck : ((({} : Draft).after (.base loginResource :: loginCalls)).definition.schema.bind
      (·.descend? [specPart, "v1", entryPart])).any
        (fun entry => entry.required == ["passwordSecretRef", "user"]) = true := by decide +kernel
  obtain ⟨root, hroot, hall⟩ := (required_listed {} loginResource loginCalls).1
  rw [hroot, Option.bind_some, Option.any_eq_true] at hcheck
  obtain ⟨entry, hentry, hrequired⟩ := hcheck
  exact ⟨root, entry, hroot, hentry, beq_iff_eq.mp hrequired,
    (hall entry (Crd.Schema.inspected_of_descend hentry).nests).2⟩

end CrdForge.Pipeline
