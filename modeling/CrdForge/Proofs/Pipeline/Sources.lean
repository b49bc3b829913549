import CrdForge.Proofs.Conversion.Orphans
import CrdForge.Proofs.Pipeline.Confinement

/-! What plugins convert for a version.

Parameters, the entry and the status are schemas of the document (`Job.sources`), each of which is
converted at a node of its own and listed if it has a conversion. A run of the plugins for a version
leaves the log of these conversions in the annotations, and at each spot what the last source with a
conversion put there (`Recorded`). -/
namespace CrdForge.Pipeline

open Conversion (Entry Lost SecretLast replay)
open Extension (Link Notes NodeId Tree)
open Run

/-! ### Sources -/

/-- Where the conversion of a schema is listed for a version. -/
inductive Spot where
  | property (name : String)
  | status
  deriving DecidableEq

/-- Where a spot of a version stands in a definition. -/
def Spot.links (version : String) : Spot → List Link
  | .property name => versionPath specPart version ++ [.property name]
  | .status => versionPath statusPart version

/-- A schema of the document that is converted for a version. -/
structure Source where
  spot : Spot
  selection : Config.Selection
  schema : OpenApi.Schema

namespace Job

/-- What becomes of a source. -/
def shape (job : Job) (source : Source) : Option Crd.Schema :=
  Conversion.shapeWithin (job.setting source.selection) Conversion.maxDepth source.schema [Path.root]

/-- The log of the conversion of a source. -/
def entries (job : Job) (source : Source) : List Entry :=
  Conversion.entriesWithin (job.setting source.selection) Conversion.maxDepth source.schema [Path.root]

/-- The log of sources as it is seen from the root of the definition. -/
def record (job : Job) (sources : List Source) : List Entry :=
  sources.flatMap fun source => (job.entries source).map (.under (source.spot.links job.majorVersion))

/-- The parameters of the operation that the selection names, if it names one. -/
def parameters (job : Job) : List OpenApi.Parameter :=
  let endpoint := job.mapping.parameters.endpoint
  if endpoint.isSet then
    ((endpointParameters job.document endpoint).toOption.getD []).filterMap job.document.resolveParameter
  else []

theorem parameters_of_unset {job : Job} (h : job.mapping.parameters.endpoint.isSet = false) :
    job.parameters = [] := by
  simp [parameters, h]

theorem parameters_of_set {job : Job} {found : List OpenApi.Parameter}
    (h : job.mapping.parameters.endpoint.isSet = true)
    (hf : endpointParameters job.document job.mapping.parameters.endpoint = .ok found) :
    job.parameters = found.filterMap job.document.resolveParameter := by
  rw [parameters, if_pos h, hf]
  rfl

def parameterSource? (job : Job) (parameter : OpenApi.Parameter) : Option Source :=
  (parameterSchema? parameter).map (⟨.property parameter.name, job.mapping.parameters, ·⟩)

/-- The source of a part, if the selection names one. -/
def partSource? (job : Job) (selection : Config.Selection) (part : String) (spot : Spot) : Option Source :=
  match sourceSchema job.document selection part with
  | .ok (some schema) => some ⟨spot, selection, schema⟩
  | _ => none

/-- All that is converted for a version, in order. -/
def sources (job : Job) : List Source :=
  job.parameters.filterMap job.parameterSource? ++
    (job.partSource? job.mapping.entry entryPart (.property entryPart)).toList ++
    (job.partSource? job.mapping.status statusPart .status).toList

end Job

/-- What is listed at a spot. -/
def Parts.at? (parts : Parts) (job : Job) : Spot → Option Crd.Schema
  | .property name => (parts.version? job).bind (·.property? name)
  | .status => parts.status.property? job.majorVersion

theorem at?_withTree (job : Job) (parts : Parts) (tree : Tree) (spot : Spot) :
    (parts.withTree tree).at? job spot = parts.at? job spot := by
  cases spot <;> rfl

/-! ### Single sources -/

/-- What the conversion of a source does: it leaves its log, and lists the result if there is one. -/
structure SourceStep (job : Job) (source : Source) (parts after : Parts) : Prop where
  sound : after.tree.Sound
  said : after.tree.said Tree.root =
    replay ((job.entries source).map (.under (source.spot.links job.majorVersion)))
      (parts.tree.said Tree.root)
  listed : ∀ result, job.shape source = some result →
    ∃ schema, after.at? job source.spot = some schema ∧ schema.Covers [] result
  others : ∀ spot, spot ≠ source.spot ∨ job.shape source = none → after.at? job spot = parts.at? job spot

section
variable {job : Job} {parts middle after : Parts} {node : NodeId} {tree later : Tree}
  {result : Option Crd.Schema}

/-- The conversion of a source at the node of its spot. -/
theorem conversion_record (source : Source) (ht : tree.Sound)
    (hx : tree.follow? Tree.root (source.spot.links job.majorVersion) = some node)
    (hc : job.conversion source.selection source.schema node tree = (result, later)) :
    job.shape source = result ∧ later.Sound ∧ Tree.Grows node tree later ∧ later.said Tree.root =
      replay ((job.entries source).map (.under (source.spot.links job.majorVersion)))
        (tree.said Tree.root) := by
  obtain ⟨hr, he, hg⟩ := conversion_edits job source.selection source.schema ht hx
  rw [hc] at hr he hg
  refine ⟨hr.symm, he.sound, hg, ?_⟩
  rw [he.said, Conversion.notesWithin_eq_replay, Conversion.replay_under]
  rfl

/-- A source without a conversion is listed nowhere. -/
theorem SourceStep.left {source : Source} (hs : later.Sound) (hn : job.shape source = none)
    (hsaid : later.said Tree.root =
      replay ((job.entries source).map (.under (source.spot.links job.majorVersion)))
        (parts.tree.said Tree.root)) :
    SourceStep job source parts (parts.withTree later) where
  sound := hs
  said := hsaid
  listed result h := by
    rw [hn] at h
    cases h
  others spot _ := at?_withTree ..

/-- The conversion of a source is listed as a property of the version. -/
theorem SourceStep.property {source : Source} {name : String} {version listed schema converted : Crd.Schema}
    (hs : later.Sound) (hsome : job.shape source = some converted)
    (hsaid : later.said Tree.root =
      replay ((job.entries source).map (.under (source.spot.links job.majorVersion)))
        (parts.tree.said Tree.root))
    (hn : source.spot = .property name) (hv : parts.version? job = some version)
    (hl : listed.properties = Keyed.insert name schema version.properties) (hc : schema.Covers [] converted) :
    SourceStep job source parts ((parts.withTree later).withVersion job listed) := by
  have hversion : ((parts.withTree later).withVersion job listed).version? job = some listed :=
    Parts.version?_withVersion ..
  refine ⟨hs, hsaid, fun result h => ?_, fun spot hspot => ?_⟩
  · obtain rfl := Option.some.inj (hsome.symm.trans h)
    refine ⟨schema, ?_, hc⟩
    rw [hn, Parts.at?, hversion, Option.bind_some, Crd.Schema.property?, hl, Keyed.lookup_insert, if_pos rfl]
  · have hspot : spot ≠ source.spot := hspot.resolve_right (by rw [hsome]; simp)
    cases spot with
    | status => rfl
    | property other =>
      have ho : other ≠ name := fun he => hspot (by rw [he, hn])
      rw [Parts.at?, Parts.at?, hversion, hv, Option.bind_some, Option.bind_some, Crd.Schema.property?, hl,
        Keyed.lookup_insert, if_neg ho, Crd.Schema.property?]

/-- The conversion of a source is listed in the status. -/
theorem SourceStep.status {source : Source} {schema converted : Crd.Schema} (hs : later.Sound)
    (hsome : job.shape source = some converted)
    (hsaid : later.said Tree.root =
      replay ((job.entries source).map (.under (source.spot.links job.majorVersion)))
        (parts.tree.said Tree.root))
    (hn : source.spot = .status) (hc : schema.Covers [] converted) :
    SourceStep job source parts
      (({ parts with status := parts.status.insert job.majorVersion schema } : Parts).withTree later) where
  sound := hs
  said := hsaid
  listed result h := by
    obtain rfl := Option.some.inj (hsome.symm.trans h)
    refine ⟨schema, ?_, hc⟩
    rw [hn]
    exact (Keyed.lookup_insert ..).trans (if_pos rfl)
  others spot hspot := by
    cases spot with
    | property name => rfl
    | status => exact absurd hn.symm (hspot.resolve_right (by rw [hsome]; simp))

end

/-! ### Parameters -/

section
variable {job : Job} {parts after : Parts} {node : NodeId}

theorem withParameter_properties (parameter : OpenApi.Parameter) (converted version : Crd.Schema) :
    (withParameter parameter converted version).properties =
      Keyed.insert parameter.name (parameterProperty parameter converted) version.properties := by
  rw [withParameter]
  split
  · rw [Crd.Schema.addRequired]
    split <;> rfl
  · rfl

theorem parameterProperty_covers (parameter : OpenApi.Parameter) (converted : Crd.Schema) :
    (parameterProperty parameter converted).Covers [] converted := by
  rw [parameterProperty, Crd.Schema.addRule]
  split <;> exact .of_eq rfl rfl rfl

/-- The node of the version stays where it is while a parameter is converted. -/
theorem ParameterStep.source {parameter : OpenApi.Parameter}
    (h : ParameterStep job node parameter parts after) (hs : parts.tree.Sound)
    (hx : parts.tree.follow? Tree.root (versionPath specPart job.majorVersion) = some node) :
    after.tree.Sound ∧ after.tree.follow? Tree.root (versionPath specPart job.majorVersion) = some node ∧
      Each (SourceStep job) (job.parameterSource? parameter).toList parts after := by
  obtain ⟨he, hplace, hg⟩ := Tree.child_edits hs hx parameter.name
  have hkeep := hg.keeps hs hx (List.prefix_refl _) hx
  have hsaid := he.said
  rw [Notes.replace_beyond] at hsaid
  cases h with
  | passed hn =>
    rw [Job.parameterSource?, hn]
    exact ⟨hs, hx, .nil parts⟩
  | left hp hc =>
    obtain ⟨hr, hsound, hgrows, hrecord⟩ :=
      conversion_record ⟨.property parameter.name, job.mapping.parameters, _⟩
      he.sound hplace hc
    rw [hsaid] at hrecord
    rw [Job.parameterSource?, hp]
    exact ⟨hsound, hgrows.keeps he.sound hplace (List.prefix_append ..) hkeep,
      .cons (.left hsound hr hrecord) (.nil _)⟩
  | listed hp hc hv =>
    obtain ⟨hr, hsound, hgrows, hrecord⟩ :=
      conversion_record ⟨.property parameter.name, job.mapping.parameters, _⟩
      he.sound hplace hc
    rw [hsaid] at hrecord
    rw [Job.parameterSource?, hp]
    refine ⟨hsound, hgrows.keeps he.sound hplace (List.prefix_append ..) hkeep, .cons ?_ (.nil _)⟩
    exact .property hsound hr hrecord rfl hv (withParameter_properties ..) (parameterProperty_covers ..)

theorem parameters_sources {parameters : List OpenApi.Parameter}
    (h : Each (ParameterStep job node) parameters parts after) (hs : parts.tree.Sound)
    (hx : parts.tree.follow? Tree.root (versionPath specPart job.majorVersion) = some node) :
    Each (SourceStep job) (parameters.filterMap job.parameterSource?) parts after := by
  induction h with
  | nil => exact .nil _
  | @cons parameter rest parts middle after hfirst _ ih =>
    obtain ⟨hs, hx, hone⟩ := hfirst.source hs hx
    have hsplit : (parameter :: rest).filterMap job.parameterSource? =
        (job.parameterSource? parameter).toList ++ rest.filterMap job.parameterSource? := by
      rw [List.filterMap_cons]
      cases job.parameterSource? parameter <;> rfl
    rw [hsplit]
    exact hone.concat (ih hs hx)

end

/-! ### Runs over sources -/

/-- What is left of the conversion of sources: their log, and at each spot
the result of the last one that has any. -/
structure Recorded (job : Job) (sources : List Source) (parts : Parts) : Prop where
  sound : parts.tree.Sound
  said : parts.tree.said Tree.root = replay (job.record sources) Notes.none
  present : ∀ source ∈ sources, (job.shape source).isSome = true → (parts.at? job source.spot).isSome = true
  listed : ∀ before source later result, sources = before ++ source :: later →
    job.shape source = some result →
    (∀ other ∈ later, other.spot = source.spot → job.shape other = none) →
    ∃ schema, parts.at? job source.spot = some schema ∧ schema.Covers [] result

section
variable {job : Job} {sources more : List Source} {source : Source} {parts after : Parts} {tree : Tree}

theorem Recorded.step (h : Recorded job sources parts) (hs : SourceStep job source parts after) :
    Recorded job (sources ++ [source]) after where
  sound := hs.sound
  said := by
    rw [hs.said, h.said, Job.record, Job.record, List.flatMap_append, List.flatMap_singleton,
      Conversion.replay_append]
  present := by
    intro other hm hsome
    by_cases hat : other.spot = source.spot ∧ (job.shape source).isSome = true
    · obtain ⟨result, hresult⟩ := Option.isSome_iff_exists.mp hat.2
      obtain ⟨schema, hschema, -⟩ := hs.listed result hresult
      rw [hat.1, hschema]
      rfl
    · have hnone : other.spot ≠ source.spot ∨ job.shape source = none := by
        rcases not_and_or.mp hat with he | hn
        · exact .inl he
        · exact .inr (Option.not_isSome_iff_eq_none.mp hn)
      rw [hs.others _ hnone]
      rcases List.mem_append.mp hm with hm | hm
      · exact h.present other hm hsome
      · obtain rfl := List.mem_singleton.mp hm
        exact absurd ⟨rfl, hsome⟩ hat
  listed := by
    intro before other later result hsplit hresult hlast
    rcases List.eq_nil_or_concat later with rfl | ⟨later, last, rfl⟩
    · obtain ⟨-, hother⟩ := List.append_inj' hsplit rfl
      obtain rfl := (List.cons.inj hother).1
      exact hs.listed result hresult
    · rw [List.concat_eq_append, ← List.cons_append, ← List.append_assoc] at hsplit
      obtain ⟨hsources, hsource⟩ := List.append_inj' hsplit rfl
      obtain rfl := (List.cons.inj hsource).1
      have hnone : other.spot ≠ source.spot ∨ job.shape source = none := by
        by_cases he : source.spot = other.spot
        · exact .inr (hlast source (by simp) he)
        · exact .inl (Ne.symm he)
      rw [hs.others _ hnone]
      exact h.listed before other later result hsources hresult fun x hx => hlast x (by simp [hx])

theorem Recorded.each (h : Recorded job sources parts) (hs : Each (SourceStep job) more parts after) :
    Recorded job (sources ++ more) after :=
  hs.invariant (Recorded job) (fun _ _ _ _ _ h hs => h.step hs) h

/-- To make nodes leaves everything as it is. -/
theorem Recorded.withTree (h : Recorded job sources parts) (hs : tree.Sound)
    (hsaid : tree.said Tree.root = parts.tree.said Tree.root) :
    Recorded job sources (parts.withTree tree) where
  sound := hs
  said := hsaid.trans h.said
  present source hm hsome := by
    rw [at?_withTree]
    exact h.present source hm hsome
  listed := by
    intro before source later result hsplit hresult hlast
    obtain ⟨schema, hat, hc⟩ := h.listed before source later result hsplit hresult hlast
    exact ⟨schema, (at?_withTree ..).trans hat, hc⟩

/-- The conversion of a source at the node at the end of its path, made if there is none. -/
theorem Recorded.conversion (h : Recorded job sources parts) (source : Source) {names : List String}
    {result : Option Crd.Schema} (hn : names.map .property = source.spot.links job.majorVersion)
    (hc : job.conversion source.selection source.schema (parts.tree.descend Tree.root names).1
      (parts.tree.descend Tree.root names).2 = (result, tree)) :
    job.shape source = result ∧ tree.Sound ∧ tree.said Tree.root =
      replay ((job.entries source).map (.under (source.spot.links job.majorVersion)))
        (parts.tree.said Tree.root) := by
  obtain ⟨he, hnode⟩ := Tree.descend_edits h.sound names
  have hsaid := he.said
  rw [Notes.replace_beyond] at hsaid
  obtain ⟨hshape, hsound, -, hrecord⟩ := conversion_record source he.sound (hn ▸ hnode) hc
  rw [hsaid] at hrecord
  exact ⟨hshape, hsound, hrecord⟩

theorem ParametersStep.recorded (h : ParametersStep job parts after) (hr : Recorded job sources parts) :
    Recorded job (sources ++ job.parameters.filterMap job.parameterSource?) after := by
  cases h with
  | unset hset =>
    rw [Job.parameters_of_unset hset, List.filterMap_nil, List.append_nil]
    exact hr
  | @set _ parameters hset hparameters hrun =>
    obtain ⟨he, hnode⟩ := Tree.descend_edits hr.sound [specPart, job.majorVersion]
    have hsaid := he.said
    rw [Notes.replace_beyond] at hsaid
    rw [Job.parameters_of_set hset hparameters]
    exact (hr.withTree he.sound hsaid).each (parameters_sources hrun he.sound hnode)

theorem EntryStep.recorded (h : EntryStep job parts after) (hr : Recorded job sources parts) :
    Recorded job (sources ++ (job.partSource? job.mapping.entry entryPart (.property entryPart)).toList)
      after := by
  cases h with
  | unset hs =>
    rw [Job.partSource?, hs]
    simpa using hr
  | listed description hs hc hv =>
    obtain ⟨hshape, hsound, hrecord⟩ := hr.conversion ⟨.property entryPart, job.mapping.entry, _⟩ rfl hc
    rw [Job.partSource?, hs]
    exact hr.step (.property hsound hshape hrecord rfl hv rfl (.of_eq rfl rfl rfl))

theorem StatusStep.recorded (h : StatusStep job parts after) (hr : Recorded job sources parts) :
    Recorded job (sources ++ (job.partSource? job.mapping.status statusPart .status).toList) after := by
  cases h with
  | unset hs =>
    rw [Job.partSource?, hs]
    simpa using hr
  | left hs hc =>
    obtain ⟨hshape, hsound, hrecord⟩ := hr.conversion ⟨.status, job.mapping.status, _⟩ rfl hc
    rw [Job.partSource?, hs]
    exact hr.step (.left hsound hshape hrecord)
  | listed description hs hc =>
    obtain ⟨hshape, hsound, hrecord⟩ := hr.conversion ⟨.status, job.mapping.status, _⟩ rfl hc
    rw [Job.partSource?, hs]
    exact hr.step (.status hsound hshape hrecord rfl (.of_eq rfl rfl rfl))

end

end CrdForge.Pipeline
