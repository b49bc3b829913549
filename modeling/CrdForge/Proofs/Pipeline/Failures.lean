import CrdForge.Proofs.Pipeline.SpecRules

/-! What plugins for a version fail with.

Once the definition was started over, both parts of the schema are there whatever
plugins run, and the version that they work on is there as soon as it was added
(`MappingPlugin.run_triple`). So what a plugin fails with is about the document,
the configuration or a conversion, unless the version was never added. -/
namespace CrdForge.Pipeline

open Run

/-! ### Drafts and failures -/

/-- Whether a draft has all parts, and the version that plugins work on if that was added. -/
def Stocked (resource : Config.Resource) (job : Job) (added : Prop) (draft : Draft) : Prop :=
  ∃ parts : Parts, draft = parts.draft resource ∧ (added → (parts.version? job).isSome)

/-- Whether a failure can come from a draft that has all parts: the only part that may be missing is the
entry of the version, and the version itself if that was not added. -/
def Failure.Possible (added : Prop) : Failure → Prop
  | .missingPart part => part = entryPart
  | .versionNotFound _ => ¬ added
  | _ => True

section
variable {resource : Config.Resource} {job : Job} {added : Prop} {F : Failure → Prop}

theorem Stocked.parts {draft : Draft} (h : Stocked resource job added draft) :
    ∃ parts : Parts, draft = parts.draft resource :=
  let ⟨parts, hd, _⟩ := h
  ⟨parts, hd⟩

/-- Whether a step keeps what a draft needs, and fails only in certain ways. -/
abbrev Keeping (resource : Config.Resource) (job : Job) (added : Prop) (F : Failure → Prop) {α : Type}
    (step : Build α) : Prop :=
  Triple (Stocked resource job added) step (fun _ => Stocked resource job added) F

/-! ### Steps -/

theorem readVersion_triple : Keeping resource job added (Failure.Possible added) (readVersion job) := by
  rintro _ ⟨parts, rfl, hv⟩
  rw [readVersion_draft]
  cases hp : parts.version? job with
  | some version => exact ⟨parts, rfl, hv⟩
  | none => exact fun ha => by simpa [hp] using hv ha

theorem writeVersion_triple (version : Crd.Schema) :
    Keeping resource job added F (writeVersion job version) := by
  rintro _ ⟨parts, rfl, -⟩
  rw [writeVersion_draft]
  exact ⟨_, rfl, fun _ => by rw [Parts.version?_withVersion]; rfl⟩

theorem editPart_spec_triple {change : Crd.Schema → Crd.Schema}
    (h : ∀ spec, Keyed.has job.majorVersion spec.properties →
      Keyed.has job.majorVersion (change spec).properties) :
    Keeping resource job added F (editPart specPart change) := by
  rintro _ ⟨parts, rfl, hv⟩
  rw [Parts.editPart_spec]
  refine ⟨_, rfl, fun ha => ?_⟩
  have hlisted : Keyed.has job.majorVersion parts.spec.properties := hv ha
  exact h parts.spec hlisted

theorem nodeAt_triple (path : List String) : Keeping resource job added F (nodeAt path) := by
  rintro _ ⟨parts, rfl, hv⟩
  rw [nodeAt_draft]
  exact ⟨_, rfl, hv⟩

theorem nodeBelow_triple (node : Extension.NodeId) (name : String) :
    Keeping resource job added F (nodeBelow node name) := by
  rintro _ ⟨parts, rfl, hv⟩
  rw [nodeBelow_draft]
  exact ⟨_, rfl, hv⟩

theorem annotate_triple (node : Extension.NodeId) (name : String) (value : Json) :
    Keeping resource job added F (annotate node name value) := by
  rintro _ ⟨parts, rfl, hv⟩
  rw [annotate_draft]
  exact ⟨_, rfl, hv⟩

theorem convert_triple (selection : Config.Selection) (schema : OpenApi.Schema) (node : Extension.NodeId) :
    Keeping resource job added F (convert job selection schema node) := by
  rintro _ ⟨parts, rfl, hv⟩
  rw [convert_draft]
  exact ⟨_, rfl, hv⟩

theorem raise_triple (failure : Option Failure) (h : ∀ found, failure = some found → F found) :
    Keeping resource job added F (raise failure) := by
  cases failure with
  | none => exact .pure fun _ hs => hs
  | some found => exact .throw (h found rfl)

/-! ### Sources -/

theorem operationOf_yields (document : OpenApi.Document) (endpoint : Config.Endpoint) :
    Yields (fun _ => True) (Failure.Possible added) (operationOf document endpoint) := by
  rw [operationOf]
  split
  · trivial
  · split <;> trivial

theorem endpointSchema_yields (document : OpenApi.Document) (endpoint : Config.Endpoint) :
    Yields (fun _ => True) (Failure.Possible added) (endpointSchema document endpoint) := by
  refine (operationOf_yields document endpoint).bind fun operation _ => ?_
  dsimp only
  split <;> trivial

theorem sourceSchema_yields (document : OpenApi.Document) (selection : Config.Selection) (part : String) :
    Yields (fun _ => True) (Failure.Possible added) (sourceSchema document selection part) := by
  rw [sourceSchema]
  split
  · split <;> trivial
  · split
    · exact (endpointSchema_yields document selection.endpoint).map fun _ _ => trivial
    · trivial

theorem endpointParameters_yields (document : OpenApi.Document) (endpoint : Config.Endpoint) :
    Yields (fun _ => True) (Failure.Possible added) (endpointParameters document endpoint) := by
  rw [endpointParameters]
  split
  · trivial
  · split
    · trivial
    · split <;> trivial

theorem withReferences_possible {target : Crd.Schema} {references : List Config.Reference} {failure : Failure}
    (h : (withReferences target references).2 = some failure) : failure.Possible added := by
  induction references generalizing target with
  | nil => cases h
  | cons reference rest ih =>
    rw [withReferences] at h
    split at h
    · cases h
      trivial
    · exact ih h

/-! ### Plugins -/

/-- To add the version does not fail, and it is there afterwards. -/
theorem addVersion_triple : Triple (Stocked resource job added) (addVersion job)
    (fun _ => Stocked resource job True) fun _ => False := by
  rintro _ ⟨parts, rfl, -⟩
  rw [addVersion, Parts.editPart_spec]
  exact ⟨parts.withVersion job (emptyVersion job), rfl, fun _ => by rw [Parts.version?_withVersion]; rfl⟩

theorem addParameter_triple (node : Extension.NodeId) (parameter : OpenApi.Parameter) :
    Keeping resource job added (Failure.Possible added) (addParameter job node parameter) := by
  rw [addParameter]
  split
  · exact .pure fun _ hs => hs
  · split
    · exact .pure fun _ hs => hs
    · refine .bind (nodeBelow_triple _ _) fun place => .bind (convert_triple _ _ _) fun converted => ?_
      split
      · exact .pure fun _ hs => hs
      · exact .bind readVersion_triple fun version => writeVersion_triple _

theorem addParameters_triple : Keeping resource job added (Failure.Possible added) (addParameters job) := by
  rw [addParameters]
  split
  · exact .pure fun _ hs => hs
  · refine .bind (.liftExcept (endpointParameters_yields _ _)) fun parameters => ?_
    refine .bind ((nodeAt_triple _).mono (fun _ h => h.2) (fun _ _ h => h) fun _ h => h) fun node => ?_
    refine .bind (.discard (I := Stocked resource job added) ?_) fun _ => ?_
    · exact readVersion_triple
    · exact .bind (.forIn fun parameter _ => addParameter_triple _ _) fun _ => .pure fun _ hs => hs

theorem addEntry_triple : Keeping resource job added (Failure.Possible added) (addEntry job) := by
  rw [addEntry]
  refine .bind (.liftExcept (sourceSchema_yields _ _ _)) fun source => ?_
  refine .mono (P := Stocked resource job added) ?_ (fun _ h => h.2) (fun _ _ h => h) fun _ h => h
  split
  · exact .pure fun _ hs => hs
  · refine .bind (.discard (I := Stocked resource job added) readVersion_triple) fun _ => ?_
    refine .bind (nodeAt_triple _) fun node => .bind (convert_triple _ _ _) fun converted => ?_
    split
    · exact .throw trivial
    · refine .bind (Q := fun _ => Stocked resource job added) (fun s hs => hs) fun draft => ?_
      exact .bind readVersion_triple fun version => writeVersion_triple _

theorem addStatus_triple : Keeping resource job added (Failure.Possible added) (addStatus job) := by
  rw [addStatus]
  refine .bind (.liftExcept (sourceSchema_yields _ _ _)) fun source => ?_
  refine .mono (P := Stocked resource job added) ?_ (fun _ h => h.2) (fun _ _ h => h) fun _ h => h
  split
  · exact .pure fun _ hs => hs
  · refine .bind (nodeAt_triple _) fun node => .bind (convert_triple _ _ _) fun converted => ?_
    split
    · exact .pure fun _ hs => hs
    · rintro _ ⟨parts, rfl, hv⟩
      rw [Parts.editPart_status]
      exact ⟨_, rfl, hv⟩

theorem addReferences_triple : Keeping resource job added (Failure.Possible added) (addReferences job) := by
  rw [addReferences]
  dsimp only
  split
  · exact .pure fun _ hs => hs
  · refine .bind readVersion_triple fun version => ?_
    refine .bind (writeVersion_triple _) fun _ =>
      .bind (raise_triple _ fun _ => withReferences_possible) fun _ => ?_
    split
    · exact .pure fun _ hs => hs
    · split
      · exact .throw rfl
      · exact .bind (writeVersion_triple _) fun _ => raise_triple _ fun _ => withReferences_possible

theorem addChoices_triple : Keeping resource job added (Failure.Possible added) (addChoices job) :=
  .bind readVersion_triple fun _ => writeVersion_triple _

theorem addVersionChoice_triple : Keeping resource job added F (addVersionChoice job) :=
  editPart_spec_triple fun spec h => by rwa [withVersionChoice_properties]

theorem addConnection_triple : Keeping resource job added (Failure.Possible added) (addConnection job) := by
  refine .bind (editPart_spec_triple fun spec h => (has_withConnection _ _).mpr (.inr h)) fun _ => ?_
  refine .bind (.discard (I := Stocked resource job added) readVersion_triple) fun _ => ?_
  exact editPart_spec_triple fun spec h => by rwa [withConnectionRules_properties]

theorem setColumns_triple : Keeping resource job added F setColumns := by
  rintro _ ⟨parts, rfl, hv⟩
  rw [Parts.setColumns_draft]
  exact ⟨_, rfl, hv⟩

/-- **A plugin for a version keeps what a draft needs, and does not fail for the lack of it.** -/
theorem MappingPlugin.run_triple (plugin : MappingPlugin) :
    Keeping resource job added (Failure.Possible added) (plugin.run job) := by
  cases plugin with
  | majorVersion =>
    refine addVersion_triple.mono (fun _ h => h) ?_ fun _ => False.elim
    rintro _ _ ⟨parts, hd, hv⟩
    exact ⟨parts, hd, fun _ => hv trivial⟩
  | parameters => exact addParameters_triple
  | entry => exact addEntry_triple
  | status => exact addStatus_triple
  | references => exact addReferences_triple
  | choices => exact addChoices_triple
  | versionChoice => exact addVersionChoice_triple
  | connection => exact addConnection_triple
  | columns => exact setColumns_triple

theorem annotateReference_triple (parent : List String) (reference : Config.Reference) :
    Keeping resource job added (· = .emptyReferenceTarget) (annotateReference parent reference) := by
  rw [annotateReference]
  split
  · exact .bind (Q := fun _ _ => False) (.throw rfl) fun _ _ => False.elim
  · refine .bind (nodeAt_triple _) fun _ => .bind (nodeBelow_triple _ _) fun node => ?_
    exact .bind (annotate_triple _ _ _) fun _ => annotate_triple _ _ _

theorem ExtensionPlugin.run_triple (plugin : ExtensionPlugin) :
    Keeping resource job added (· = .emptyReferenceTarget) (plugin.run job) := by
  cases plugin with
  | openApiVersion => exact .bind (nodeAt_triple _) fun _ => annotate_triple _ _ _
  | referenceMetadata =>
    refine .bind (.forIn fun _ _ => annotateReference_triple _ _) fun _ => ?_
    exact .bind (.forIn fun _ _ => annotateReference_triple _ _) fun _ => .pure fun _ hs => hs

end

/-! ### Sets -/

/-- Whether a set adds the version before it runs any other plugin for it. -/
def PluginSet.VersionFirst (set : PluginSet) : Prop :=
  ∀ before plugin after, set.mappingPlugins = before ++ plugin :: after → plugin ≠ .majorVersion →
    .majorVersion ∈ before

theorem PluginSet.VersionFirst.head {set : PluginSet} (h : set.VersionFirst) :
    set.mappingPlugins = [] ∨ ∃ rest, set.mappingPlugins = .majorVersion :: rest := by
  cases hm : set.mappingPlugins with
  | nil => exact .inl rfl
  | cons plugin rest =>
    right
    by_cases he : plugin = .majorVersion
    · exact ⟨rest, by rw [he]⟩
    · exact absurd (h [] plugin rest hm he) List.not_mem_nil

end CrdForge.Pipeline
