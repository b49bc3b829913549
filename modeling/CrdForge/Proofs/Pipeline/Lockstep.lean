import CrdForge.Proofs.Extension.Edits
import CrdForge.Proofs.Pipeline.SpecRules

/-! Two runs of the plugins for a version in step.

Two runs of one plugin end with the same failure, or both succeed and leave parts that are related
(`Meets`). For the plugins that work on the version alone it is enough that the relation is kept by the
few things that they do to a draft (`Lockstep`), so what a plugin goes through is opened once for all
relations (`Lockstep.run`). -/
namespace CrdForge.Pipeline

open Extension (Link NodeId)
open Run

/-! ### Two runs -/

section
variable {resource resource' : Config.Resource} {α β γ δ : Type}

/-- Whether two steps end with the same failure, or both succeed and leave parts that are related. -/
inductive Meets (resource resource' : Config.Resource) (Q : α → β → Parts → Parts → Prop) :
    Except Failure α × Draft → Except Failure β × Draft → Prop
  | ok {a : α} {b : β} {parts parts' : Parts} : Q a b parts parts' →
    Meets resource resource' Q (.ok a, parts.draft resource) (.ok b, parts'.draft resource')
  | error {failure : Failure} {draft draft' : Draft} :
    Meets resource resource' Q (.error failure, draft) (.error failure, draft')

namespace Meets
variable {Q : α → β → Parts → Parts → Prop} {R : γ → δ → Parts → Parts → Prop} {draft draft' : Draft}

theorem bind {step : Build α} {step' : Build β} {next : α → Build γ} {next' : β → Build δ}
    (h : Meets resource resource' Q (step draft) (step' draft'))
    (hn : ∀ a b parts parts', Q a b parts parts' →
      Meets resource resource' R (next a (parts.draft resource)) (next' b (parts'.draft resource'))) :
    Meets resource resource' R ((step >>= next) draft) ((step' >>= next') draft') := by
  rw [bind_eq, bind_eq]
  generalize step draft = first at h
  generalize step' draft' = second at h
  cases h with
  | ok hq => exact hn _ _ _ _ hq
  | error => exact .error

theorem mono {Q' : α → β → Parts → Parts → Prop} {end₁ : Except Failure α × Draft}
    {end₂ : Except Failure β × Draft} (h : Meets resource resource' Q end₁ end₂)
    (hq : ∀ a b parts parts', Q a b parts parts' → Q' a b parts parts') :
    Meets resource resource' Q' end₁ end₂ := by
  cases h with
  | ok h => exact .ok (hq _ _ _ _ h)
  | error => exact .error

theorem discard {step : Build α} {step' : Build β} {S : Parts → Parts → Prop}
    (h : Meets resource resource' Q (step draft) (step' draft'))
    (hq : ∀ a b parts parts', Q a b parts parts' → S parts parts') :
    Meets resource resource' (fun _ _ => S) (Functor.discard step draft) (Functor.discard step' draft') := by
  show Meets _ _ _ (((fun _ => PUnit.unit) <$> step : Build PUnit) draft)
    (((fun _ => PUnit.unit) <$> step' : Build PUnit) draft')
  rw [map_eq, map_eq]
  generalize step draft = first at h
  generalize step' draft' = second at h
  cases h with
  | ok h => exact .ok (hq _ _ _ _ h)
  | error => exact .error

/-- The same failure, or the same result and nothing changed. -/
theorem lift (result : Except Failure α) (parts parts' : Parts) :
    Meets resource resource' (fun a b p p' => a = b ∧ p = parts ∧ p' = parts')
      ((liftExcept result : Build α) (parts.draft resource))
      ((liftExcept result : Build α) (parts'.draft resource')) := by
  cases result with
  | ok a => exact .ok ⟨rfl, rfl, rfl⟩
  | error => exact .error

theorem get {parts parts' : Parts} :
    Meets resource resource'
      (fun a b p p' => a = parts.draft resource ∧ b = parts'.draft resource' ∧ p = parts ∧ p' = parts')
      ((get : Build Draft) (parts.draft resource)) ((get : Build Draft) (parts'.draft resource')) :=
  .ok ⟨rfl, rfl, rfl, rfl⟩

theorem raise {S : Parts → Parts → Prop} {parts parts' : Parts} (failure : Option Failure)
    (h : S parts parts') :
    Meets resource resource' (fun _ _ => S) (Pipeline.raise failure (parts.draft resource))
      (Pipeline.raise failure (parts'.draft resource')) := by
  cases failure with
  | none => exact .ok h
  | some failure => exact .error

/-- One step for each element of a list. -/
theorem forIn {step step' : γ → Build Unit} {S : Parts → Parts → Prop} {xs : List γ}
    (hstep : ∀ x ∈ xs, ∀ parts parts', S parts parts' →
      Meets resource resource' (fun _ _ => S) (step x (parts.draft resource))
        (step' x (parts'.draft resource')))
    {parts parts' : Parts} (h : S parts parts') :
    Meets resource resource' (fun _ _ => S)
      ((ForIn.forIn xs PUnit.unit fun x _ => do step x; return ForInStep.yield PUnit.unit : Build PUnit)
        (parts.draft resource))
      ((ForIn.forIn xs PUnit.unit fun x _ => do step' x; return ForInStep.yield PUnit.unit : Build PUnit)
        (parts'.draft resource')) := by
  induction xs generalizing parts parts' with
  | nil => exact .ok h
  | cons x rest ih =>
    rw [List.forIn_cons, List.forIn_cons]
    have hone : Meets resource resource' (fun a b p p' => a = .yield ⟨⟩ ∧ b = .yield ⟨⟩ ∧ S p p')
        ((do step x; return ForInStep.yield PUnit.unit : Build (ForInStep PUnit)) (parts.draft resource))
        ((do step' x; return ForInStep.yield PUnit.unit : Build (ForInStep PUnit))
          (parts'.draft resource')) :=
      (hstep x (List.mem_cons_self ..) parts parts' h).bind fun _ _ _ _ hs => .ok ⟨rfl, rfl, hs⟩
    refine hone.bind ?_
    intro a b p p' hs
    obtain ⟨rfl, rfl, hs⟩ := hs
    exact ih (fun y hy => hstep y (List.mem_cons_of_mem _ hy)) hs

end Meets

end

/-! ### The same job elsewhere -/

/-- Where a version stands in a part. -/
def versionPath (part version : String) : List Link := [.property part, .property version]

/-- The same job for another resource. -/
def Job.on (job : Job) (resource : Config.Resource) : Job := { job with resource := resource }

theorem Job.on_majorVersion (job : Job) (resource : Config.Resource) :
    (job.on resource).majorVersion = job.majorVersion := rfl

theorem Job.on_lowerKind {job : Job} {resource : Config.Resource} (h : resource.kind = job.resource.kind) :
    (job.on resource).lowerKind = job.lowerKind := congrArg Text.lower h

theorem entryDescription_on {job : Job} {resource : Config.Resource} (h : resource.kind = job.resource.kind)
    (plural : String) : entryDescription (job.on resource) plural = entryDescription job plural := by
  unfold entryDescription
  rw [Job.on_lowerKind h]

theorem statusDescription_on {job : Job} {resource : Config.Resource}
    (h : resource.kind = job.resource.kind) :
    statusDescription (job.on resource) = statusDescription job := by
  unfold statusDescription
  rw [Job.on_lowerKind h, Job.on_majorVersion]

theorem plural_draft (parts : Parts) (resource : Config.Resource) :
    (parts.draft resource).definition.names.plural = (resourceNames resource.kind).1 := rfl

/-! ### What plugins do to a draft -/

/-- Whether what plugins for a version do to a draft, done to two, keeps a relation between their parts.
Of the nodes that stand at the end of one path in both `nodes` is known. -/
structure Lockstep (resource resource' : Config.Resource) (job : Job) (related : Parts → Parts → Prop)
    (nodes : List Link → NodeId → NodeId → Parts → Parts → Prop) : Prop where
  listed {parts parts' : Parts} : related parts parts' →
    ∃ version, parts.version? job = some version ∧ parts'.version? job = some version
  withVersion {parts parts' : Parts} : related parts parts' → ∀ version,
    related (parts.withVersion job version) (parts'.withVersion job version)
  withStatus {parts parts' : Parts} : related parts parts' → ∀ schema : Crd.Schema,
    related { parts with status := parts.status.insert job.majorVersion schema }
      { parts' with status := parts'.status.insert job.majorVersion schema }
  placed_withVersion {parts parts' : Parts} {path : List Link} {node node' : NodeId} :
    nodes path node node' parts parts' → ∀ version,
    nodes path node node' (parts.withVersion job version) (parts'.withVersion job version)
  nodeAt {parts parts' : Parts} : related parts parts' → ∀ part names,
    Meets resource resource' (fun node node' p p' => related p p' ∧
        nodes (versionPath part job.majorVersion ++ names.map .property) node node' p p')
      (nodeAt (part :: job.majorVersion :: names) (parts.draft resource))
      (nodeAt (part :: job.majorVersion :: names) (parts'.draft resource'))
  nodeBelow {parts parts' : Parts} {part : String} {rest : List Link} {node node' : NodeId} :
    related parts parts' →
    nodes (versionPath part job.majorVersion ++ rest) node node' parts parts' → ∀ name,
    Meets resource resource' (fun child child' p p' => related p p' ∧
        nodes (versionPath part job.majorVersion ++ (rest ++ [.property name])) child child' p p' ∧
        nodes (versionPath part job.majorVersion ++ rest) node node' p p')
      (nodeBelow node name (parts.draft resource)) (nodeBelow node' name (parts'.draft resource'))
  convert {parts parts' : Parts} {part : String} {rest : List Link} {node node' : NodeId} :
    related parts parts' →
    nodes (versionPath part job.majorVersion ++ rest) node node' parts parts' → ∀ selection schema,
    Meets resource resource' (fun a b p p' => a = b ∧ related p p' ∧
        ∀ path x x', path <+: versionPath part job.majorVersion ++ rest →
          nodes path x x' parts parts' → nodes path x x' p p')
      (convert job selection schema node (parts.draft resource))
      (convert job selection schema node' (parts'.draft resource'))

namespace Lockstep
variable {resource resource' other : Config.Resource} {job : Job} {related : Parts → Parts → Prop}
  {nodes : List Link → NodeId → NodeId → Parts → Parts → Prop} {parts parts' : Parts} {node node' : NodeId}

theorem readVersion (c : Lockstep resource resource' job related nodes) (h : related parts parts') :
    Meets resource resource' (fun a b p p' => a = b ∧ p = parts ∧ p' = parts')
      (readVersion job (parts.draft resource)) (readVersion job (parts'.draft resource')) := by
  obtain ⟨version, hv, hv'⟩ := c.listed h
  rw [readVersion_draft, readVersion_draft, hv, hv']
  exact .ok ⟨rfl, rfl, rfl⟩

/-- The version is looked for before there is something to write at it. -/
theorem hasVersion (c : Lockstep resource resource' job related nodes) (h : related parts parts') :
    Meets resource resource' (fun _ _ p p' => p = parts ∧ p' = parts')
      (Functor.discard (Pipeline.readVersion job) (parts.draft resource))
      (Functor.discard (Pipeline.readVersion job) (parts'.draft resource')) :=
  (c.readVersion h).discard fun _ _ _ _ hq => hq.2

theorem writeVersion (c : Lockstep resource resource' job related nodes) (h : related parts parts')
    (version : Crd.Schema) :
    Meets resource resource' (fun _ _ => related)
      (writeVersion job version (parts.draft resource))
        (writeVersion job version (parts'.draft resource')) := by
  rw [writeVersion_draft, writeVersion_draft]
  exact .ok (c.withVersion h version)

/-! ### Plugins -/

theorem addParameter (c : Lockstep resource resource' job related nodes) (parameter : OpenApi.Parameter)
    (h : related parts parts' ∧ nodes (versionPath specPart job.majorVersion ++ []) node node' parts parts') :
    Meets resource resource' (fun _ _ p p' => related p p' ∧
        nodes (versionPath specPart job.majorVersion ++ []) node node' p p')
      (addParameter job node parameter (parts.draft resource))
      (addParameter (job.on other) node' parameter (parts'.draft resource')) := by
  rw [Pipeline.addParameter, Pipeline.addParameter]
  split
  · exact .ok h
  · cases parameter.schema with
    | none => exact .ok h
    | some schema =>
      refine (c.nodeBelow h.1 h.2 parameter.name).bind ?_
      rintro place place' _ _ ⟨h, hplace, hnode⟩
      refine (c.convert h hplace job.mapping.parameters schema).bind ?_
      rintro converted _ _ _ ⟨rfl, h, hkeep⟩
      have hnode := hkeep _ _ _ ((List.prefix_append_right_inj _).mpr List.nil_prefix) hnode
      cases converted with
      | none => exact .ok ⟨h, hnode⟩
      | some converted =>
        refine (c.readVersion h).bind ?_
        rintro version _ _ _ ⟨rfl, rfl, rfl⟩
        rw [writeVersion_draft, writeVersion_draft]
        exact .ok ⟨c.withVersion h _, c.placed_withVersion hnode _⟩

theorem addParameters (c : Lockstep resource resource' job related nodes) (h : related parts parts') :
    Meets resource resource' (fun _ _ => related)
      (addParameters job (parts.draft resource)) (addParameters (job.on other) (parts'.draft resource')) := by
  rw [Pipeline.addParameters, Pipeline.addParameters, show (job.on other).mapping = job.mapping from rfl]
  split
  · exact .ok h
  · refine (Meets.lift (endpointParameters job.document job.mapping.parameters.endpoint) parts parts').bind ?_
    rintro parameters _ _ _ ⟨rfl, rfl, rfl⟩
    refine (c.nodeAt h specPart []).bind ?_
    rintro node node' _ _ ⟨h, hnode⟩
    refine (c.hasVersion h).bind ?_
    rintro _ _ _ _ ⟨rfl, rfl⟩
    refine (Meets.forIn (fun parameter _ _ _ hq => c.addParameter parameter hq) ⟨h, hnode⟩).bind ?_
    exact fun _ _ _ _ hq => .ok hq.1

theorem addEntry (c : Lockstep resource resource' job related nodes) (hr : resource'.kind = resource.kind)
    (hk : other.kind = job.resource.kind) (h : related parts parts') :
    Meets resource resource' (fun _ _ => related)
      (addEntry job (parts.draft resource)) (addEntry (job.on other) (parts'.draft resource')) := by
  rw [Pipeline.addEntry, Pipeline.addEntry]
  refine (Meets.lift (sourceSchema job.document job.mapping.entry entryPart) parts parts').bind ?_
  rintro source _ parts parts' ⟨rfl, rfl, rfl⟩
  cases source with
  | none => exact .ok h
  | some schema =>
    refine (c.hasVersion h).bind ?_
    rintro _ _ _ _ ⟨rfl, rfl⟩
    refine (c.nodeAt h specPart [entryPart]).bind ?_
    rintro node node' _ _ ⟨h, hnode⟩
    refine (c.convert h hnode job.mapping.entry schema).bind ?_
    rintro converted _ _ _ ⟨rfl, h, -⟩
    cases converted with
    | none => exact .error
    | some converted =>
      refine Meets.get.bind ?_
      rintro _ _ _ _ ⟨rfl, rfl, rfl, rfl⟩
      refine (c.readVersion h).bind ?_
      rintro version _ _ _ ⟨rfl, rfl, rfl⟩
      rw [plural_draft, plural_draft, hr, entryDescription_on hk]
      exact c.writeVersion h _

theorem addStatus (c : Lockstep resource resource' job related nodes) (hk : other.kind = job.resource.kind)
    (h : related parts parts') :
    Meets resource resource' (fun _ _ => related)
      (addStatus job (parts.draft resource)) (addStatus (job.on other) (parts'.draft resource')) := by
  rw [Pipeline.addStatus, Pipeline.addStatus]
  refine (Meets.lift (sourceSchema job.document job.mapping.status statusPart) parts parts').bind ?_
  rintro source _ _ _ ⟨rfl, rfl, rfl⟩
  cases source with
  | none => exact .ok h
  | some schema =>
    refine (c.nodeAt h statusPart []).bind ?_
    rintro node node' _ _ ⟨h, hnode⟩
    refine (c.convert h hnode job.mapping.status schema).bind ?_
    rintro converted _ _ _ ⟨rfl, h, -⟩
    cases converted with
    | none => exact .ok h
    | some converted =>
      dsimp only
      rw [Parts.editPart_status, Parts.editPart_status, statusDescription_on hk]
      exact .ok (c.withStatus h _)

theorem addReferences (c : Lockstep resource resource' job related nodes) (h : related parts parts') :
    Meets resource resource' (fun _ _ => related)
      (addReferences job (parts.draft resource)) (addReferences (job.on other) (parts'.draft resource')) := by
  rw [Pipeline.addReferences, Pipeline.addReferences, show (job.on other).mapping = job.mapping from rfl]
  split
  · exact .ok h
  · refine (c.readVersion h).bind ?_
    rintro version _ _ _ ⟨rfl, rfl, rfl⟩
    dsimp only
    rcases withReferences version job.mapping.parameters.references with ⟨listed, failure⟩
    refine (c.writeVersion h listed).bind fun _ _ _ _ h => (Meets.raise failure h).bind fun _ _ _ _ h => ?_
    split
    · exact .ok h
    · cases listed.property? entryPart with
      | none => exact .error
      | some entry =>
        dsimp only
        rcases withReferences entry job.mapping.entry.references with ⟨whole, failure⟩
        exact (c.writeVersion h _).bind fun _ _ _ _ h => Meets.raise failure h

theorem addChoices (c : Lockstep resource resource' job related nodes) (h : related parts parts') :
    Meets resource resource' (fun _ _ => related)
      (addChoices job (parts.draft resource)) (addChoices (job.on other) (parts'.draft resource')) := by
  refine (c.readVersion h).bind ?_
  rintro version _ _ _ ⟨rfl, rfl, rfl⟩
  exact c.writeVersion h _

/-- **Plugins that work on the version alone stay in step.** -/
theorem run (c : Lockstep resource resource' job related nodes) (hr : resource'.kind = resource.kind)
    (hk : other.kind = job.resource.kind) {plugin : MappingPlugin}
    (hp : plugin ∈ [MappingPlugin.parameters, .entry, .status, .references, .choices])
    (h : related parts parts') :
    Meets resource resource' (fun _ _ => related)
      (plugin.run job (parts.draft resource)) (plugin.run (job.on other) (parts'.draft resource')) := by
  cases plugin with
  | parameters => exact c.addParameters h
  | entry => exact c.addEntry hr hk h
  | status => exact c.addStatus hk h
  | references => exact c.addReferences h
  | choices => exact c.addChoices h
  | majorVersion | versionChoice | connection | columns => simp at hp

end Lockstep

end CrdForge.Pipeline
