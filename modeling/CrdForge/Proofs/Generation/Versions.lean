import CrdForge.Proofs.Generation.Acceptance
import CrdForge.Proofs.Generation.Isolation
import CrdForge.Proofs.Pipeline.Confinement

/-! That the versions of a resource are made independently of each other.

A run over all mappings is compared with one for each mapping alone. What a mapping does to its version
is the same in both, since nothing of the version was touched before, and what comes after keeps it
(`Outcome`). So a resource fails as the first of its mappings does alone, and otherwise has of each
version what that has alone (`versions_independent`). -/
namespace CrdForge

/-- The resource with one mapping and no others. -/
def Config.Resource.only (resource : Config.Resource) (mapping : Config.Mapping) : Config.Resource :=
  { resource with mappings := [mapping] }

namespace Generation

open Extension (Tree)
open Pipeline (Alike Beside Confined Draft Job Keeps MappingPlugin Meets Parts PluginSet Same Silent specPart
  statusPart versionPath)
open Run

namespace Generator

variable {generator : Generator} {resource other : Config.Resource} {set : PluginSet} {ε : Type}

/-! ### Drafts -/

/-- The draft after a mapping, or why there is none, if nothing was loaded before. -/
def withMapping (generator : Generator) (set : PluginSet) (resource : Config.Resource) (draft : Draft)
    (mapping : Config.Mapping) : Except Failure Draft := do
  let document ← (generator.document mapping.document {}).1
  (addMapping set ⟨resource, mapping, document, set.propertyPlugins⟩ draft).mapError Failure.plugin

/-- The draft of a resource, or why there is none. -/
def draftOf (generator : Generator) (resource : Config.Resource) : Except Failure Draft := do
  let set ← generator.setOf resource
  let draft ← (startDraft set resource).mapError Failure.plugin
  resource.mappings.foldlM (generator.withMapping set resource) draft

/-- The definition of a draft with its findings. -/
def finished (generator : Generator) (draft : Draft) : Generated :=
  ⟨finish draft, generator.inspect (finish draft)⟩

theorem addMappings_result (set : PluginSet) (resource : Config.Resource) {cache : Cache}
    (hc : generator.Faithful cache) (mappings : List Config.Mapping) (draft : Draft) :
    (generator.addMappings set resource mappings draft cache).1 =
      mappings.foldlM (generator.withMapping set resource) draft := by
  induction mappings generalizing draft cache with
  | nil => rfl
  | cons mapping rest ih =>
    have hd := document_transparent generator mapping.document cache hc
    rw [addMappings, List.foldlM_cons, withMapping, bind_eq, ← hd.result]
    have hc := hd.faithful
    generalize generator.document mapping.document cache = made at hc ⊢
    rcases made with ⟨_ | document, after⟩
    · rfl
    · dsimp only
      rw [bind_eq, liftExcept_eq]
      show _ =
        ((addMapping set ⟨resource, mapping, document, set.propertyPlugins⟩ draft).mapError
          Failure.plugin).bind _
      cases (addMapping set ⟨resource, mapping, document, set.propertyPlugins⟩ draft).mapError
        Failure.plugin with
      | error failure => rfl
      | ok draft => exact ih hc draft

/-- A definition is made of the draft of its resource. -/
theorem alone_eq (generator : Generator) (hn : resource.majorVersions.Nodup) :
    generator.alone resource = (generator.draftOf resource).map generator.finished := by
  have hr : Pipeline.repeated? [] resource.majorVersions = none :=
    Pipeline.repeated?_eq_none.mpr ⟨hn, fun _ _ => List.not_mem_nil⟩
  unfold alone generate draftOf
  rw [hr]
  dsimp only
  rw [bind_eq, liftExcept_eq]
  cases generator.setOf resource with
  | error failure => rfl
  | ok set =>
    dsimp only
    rw [bind_eq, liftExcept_eq]
    show _ = (((startDraft set resource).mapError Failure.plugin).bind _).map _
    cases (startDraft set resource).mapError Failure.plugin with
    | error failure => rfl
    | ok draft =>
      have hresult := addMappings_result set resource (fresh_faithful generator) resource.mappings draft
      dsimp only
      rw [bind_eq]
      show _ = (resource.mappings.foldlM (generator.withMapping set resource) draft).map _
      rw [← hresult]
      rcases generator.addMappings set resource resource.mappings draft {} with ⟨_ | _, _⟩ <;> rfl

theorem draftOf_eq (hu : generator.UsesAll resource set) : generator.draftOf resource =
    resource.mappings.foldlM (generator.withMapping set resource)
      ((Parts.start resource).draft resource) := by
  have hstart : startDraft set resource = .ok ((Parts.start resource).draft resource) := by
    rw [startDraft, if_pos hu.hasBase, runPlugin, Parts.startOver_start]
  rw [draftOf, hu.1]
  show ((startDraft set resource).mapError Failure.plugin).bind _ = _
  rw [hstart]
  rfl

/-- The draft of the resource with one mapping and no others. -/
def ownDraft (generator : Generator) (set : PluginSet) (resource : Config.Resource)
    (mapping : Config.Mapping) :
    Except Failure Draft :=
  generator.withMapping set (resource.only mapping)
    ((Parts.start (resource.only mapping)).draft (resource.only mapping)) mapping

theorem alone_only (hu : generator.UsesAll resource set) (mapping : Config.Mapping) :
    generator.draftOf (resource.only mapping) = generator.ownDraft set resource mapping ∧
      generator.alone (resource.only mapping) =
        (generator.ownDraft set resource mapping).map generator.finished := by
  have hu : generator.UsesAll (resource.only mapping) set := hu
  have hdraft : generator.draftOf (resource.only mapping) = generator.ownDraft set resource mapping := by
    rw [draftOf_eq hu, Config.Resource.only, List.foldlM_cons]
    show (generator.ownDraft set resource mapping).bind _ = _
    cases generator.ownDraft set resource mapping <;> rfl
  have hone : (resource.only mapping).majorVersions.Nodup := List.nodup_singleton _
  exact ⟨hdraft, by rw [alone_eq generator hone, hdraft]⟩

/-! ### Runs for one version -/

/-- Whether two drafts are missing for the same reason, or have parts that are related. -/
inductive Agree (resource other : Config.Resource) (S : Parts → Parts → Prop) :
    Except ε Draft → Except ε Draft → Prop
  | ok {parts parts' : Parts} : S parts parts' →
    Agree resource other S (.ok (parts.draft resource)) (.ok (parts'.draft other))
  | error {failure : ε} : Agree resource other S (.error failure) (.error failure)

namespace Agree
variable {S R : Parts → Parts → Prop} {result result' : Except ε Draft}

theorem bind {next next' : Draft → Except ε Draft} (h : Agree resource other S result result')
    (hn : ∀ parts parts', S parts parts' →
      Agree resource other R (next (parts.draft resource)) (next' (parts'.draft other))) :
    Agree resource other R (result >>= next) (result' >>= next') := by
  cases h with
  | ok hs => exact hn _ _ hs
  | error => exact .error

/-- If one of them is there, then the other is. -/
theorem of_ok {draft : Draft} (h : Agree resource other S (.ok draft) result') :
    ∃ parts parts', draft = parts.draft resource ∧ result' = .ok (parts'.draft other) ∧ S parts parts' := by
  generalize hfirst : (Except.ok draft : Except ε Draft) = first at h
  cases h with
  | ok hs =>
    cases hfirst
    exact ⟨_, _, rfl, rfl, hs⟩
  | error => cases hfirst

theorem mapError {ε' : Type} (h : Agree resource other S result result') (f : ε → ε') :
    Agree resource other S (result.mapError f) (result'.mapError f) := by
  cases h with
  | ok hs => exact .ok hs
  | error => exact .error

theorem foldlM {γ : Type} {step step' : Draft → γ → Except ε Draft} {xs : List γ}
    (hstep : ∀ x ∈ xs, ∀ parts parts', S parts parts' →
      Agree resource other S (step (parts.draft resource) x) (step' (parts'.draft other) x))
    {parts parts' : Parts} (h : S parts parts') :
    Agree resource other S (xs.foldlM step (parts.draft resource))
      (xs.foldlM step' (parts'.draft other)) := by
  induction xs generalizing parts parts' with
  | nil => exact .ok h
  | cons x rest ih =>
    rw [List.foldlM_cons, List.foldlM_cons]
    exact (hstep x (List.mem_cons_self ..) parts parts' h).bind fun _ _ hs =>
      ih (fun y hy => hstep y (List.mem_cons_of_mem _ hy)) hs

end Agree

theorem runPlugin_agrees {S : Parts → Parts → Prop} {build build' : Pipeline.Build Unit}
    {draft draft' : Draft} (kind majorVersion plugin : String)
    (h : Meets resource other (fun _ _ => S) (build draft) (build' draft')) :
    Agree resource other S (runPlugin kind majorVersion plugin build draft)
      (runPlugin kind majorVersion plugin build' draft') := by
  rw [runPlugin, runPlugin]
  generalize build draft = first at h
  generalize build' draft' = second at h
  cases h with
  | ok hs => exact .ok hs
  | error => exact .error

section
variable {mapping : Config.Mapping} {start start' parts parts' after : Parts}

theorem runPlugins_agree {job : Job} (hk : other.kind = job.resource.kind)
    (h : Alike job.majorVersion start start' parts parts') (plugins : List MappingPlugin) :
    Agree job.resource other (Alike job.majorVersion start start')
      (plugins.foldlM (fun draft plugin => runPlugin job.resource.kind job.majorVersion plugin.name
        (plugin.run job) draft) (parts.draft job.resource))
      (plugins.foldlM (fun draft plugin => runPlugin job.resource.kind job.majorVersion plugin.name
        (plugin.run (job.on other)) draft) (parts'.draft other)) :=
  .foldlM (fun plugin _ _ _ h => runPlugin_agrees _ _ _ (plugin.run_meets hk hk h)) h

/-- The plugins for a mapping do to its version what they do if there is no other. -/
theorem addMapping_agrees (job : Job) (other : Config.Resource)
    (hset : set.mappingPlugins = MappingPlugin.all) (hk : other.kind = job.resource.kind)
    (h : Beside job.majorVersion start start' parts parts') :
    Agree job.resource other (Alike job.majorVersion start start')
      (addMapping set job (parts.draft job.resource))
        (addMapping set (job.on other) (parts'.draft other)) := by
  have hkind : (job.on other).resource.kind = job.resource.kind := hk
  have hadd : Meets job.resource other (fun _ _ => Alike job.majorVersion start start')
      (MappingPlugin.majorVersion.run job (parts.draft job.resource))
      (MappingPlugin.majorVersion.run (job.on other) (parts'.draft other)) := Pipeline.addVersion_meets hk h
  have hfirst := runPlugin_agrees job.resource.kind job.majorVersion MappingPlugin.majorVersion.name hadd
  rw [addMapping, addMapping, hset, hkind, Job.on_majorVersion, MappingPlugin.all,
    List.foldlM_cons, List.foldlM_cons]
  refine (hfirst.bind fun _ _ h => runPlugins_agree hk h _).bind fun _ _ h => ?_
  exact .foldlM (fun plugin _ _ _ h => runPlugin_agrees _ _ _ (plugin.run_meets h)) h

theorem withMapping_agrees (generator : Generator) (hset : set.mappingPlugins = MappingPlugin.all)
    (hs : parts.tree.Sound) (h : Same mapping.majorVersion parts (Parts.start (resource.only mapping))) :
    Agree resource (resource.only mapping)
      (Alike mapping.majorVersion parts (Parts.start (resource.only mapping)))
      (generator.withMapping set resource (parts.draft resource) mapping)
      (generator.ownDraft set resource mapping) := by
  rw [ownDraft, withMapping, withMapping]
  cases (generator.document mapping.document {}).1 with
  | error failure => exact .error
  | ok document =>
    have hb : Beside mapping.majorVersion parts (Parts.start (resource.only mapping)) parts
        (Parts.start (resource.only mapping)) := ⟨h, .refl _ hs, .refl _ Tree.empty_sound⟩
    have hagree := addMapping_agrees ⟨resource, mapping, document, set.propertyPlugins⟩
      (resource.only mapping)
      hset rfl hb
    exact hagree.mapError Failure.plugin

/-! ### Runs over all versions -/

/-- Whether parts have of the version of a mapping what this makes alone. -/
structure Made (generator : Generator) (set : PluginSet) (resource : Config.Resource)
    (mapping : Config.Mapping) (parts own : Parts) : Prop extends Same mapping.majorVersion parts own where
  made : generator.ownDraft set resource mapping = .ok (own.draft (resource.only mapping))
  confined : Confined mapping.majorVersion (Parts.start (resource.only mapping)) own
  listed : ∃ schema, parts.spec.property? mapping.majorVersion = some schema ∧
    own.spec.property? mapping.majorVersion = some schema

theorem Made.keep {own : Parts} (h : generator.Made set resource mapping parts own)
    (hk : Keeps mapping.majorVersion parts after) : generator.Made set resource mapping after own where
  notes part := (hk.notes part).trans (h.notes part)
  status := hk.status.trans h.status
  made := h.made
  confined := h.confined
  listed := by
    obtain ⟨schema, hs, ho⟩ := h.listed
    exact ⟨schema, hk.listed schema hs, ho⟩

/-- What a run over mappings leaves, or why it fails. -/
inductive Outcome (generator : Generator) (set : PluginSet) (resource : Config.Resource) (parts : Parts)
    (mappings : List Config.Mapping) : Except Failure Draft → Prop
  | ok {after : Parts} : after.tree.Sound → Silent after.tree →
    (∀ version, version ∉ mappings.map (·.majorVersion) → Keeps version parts after) →
    (∀ mapping ∈ mappings, ∃ own, generator.Made set resource mapping after own) →
    Outcome generator set resource parts mappings (.ok (after.draft resource))
  | error (before : List Config.Mapping) {rest : List Config.Mapping} {mapping : Config.Mapping}
    {failure : Failure} :
    mappings = before ++ mapping :: rest →
    (∀ other ∈ before, ∃ draft, generator.ownDraft set resource other = .ok draft) →
    generator.ownDraft set resource mapping = .error failure →
    Outcome generator set resource parts mappings (.error failure)

/-- A run over mappings makes of each version what its mapping makes alone,
or fails as the first that fails alone. -/
theorem withMappings_outcome (generator : Generator) (hset : set.mappingPlugins = MappingPlugin.all)
    {mappings : List Config.Mapping} (hd : (mappings.map (·.majorVersion)).Nodup) (hs : parts.tree.Sound)
    (hq : Silent parts.tree)
    (h : ∀ mapping ∈ mappings, Same mapping.majorVersion parts (Parts.start (resource.only mapping))) :
    generator.Outcome set resource parts mappings
      (mappings.foldlM (generator.withMapping set resource) (parts.draft resource)) := by
  induction mappings generalizing parts with
  | nil => exact .ok hs hq (fun _ _ => .refl _ _) (by simp)
  | cons mapping rest ih =>
    rw [List.map_cons, List.nodup_cons] at hd
    obtain ⟨hmapping, hd⟩ := hd
    have hother : ∀ other ∈ rest, other.majorVersion ≠ mapping.majorVersion :=
      fun other ho he => hmapping (he ▸ List.mem_map_of_mem ho)
    have hfirst := withMapping_agrees generator hset hs (h mapping (List.mem_cons_self ..))
    rw [List.foldlM_cons]
    generalize generator.withMapping set resource (parts.draft resource) mapping = first at hfirst
    generalize hown : generator.ownDraft set resource mapping = own at hfirst
    cases hfirst with
    | error => exact .error [] rfl (by simp) hown
    | @ok middle own halike =>
      have hmade : generator.Made set resource mapping middle own :=
        ⟨halike.toSame, hown, halike.right, halike.listed⟩
      have hnext := ih hd halike.left.sound (halike.left.silent hq) fun other ho =>
        have hkeep := halike.left.keeps (hother other ho)
        have hstart := h other (List.mem_cons_of_mem _ ho)
        ⟨fun part => (hkeep.notes part).trans (hstart.notes part), hkeep.status.trans hstart.status⟩
      show generator.Outcome set resource parts (mapping :: rest)
        (rest.foldlM (generator.withMapping set resource) (middle.draft resource))
      generalize rest.foldlM (generator.withMapping set resource) (middle.draft resource) = last at hnext
      cases hnext with
      | error before hr hbefore hfail =>
        refine .error (mapping :: before) (by rw [hr, List.cons_append]) (fun other ho => ?_) hfail
        rcases List.mem_cons.mp ho with rfl | ho
        · exact ⟨_, hown⟩
        · exact hbefore other ho
      | ok hsound hsilent hkeeps hrest =>
        refine .ok hsound hsilent (fun version hv => ?_) fun other ho => ?_
        · rw [List.map_cons, List.mem_cons, not_or] at hv
          exact (halike.left.keeps hv.1).trans (hkeeps version hv.2)
        · rcases List.mem_cons.mp ho with rfl | ho
          · exact ⟨own, hmade.keep (hkeeps _ hmapping)⟩
          · exact hrest other ho

end

/-- What the draft of a resource with all plugins comes to. -/
theorem draftOf_outcome (hu : generator.UsesAll resource set) (hd : resource.majorVersions.Nodup) :
    generator.Outcome set resource (Parts.start resource) resource.mappings (generator.draftOf resource) := by
  rw [draftOf_eq hu]
  exact withMappings_outcome generator hu.mappingPlugins hd Tree.empty_sound Pipeline.empty_silent
    fun _ _ => ⟨fun _ => rfl, rfl⟩

/-! ### Definitions -/

/-- What is said beside the schema of a resource, if that is made. -/
def annotation? (generator : Generator) (resource : Config.Resource) : Option Json :=
  (generator.draftOf resource).toOption.bind fun draft => draft.tree.value?

theorem annotation?_of_draft {parts : Parts} (h : generator.draftOf resource = .ok (parts.draft resource)) :
    generator.annotation? resource = parts.tree.value? := by
  have htree : (parts.draft resource).tree = parts.tree := rfl
  rw [annotation?, h, Except.toOption, Option.bind_some, htree]

/-- Whether two definitions have the same of a version, in their schemas and in what is said beside these. -/
structure Shares (generator : Generator) (resource other : Config.Resource) (made own : Generated)
    (version : String) :
    Prop where
  schema : ∀ part ∈ [specPart, statusPart], (made.definition.part? part).bind (·.property? version) =
    (own.definition.part? part).bind (·.property? version)
  annotation : ∀ part ∈ [specPart, statusPart],
    (generator.annotation? resource).bind (·.along (versionPath part version)) =
      (generator.annotation? other).bind (·.along (versionPath part version))

theorem finish_annotations (draft : Draft) (h : draft.definition.annotations = []) :
    (finish draft).annotations.lookup mappingsKey = draft.tree.value?.map Json.compact := by
  rw [← Tree.text?_eq]
  delta finish
  cases draft.tree.text? with
  | none =>
    dsimp only
    rw [h]
    rfl
  | some text =>
    dsimp only
    rw [Keyed.lookup_insert, if_pos rfl]

theorem finished_text (parts : Parts) :
    (generator.finished (parts.draft resource)).definition.annotations.lookup mappingsKey =
      parts.tree.value?.map Json.compact := by
  rw [finished]
  exact finish_annotations (parts.draft resource) rfl

theorem finished_part (parts : Parts) :
    (generator.finished (parts.draft resource)).definition.part? specPart = some parts.spec ∧
      (generator.finished (parts.draft resource)).definition.part? statusPart = some parts.status := by
  have hroot : (parts.draft resource).definition.schema = some (parts.root resource) := rfl
  rw [finished, Crd.Definition.part?, Crd.Definition.part?, finish_schema, hroot,
    Option.bind_some, Option.bind_some, Parts.root]
  simp [Crd.Schema.property?, specPart, statusPart, Keyed.lookup_cons]

theorem shares_of_made {mapping : Config.Mapping} {parts own : Parts}
    (hp : generator.annotation? resource = parts.tree.value?)
    (ho : generator.annotation? (resource.only mapping) = own.tree.value?) (hs : parts.tree.Sound)
    (hq : Silent parts.tree) (h : generator.Made set resource mapping parts own) :
    generator.Shares resource (resource.only mapping) (generator.finished (parts.draft resource))
      (generator.finished (own.draft (resource.only mapping))) mapping.majorVersion where
  schema part hpart := by
    obtain ⟨schema, hlisted, hown⟩ := h.listed
    rcases List.mem_cons.mp hpart with hpart | hpart
    · rw [hpart, (finished_part parts).1, (finished_part own).1, Option.bind_some,
        Option.bind_some, hlisted, hown]
    · rw [List.mem_singleton.mp hpart, (finished_part parts).2, (finished_part own).2]
      exact h.status
  annotation part _ := by
    rw [hp, ho]
    exact Tree.value?_along hs.linked h.confined.sound.linked (List.cons_ne_nil _ _) (hq.quiet part _)
      ((h.confined.silent Pipeline.empty_silent).quiet part _) (h.notes part)

/-- **The versions of a resource are made independently of each other.** A definition is made if one is
made for each mapping alone, or it fails as the first of these that fail; and of each version it has what
the definition has that is made for its mapping alone. -/
theorem versions_independent (hu : generator.UsesAll resource set) (hd : resource.majorVersions.Nodup) :
    (generator.failure? resource =
      resource.mappings.findSome? fun mapping => generator.failure? (resource.only mapping)) ∧
    ∀ made, generator.alone resource = .ok made →
      made.definition.annotations.lookup mappingsKey = (generator.annotation? resource).map Json.compact ∧
      ∀ mapping ∈ resource.mappings, ∃ own, generator.alone (resource.only mapping) = .ok own ∧
        own.definition.annotations.lookup mappingsKey =
          (generator.annotation? (resource.only mapping)).map Json.compact ∧
        generator.Shares resource (resource.only mapping) made own mapping.majorVersion := by
  have halone := alone_eq generator hd
  have houtcome := draftOf_outcome hu hd
  generalize hdraft : generator.draftOf resource = draft at halone houtcome
  cases houtcome with
  | @error before rest mapping failure hm hbefore hfail =>
    rw [failure?, halone, hm, List.findSome?_append]
    have hnone : before.findSome? (fun mapping => generator.failure? (resource.only mapping)) = none := by
      refine List.findSome?_eq_none_iff.mpr fun other ho => ?_
      obtain ⟨draft, hother⟩ := hbefore other ho
      rw [failure?, (alone_only hu other).2, hother]
      rfl
    have hsome : generator.failure? (resource.only mapping) = some failure := by
      rw [failure?, (alone_only hu mapping).2, hfail]
      rfl
    rw [hnone, Option.none_or, List.findSome?_cons, hsome]
    refine ⟨rfl, fun _ h => ?_⟩
    cases h
  | @ok parts hs hq _ hmade =>
    have hparts := annotation?_of_draft hdraft
    refine ⟨?_, fun made h => ?_⟩
    · rw [failure?, halone]
      refine (List.findSome?_eq_none_iff.mpr fun mapping hm => ?_).symm
      obtain ⟨own, hown⟩ := hmade mapping hm
      rw [failure?, (alone_only hu mapping).2, hown.made]
      rfl
    · rw [halone] at h
      obtain rfl := Except.ok.inj h
      refine ⟨by rw [finished_text, hparts], fun mapping hm => ?_⟩
      obtain ⟨own, hown⟩ := hmade mapping hm
      have howns := annotation?_of_draft ((alone_only hu mapping).1.trans hown.made)
      refine ⟨generator.finished (own.draft (resource.only mapping)), ?_, ?_, ?_⟩
      · rw [(alone_only hu mapping).2, hown.made]
        rfl
      · rw [finished_text, howns]
      · exact shares_of_made hparts howns hs hq hown

/-- The second of two versions lists the identity and says where it comes from, as it does alone. -/
theorem second_version_as_alone :
    ∃ made own, (ofDocument groups).alone twoGroups = .ok made ∧
      (ofDocument groups).alone (twoGroups.only (groupMapping "v2")) = .ok own ∧
      (ofDocument groups).Shares twoGroups (twoGroups.only (groupMapping "v2")) made own "v2" ∧
      (((own.definition.part? specPart).bind (·.property? "v2")).any fun version =>
        Keyed.has "groupId" version.properties) = true ∧
      (((ofDocument groups).annotation? twoGroups).bind (·.along (versionPath specPart "v2"))).isSome =
        true := by
  have hall : ((ofDocument groups).alone twoGroups).toOption.isSome = true := by decide +kernel
  have hlisted : (((ofDocument groups).alone (twoGroups.only (groupMapping "v2"))).toOption.any fun own =>
      ((own.definition.part? specPart).bind (·.property? "v2")).any fun version =>
        Keyed.has "groupId" version.properties) = true := by decide +kernel
  have hsaid :
    (((ofDocument groups).annotation? twoGroups).bind (·.along (versionPath specPart "v2"))).isSome =
      true := by decide +kernel
  obtain ⟨made, hm⟩ : ∃ made, (ofDocument groups).alone twoGroups = .ok made := by
    cases hm : (ofDocument groups).alone twoGroups with
    | ok made => exact ⟨made, rfl⟩
    | error => rw [hm] at hall; cases hall
  have hu : (ofDocument groups).UsesAll twoGroups ⟨"default", true, Pipeline.Plugin.all⟩ :=
    ofDocument_usesAll groups rfl
  obtain ⟨-, heach⟩ := (versions_independent hu (by decide)).2 made hm
  obtain ⟨own, ho, -, hshares⟩ := heach (groupMapping "v2") (by simp [twoGroups])
  rw [ho] at hlisted
  exact ⟨made, own, hm, ho, hshares, hlisted, hsaid⟩

end Generator

end Generation

end CrdForge
