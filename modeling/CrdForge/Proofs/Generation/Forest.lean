import CrdForge.Proofs.Generation.Failures
import CrdForge.Proofs.Pipeline.Upkeep

/-! Trees that are built on the way to a definition.

A generation runs plugins one after another on one draft, so the draft that becomes a definition was
built, and so was the one at which a plugin failed (`generate_built`). Trees that were built are sound,
and whatever goes over a sound tree comes to an end (`trees_stay_forests`). -/
namespace CrdForge.Generation

open Pipeline (Build Built Call Draft Job PluginSet)
open Run

namespace Generator

variable {generator : Generator} {resource : Config.Resource} {set : PluginSet} {draft : Draft}

/-- Whether a plugin fails so at a draft that was built. -/
def Breaks (failure : Pipeline.Failure) : Prop :=
  ∃ draft, Built draft ∧ ∃ call : Call, (call.build draft).1 = .error failure

/-- Whether a failure is that of a plugin at a draft that was built, if it is one of a plugin. -/
def BreaksOff : Failure → Prop
  | .plugin staged => Breaks staged.failure
  | _ => True

theorem call_triple (call : Call) : Triple Built call.build (fun _ => Built) Breaks := by
  intro draft hd
  have hafter := hd.call call
  rcases hb : call.build draft with ⟨failure | _, after⟩
  · exact ⟨draft, hd, call, congrArg Prod.fst hb⟩
  · rwa [hb] at hafter

theorem startDraft_built (set : PluginSet) (resource : Config.Resource) :
    Yields Built (fun staged => Breaks staged.failure) (startDraft set resource) := by
  rw [startDraft]
  split
  · exact runPlugin_spec (call_triple (.base resource)) (.fresh {}) _ _ _
  · exact .fresh {}

theorem addMapping_built (set : PluginSet) (job : Job) (hd : Built draft) :
    Yields Built (fun staged => Breaks staged.failure) (addMapping set job draft) := by
  refine Yields.bind (Q := Built) ?_ fun middle hm => ?_
  · exact Yields.foldlM (fun plugin _ hd => runPlugin_spec (call_triple (.mapping plugin job)) hd _ _ _) hd
  · exact Yields.foldlM (fun plugin _ hd => runPlugin_spec (call_triple (.extension plugin job)) hd _ _ _) hm

theorem document_breaksOff (generator : Generator) (name : String) :
    Triple (fun _ => True) (generator.document name) (fun _ _ => True) BreaksOff := by
  refine .bind (Q := fun _ _ => True) (fun _ _ => trivial) fun cache => ?_
  split
  · exact .pure fun _ _ => trivial
  · split
    · refine .bind (Q := fun _ _ => True) (fun _ _ => trivial) fun _ => ?_
      split
      · exact .throw trivial
      · exact .bind (Q := fun _ _ => True) (fun _ _ => trivial) fun _ => .pure fun _ _ => trivial
    · exact .throw trivial

theorem addMappings_built (generator : Generator) (set : PluginSet) (resource : Config.Resource)
    (mappings : List Config.Mapping) (hd : Built draft) :
    Triple (fun _ => True) (generator.addMappings set resource mappings draft) (fun after _ => Built after)
      BreaksOff := by
  induction mappings generalizing draft with
  | nil => exact .pure fun _ _ => hd
  | cons mapping rest ih =>
    refine .bind (document_breaksOff generator mapping.document) fun document => ?_
    refine .bind (.liftExcept (.mapError (addMapping_built set _ hd))) fun next => ?_
    rintro cache ⟨hnext, -⟩
    exact ih hnext cache trivial

theorem setOf_breaksOff (generator : Generator) (resource : Config.Resource) :
    Yields (fun _ => True) BreaksOff (generator.setOf resource) := by
  rw [setOf]
  split <;> split <;> trivial

/-- **A definition is made of a draft that was built**, and if a plugin fails then it fails at one. -/
theorem generate_built (generator : Generator) (resource : Config.Resource) :
    Triple (fun _ => True) (generator.generate resource)
      (fun generated _ => ∃ draft, Built draft ∧ generated.definition = finish draft) BreaksOff := by
  rw [generate]
  split
  · exact .throw trivial
  · refine .bind (.liftExcept (setOf_breaksOff generator resource)) fun set => ?_
    rintro cache -
    have hstart : Yields Built BreaksOff ((startDraft set resource).mapError Failure.plugin) :=
      .mapError (startDraft_built set resource)
    refine Triple.bind (.liftExcept (I := fun _ => True) hstart) ?_ cache trivial
    rintro draft cache ⟨hdraft, -⟩
    have hmappings := addMappings_built generator set resource resource.mappings hdraft
    exact hmappings.bind (fun last => .pure fun _ hlast => ⟨last, hlast, rfl⟩) cache trivial

end Generator

/-- **Trees stay forests.** In every tree that conversions and plugins build from nothing what a node
stores is what its links lead to, each link leads to a node that was made, and made later, and no two
links lead to the same one; all nodes that are given out were made, and no call of a plugin loses one. So
pruning, making a value and making the text come to an end, and look at no node that was not made. A
generation only ever has such trees. -/
theorem trees_stay_forests :
    (∀ draft : Draft, Built draft →
      (∀ p, ∀ entry ∈ (draft.tree.node p).properties, draft.tree.link? p (.property entry.1) = some entry.2) ∧
      (∀ p l c, draft.tree.link? p l = some c → p < c ∧ c < draft.tree.size) ∧
      (∀ p l p' l' c, draft.tree.link? p l = some c → draft.tree.link? p' l' = some c → p = p' ∧ l = l') ∧
      draft.tree.Lends ∧ (∀ call : Call, draft.tree.size ≤ (call.build draft).2.tree.size) ∧
        draft.tree.Ends) ∧
    ∀ (generator : Generator) (resource : Config.Resource) (cache : Cache),
      Yields (fun generated => ∃ draft, Built draft ∧ generated.definition = Generator.finish draft)
        Generator.BreaksOff (generator.generate resource cache).1 := by
  constructor
  · intro draft hb
    have hsound := hb.sound
    refine ⟨?_, ?_, ?_, hsound.lends, hb.size_le, hsound.ends⟩
    · intro p entry he
      exact hsound.linked.link_of_mem he
    · intro p l c hl
      exact ⟨hsound.linked.later hl, hsound.linked.made hl⟩
    · intro p l p' l' c hl hl'
      exact hsound.linked.once hl hl'
  · intro generator resource cache
    have hrun := Generator.generate_built generator resource cache trivial
    rcases hg : generator.generate resource cache with ⟨failure | generated, after⟩ <;> rwa [hg] at hrun

/-- The calls for a login, of which two fail, build a tree with the node of the secret; and a generation
that lacks a schema breaks off at a tree that was built. -/
theorem login_tree_ends :
    let draft := ({} : Draft).after (.base Pipeline.loginResource :: Pipeline.loginCalls)
    draft.tree.follow? Extension.Tree.root
        [.property "spec", .property "v1", .property "entry", .property "passwordSecretRef"] = some 5 ∧
      draft.tree.Lends ∧ draft.tree.Ends ∧
      Generator.Breaks (.schemaNotFound Pipeline.entryPart "Widget") := by
  intro draft
  have hbuilt : Built draft := (Built.fresh {}).after _
  obtain ⟨hall, hruns⟩ := trees_stay_forests
  obtain ⟨-, -, -, hlends, -, hends⟩ := hall draft hbuilt
  have hfails := hruns (Generator.ofDocument {}) Generator.lost {}
  exact ⟨by decide +kernel, hlends, hends, hfails⟩

end CrdForge.Generation
