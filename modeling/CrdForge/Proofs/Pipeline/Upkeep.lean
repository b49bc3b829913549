import CrdForge.Proofs.Conversion.Telling
import CrdForge.Proofs.Extension.Recursion
import CrdForge.Proofs.Pipeline.Calls

/-! Trees under plugins.

A plugin works on nodes that it was given out before, so what it does to the tree of a draft leaves the
tree sound and loses no node (`Call.build_tends`), whether or not the plugin fails in the end. `Tends`
says so of a step that knows nodes below some number; a step that is given a node goes on with a step
that knows one more (`Tends.given`). So trees that conversions and plugins build from nothing are sound
(`Built.sound`). -/
namespace CrdForge.Pipeline

open Extension (NodeId Tree)
open Run

/-- Whether the tree of a draft is sound and has so many nodes at least. -/
structure Draft.Planted (made : Nat) (draft : Draft) : Prop where
  sound : draft.tree.Sound
  made_le : made ≤ draft.tree.size

/-- Whether a step leaves trees sound and with so many nodes, even if it fails. -/
abbrev Tends {α : Type} (made : Nat) (step : Build α) : Prop :=
  Maintains (Draft.Planted made) (fun _ => True) step

/-! ### Trees -/

section
variable {tree after : Tree} {x : NodeId}

theorem grows_sound (h : Tree.Grows x tree after) (ht : tree.Sound) : after.Sound :=
  ⟨h.linked, Nat.lt_of_lt_of_le ht.made h.size_le⟩

theorem conversion_grows (setting : Conversion.Setting) (place : Conversion.Place)
    (depth : Nat) (ht : tree.Sound) (hx : place.node < tree.size) :
    Tree.Grows place.node tree (Conversion.convert setting place depth tree).2 :=
  (Conversion.convertWithin_tells setting (Conversion.maxDepth - depth) place tree ht.linked hx).grows

/-- A plugin for properties leaves the tree as it is or conceals what was said at its node and below. -/
theorem property_grows (plugin : Conversion.PropertyPlugin) {site : Conversion.Site} (schema : Crd.Schema)
    (ht : tree.Sound) (hx : site.node < tree.size) :
    Tree.Grows site.node tree (plugin.apply site schema tree).2 := by
  rw [plugin.apply_eq]
  dsimp only
  split
  · exact (Conversion.conceal_writes site ht.linked hx).grows
  · exact .refl ht.linked _

end

namespace Tends
variable {α β : Type} {made : Nat} {job : Job} {node : NodeId}

/-! ### Steps on the definition -/

theorem readPart (part : String) : Tends made (readPart part) := by
  refine Maintains.get.bind fun draft _ => ?_
  split
  · exact .pure trivial
  · exact .throw _

theorem editPart (part : String) (change : Crd.Schema → Crd.Schema) : Tends made (editPart part change) := by
  refine Maintains.get.bind fun draft hd => ?_
  split
  · exact .set ⟨hd.sound, hd.made_le⟩
  · exact .throw _

theorem readVersion (job : Job) : Tends made (readVersion job) := by
  refine (readPart specPart).bind fun spec _ => ?_
  split
  · exact .pure trivial
  · exact .throw _

theorem writeVersion (job : Job) (version : Crd.Schema) : Tends made (writeVersion job version) :=
  editPart specPart _

theorem raise (failure : Option Failure) : Tends made (raise failure) := by
  cases failure with
  | none => exact .pure trivial
  | some failure => exact .throw failure

/-! ### Steps on the tree -/

/-- A step that grows the tree. -/
theorem grown {step : Conversion.Step α} (x : NodeId)
    (h : ∀ tree : Tree, tree.Sound → made ≤ tree.size → Tree.Grows x tree (step tree).2) :
    Tends made (onTree step) := by
  intro draft hd
  have hgrows := h draft.tree hd.sound hd.made_le
  exact ⟨⟨grows_sound hgrows hd.sound, Nat.le_trans hd.made_le hgrows.size_le⟩, fun _ _ => trivial⟩

/-- A step that is given a node goes on with one that knows it. -/
theorem given {step : Conversion.Step NodeId} {next : NodeId → Build β}
    (h : ∀ tree : Tree, tree.Sound → made ≤ tree.size → (step tree).2.Sound ∧ tree.Gives (step tree))
    (hn : ∀ x more, made ≤ more → x < more → Tends more (next x)) : Tends made (onTree step >>= next) := by
  intro draft hd
  obtain ⟨hsound, hgives⟩ := h draft.tree hd.sound hd.made_le
  have hmore : made ≤ (step draft.tree).2.size := Nat.le_trans hd.made_le hgives.size_le
  obtain ⟨hlast, -⟩ := hn _ _ hmore hgives.made { draft with tree := (step draft.tree).2 }
    ⟨hsound, Nat.le_refl _⟩
  exact ⟨⟨hlast.sound, Nat.le_trans hmore hlast.made_le⟩, fun _ _ => trivial⟩

theorem nodeAt {path : List String} {next : NodeId → Build β}
    (hn : ∀ x more, made ≤ more → x < more → Tends more (next x)) : Tends made (nodeAt path >>= next) := by
  refine given (fun tree ht _ => ?_) hn
  exact ⟨(Tree.descend_edits ht path).1.sound, ht.linked.descend_gives ht.made path⟩

theorem nodeBelow {name : String} {next : NodeId → Build β} (hx : node < made)
    (hn : ∀ x more, made ≤ more → x < more → Tends more (next x)) :
    Tends made (nodeBelow node name >>= next) := by
  refine given (fun tree ht hle => ?_) hn
  have hmade : node < tree.size := Nat.lt_of_lt_of_le hx hle
  exact ⟨grows_sound (Tree.child_spec ht.linked hmade name).2.1 ht, ht.linked.child_gives hmade name⟩

theorem convert (selection : Config.Selection) (schema : OpenApi.Schema) (hx : node < made) :
    Tends made (convert job selection schema node) :=
  grown node fun _ ht hle => conversion_grows _ ⟨some schema, node, [Path.root]⟩ 0 ht
    (Nat.lt_of_lt_of_le hx hle)

theorem annotate (node : NodeId) (name : String) (value : Json) : Tends made (annotate node name value) :=
  grown node fun _ ht _ => Tree.annotate_grows ht.linked node name value

end Tends

/-! ### Plugins -/

section
variable {made : Nat} {node : NodeId}

theorem addParameter_tends (job : Job) (hx : node < made) (parameter : OpenApi.Parameter) :
    Tends made (addParameter job node parameter) := by
  rw [addParameter]
  split
  · exact .pure trivial
  · split
    · exact .pure trivial
    · refine Tends.nodeBelow hx fun place more _ hplace => ?_
      refine (Tends.convert _ _ hplace).bind fun result _ => ?_
      split
      · exact .pure trivial
      · exact (Tends.readVersion job).bind fun version _ => Tends.writeVersion job _

theorem addParameters_tends (job : Job) : Tends made (addParameters job) := by
  rw [addParameters]
  split
  · exact .pure trivial
  · refine (Maintains.liftExcept _).bind fun parameters _ => ?_
    refine Tends.nodeAt fun node more _ hx => ?_
    refine (Tends.readVersion job).discard.bind fun _ _ => ?_
    refine (Maintains.forIn fun parameter _ => addParameter_tends job hx parameter).bind fun _ _ => ?_
    exact .pure trivial

theorem addEntry_tends (job : Job) : Tends made (addEntry job) := by
  refine (Maintains.liftExcept _).bind fun source _ => ?_
  split
  · exact .pure trivial
  · refine (Tends.readVersion job).discard.bind fun _ _ => ?_
    refine Tends.nodeAt fun node more _ hx => ?_
    refine (Tends.convert _ _ hx).bind fun result _ => ?_
    split
    · exact .throw _
    · refine Maintains.get.bind fun draft _ => ?_
      exact (Tends.readVersion job).bind fun version _ => Tends.writeVersion job _

theorem addStatus_tends (job : Job) : Tends made (addStatus job) := by
  refine (Maintains.liftExcept _).bind fun source _ => ?_
  split
  · exact .pure trivial
  · refine Tends.nodeAt fun node more _ hx => ?_
    refine (Tends.convert _ _ hx).bind fun result _ => ?_
    split
    · exact .pure trivial
    · exact Tends.editPart statusPart _

theorem addReferences_tends (job : Job) : Tends made (addReferences job) := by
  rw [addReferences]
  dsimp only
  split
  · exact .pure trivial
  · refine (Tends.readVersion job).bind fun version _ => ?_
    refine (Tends.writeVersion job _).bind fun _ _ => ?_
    refine (Tends.raise _).bind fun _ _ => ?_
    split
    · exact .pure trivial
    · split
      · exact .throw _
      · exact (Tends.writeVersion job _).bind fun _ _ => Tends.raise _

theorem addConnection_tends (job : Job) : Tends made (addConnection job) := by
  refine (Tends.editPart specPart _).bind fun _ _ => ?_
  exact (Tends.readVersion job).discard.bind fun _ _ => Tends.editPart specPart _

theorem annotateReference_tends (parent : List String) (reference : Config.Reference) :
    Tends made (annotateReference parent reference) := by
  rw [annotateReference]
  split
  · exact Maintains.bind (Q := fun _ => False) (.throw _) fun _ h => h.elim
  · refine Tends.nodeAt fun place more _ hplace => ?_
    refine Tends.nodeBelow hplace fun node _ _ _ => ?_
    exact (Tends.annotate _ _ _).bind fun _ _ => Tends.annotate _ _ _

theorem MappingPlugin.run_tends (plugin : MappingPlugin) (job : Job) : Tends made (plugin.run job) := by
  cases plugin with
  | majorVersion => exact Tends.editPart specPart _
  | parameters => exact addParameters_tends job
  | entry => exact addEntry_tends job
  | status => exact addStatus_tends job
  | references => exact addReferences_tends job
  | choices => exact (Tends.readVersion job).bind fun _ _ => Tends.writeVersion job _
  | versionChoice => exact Tends.editPart specPart _
  | connection => exact addConnection_tends job
  | columns => exact Maintains.modify fun _ hd => ⟨hd.sound, hd.made_le⟩

theorem ExtensionPlugin.run_tends (plugin : ExtensionPlugin) (job : Job) : Tends made (plugin.run job) := by
  cases plugin with
  | openApiVersion => exact Tends.nodeAt fun node _ _ _ => Tends.annotate _ _ _
  | referenceMetadata =>
    refine (Maintains.forIn fun _ _ => annotateReference_tends _ _).bind fun _ _ => ?_
    refine (Maintains.forIn fun _ _ => annotateReference_tends _ _).bind fun _ _ => ?_
    exact .pure trivial

/-- **Any call of a plugin leaves trees sound and loses no node.** -/
theorem Call.build_tends (call : Call) : Tends made call.build := by
  cases call with
  | base resource => exact Maintains.modify fun _ hd => ⟨hd.sound, hd.made_le⟩
  | mapping plugin job => exact plugin.run_tends job
  | extension plugin job => exact plugin.run_tends job

end

/-! ### Drafts that were built -/

/-- What calls of plugins, conversions and plugins for properties come to, in any order and at nodes that
were made, from a tree with a root and nothing else. -/
inductive Built : Draft → Prop
  | fresh (definition : Crd.Definition) : Built ⟨definition, Tree.empty⟩
  | call {draft : Draft} (call : Call) : Built draft → Built (call.build draft).2
  | convert {draft : Draft} (setting : Conversion.Setting) (place : Conversion.Place)
    (depth : Nat) : Built draft →
    place.node < draft.tree.size →
    Built { draft with tree := (Conversion.convert setting place depth draft.tree).2 }
  | property {draft : Draft} (plugin : Conversion.PropertyPlugin) (site : Conversion.Site)
    (schema : Crd.Schema) :
    Built draft → site.node < draft.tree.size →
      Built { draft with tree := (plugin.apply site schema draft.tree).2 }

theorem Built.after {draft : Draft} (h : Built draft) (calls : List Call) : Built (draft.after calls) :=
  List.foldlRecOn calls _ h fun _ hd call _ => hd.call call

/-- **Trees that were built are sound.** -/
theorem Built.sound {draft : Draft} (h : Built draft) : draft.tree.Sound := by
  induction h with
  | fresh definition => exact Tree.empty_sound
  | call call _ ih => exact (call.build_tends _ ⟨ih, Nat.zero_le _⟩).1.sound
  | convert setting place depth _ hx ih => exact grows_sound (conversion_grows setting place depth ih hx) ih
  | property plugin site schema _ hx ih => exact grows_sound (property_grows plugin schema ih hx) ih

/-- A call loses no node of a tree that was built. -/
theorem Built.size_le {draft : Draft} (h : Built draft) (call : Call) :
    draft.tree.size ≤ (call.build draft).2.tree.size :=
  (call.build_tends draft ⟨h.sound, Nat.le_refl _⟩).1.made_le

end CrdForge.Pipeline
