import CrdForge.Proofs.Conversion.Telling
import CrdForge.Proofs.Pipeline.Lockstep

/-! That plugins for a version keep to it.

Two runs of the same plugins are compared, on drafts that are `Alike` in what belongs to the version that
they work on. A plugin does the same on both, or fails on both for the same reason, and changes nothing
that belongs to other versions (`MappingPlugin.run_meets`, `ExtensionPlugin.run_meets`). -/
namespace CrdForge.Pipeline

open Extension (Link Notes NodeId Tree)
open Run

/-! ### What belongs to a version -/

/-- Whether parts came from others by changes of what belongs to one version. Of the others is left as it
was what is observed, what is asked for if it was there, and what is said. -/
structure Confined (version : String) (start parts : Parts) : Prop where
  sound : parts.tree.Sound
  notes : ∀ links, (∀ part, ¬ versionPath part version <+: links) →
    parts.tree.said Tree.root links = start.tree.said Tree.root links
  status : ∀ other, other ≠ version → parts.status.property? other = start.status.property? other
  spec : ∀ other schema, other ≠ version → start.spec.property? other = some schema →
    parts.spec.property? other = some schema

/-- Whether parts have the same of a version in what is observed and said. -/
structure Same (version : String) (parts parts' : Parts) : Prop where
  notes : ∀ part, (parts.tree.said Tree.root).beyond (versionPath part version) =
    (parts'.tree.said Tree.root).beyond (versionPath part version)
  status : parts.status.property? version = parts'.status.property? version

/-- Whether two runs for a version left the same of it in what is observed and said. -/
structure Beside (version : String) (start start' parts parts' : Parts) : Prop
    extends Same version parts parts' where
  left : Confined version start parts
  right : Confined version start' parts'

/-- Whether two runs for a version that was added left alike all that belongs to it. -/
structure Alike (version : String) (start start' parts parts' : Parts) : Prop
    extends Beside version start start' parts parts' where
  listed : ∃ schema, parts.spec.property? version = some schema ∧ parts'.spec.property? version = some schema

section
variable {version part : String} {start start' parts parts' : Parts} {rest : List Link} {tree tree' : Tree}
  {notes : Notes}

theorem Confined.refl (version : String) (h : parts.tree.Sound) : Confined version parts parts :=
  ⟨h, fun _ _ => rfl, fun _ _ => rfl, fun _ _ _ hs => hs⟩

theorem Confined.edit (h : Confined version start parts)
    (he : Tree.Edits (versionPath part version ++ rest) parts.tree tree notes) :
    Confined version start (parts.withTree tree) where
  sound := he.sound
  notes links hl := by
    have hn : ¬ versionPath part version ++ rest <+: links :=
      fun hp => hl part ((List.prefix_append ..).trans hp)
    rw [Parts.withTree_tree, he.said, Notes.replace_outside _ _ hn, h.notes links hl]
  status := h.status
  spec := h.spec

theorem Confined.withSpec (h : Confined version start parts) {spec : Crd.Schema}
    (hs : ∀ other schema, other ≠ version → parts.spec.property? other = some schema →
      spec.property? other = some schema) :
    Confined version start { parts with spec := spec } :=
  ⟨h.sound, h.notes, h.status, fun other schema ho hp => hs other schema ho (h.spec other schema ho hp)⟩

theorem Beside.beyond (h : Beside version start start' parts parts') (part : String) (rest : List Link) :
    (parts.tree.said Tree.root).beyond (versionPath part version ++ rest) =
      (parts'.tree.said Tree.root).beyond (versionPath part version ++ rest) := by
  rw [Notes.beyond_append, Notes.beyond_append, h.notes]

/-- The same edit for both runs. -/
theorem Beside.edit (h : Beside version start start' parts parts')
    (he : Tree.Edits (versionPath part version ++ rest) parts.tree tree notes)
    (he' : Tree.Edits (versionPath part version ++ rest) parts'.tree tree' notes) :
    Beside version start start' (parts.withTree tree) (parts'.withTree tree') where
  left := h.left.edit he
  right := h.right.edit he'
  notes other := by
    funext links
    show tree.said Tree.root (versionPath other version ++ links) =
      tree'.said Tree.root (versionPath other version ++ links)
    rw [he.said, he'.said]
    by_cases ho : other = part
    · subst ho
      rw [Notes.replace_append, Notes.replace_append, h.notes]
    · have hn : ¬ versionPath part version ++ rest <+: versionPath other version ++ links := fun hp =>
        ho (Link.property.inj (List.cons_prefix_cons.mp hp).1).symm
      rw [Notes.replace_outside _ _ hn, Notes.replace_outside _ _ hn]
      exact congrFun (h.notes other) links
  status := h.status

theorem Alike.edit (h : Alike version start start' parts parts')
    (he : Tree.Edits (versionPath part version ++ rest) parts.tree tree notes)
    (he' : Tree.Edits (versionPath part version ++ rest) parts'.tree tree' notes) :
    Alike version start start' (parts.withTree tree) (parts'.withTree tree') :=
  ⟨h.toBeside.edit he he', h.listed⟩

end

/-! ### Between versions -/

section
variable {version : String} {start parts middle after : Parts}

/-- Whether nothing is said but what belongs to a version. -/
def Silent (tree : Tree) : Prop :=
  ∀ links, (∀ part version, ¬ versionPath part version <+: links) → tree.said Tree.root links = []

theorem empty_silent : Silent Tree.empty := fun links _ => by
  rw [Tree.empty_said, Notes.none]

/-- Nothing is said above a version. -/
theorem Silent.quiet {tree : Tree} (h : Silent tree) (part version : String) :
    tree.Quiet Tree.root (versionPath part version) := by
  intro before link rest he
  refine h before fun other name hp => ?_
  have hlength := congrArg List.length he
  have hle := hp.length_le
  rw [List.length_append, List.length_cons] at hlength
  simp only [versionPath, List.length_cons, List.length_nil] at hlength hle
  omega

theorem Confined.silent (h : Confined version start parts) (hs : Silent start.tree) : Silent parts.tree :=
  fun links hl => (h.notes links fun part => hl part version).trans (hs links hl)

/-- Whether what belongs to a version was left as it was. -/
structure Keeps (version : String) (start parts : Parts) : Prop extends Same version parts start where
  listed : ∀ schema, start.spec.property? version = some schema → parts.spec.property? version = some schema

theorem Keeps.refl (version : String) (parts : Parts) : Keeps version parts parts :=
  ⟨⟨fun _ => rfl, rfl⟩, fun _ hs => hs⟩

theorem Keeps.trans (h : Keeps version start middle) (h' : Keeps version middle after) :
    Keeps version start after :=
  ⟨⟨fun part => (h'.notes part).trans (h.notes part), h'.status.trans h.status⟩,
    fun schema hs => h'.listed schema (h.listed schema hs)⟩

/-- A run for one version keeps the others. -/
theorem Confined.keeps {other : String} (h : Confined version start parts) (hn : other ≠ version) :
    Keeps other start parts where
  notes part := by
    funext links
    refine h.notes _ fun name hp => hn ?_
    exact (Link.property.inj (List.cons_prefix_cons.mp (List.cons_prefix_cons.mp hp).2).1).symm
  status := h.status other hn
  listed schema := h.spec other schema hn

end

/-! ### Steps on one version -/

/-- Whether nodes stand at the end of one path. -/
def Placed (path : List Link) (node node' : NodeId) (parts parts' : Parts) : Prop :=
  parts.tree.follow? Tree.root path = some node ∧ parts'.tree.follow? Tree.root path = some node'

section
variable {resource resource' other : Config.Resource} {job : Job} {start start' parts parts' : Parts}
  {part : String} {rest : List Link} {node node' : NodeId}

theorem Confined.withVersion (h : Confined job.majorVersion start parts) (version : Crd.Schema) :
    Confined job.majorVersion start (parts.withVersion job version) :=
  h.withSpec fun name schema hn hs => by
    rw [Crd.Schema.property?, Crd.Schema.insert, Keyed.lookup_insert, if_neg hn]
    exact hs

theorem Beside.withVersion (h : Beside job.majorVersion start start' parts parts') (version : Crd.Schema) :
    Alike job.majorVersion start start' (parts.withVersion job version) (parts'.withVersion job version) where
  left := h.left.withVersion version
  right := h.right.withVersion version
  notes := h.notes
  status := h.status
  listed := ⟨version, (Keyed.lookup_insert ..).trans (if_pos rfl),
    (Keyed.lookup_insert ..).trans (if_pos rfl)⟩

theorem Alike.withStatus (h : Alike job.majorVersion start start' parts parts') (schema : Crd.Schema) :
    Alike job.majorVersion start start'
      { parts with status := parts.status.insert job.majorVersion schema }
      { parts' with status := parts'.status.insert job.majorVersion schema } := by
  have hlookup (status : Crd.Schema) (name : String) :
    (status.insert job.majorVersion schema).property? name =
      if name = job.majorVersion then some schema else status.property? name := Keyed.lookup_insert ..
  refine ⟨⟨⟨h.notes, ?_⟩, ⟨h.left.sound, h.left.notes, fun name hn => ?_, h.left.spec⟩,
    ⟨h.right.sound, h.right.notes, fun name hn => ?_, h.right.spec⟩⟩, h.listed⟩
  · rw [hlookup, hlookup, if_pos rfl, if_pos rfl]
  · rw [hlookup, if_neg hn]
    exact h.left.status name hn
  · rw [hlookup, if_neg hn]
    exact h.right.status name hn

theorem nodeAt_meets (h : Alike job.majorVersion start start' parts parts') (part : String)
    (names : List String) :
    Meets resource resource' (fun node node' p p' => Alike job.majorVersion start start' p p' ∧
        Placed (versionPath part job.majorVersion ++ names.map .property) node node' p p')
      (nodeAt (part :: job.majorVersion :: names) (parts.draft resource))
      (nodeAt (part :: job.majorVersion :: names) (parts'.draft resource')) := by
  obtain ⟨he, hn⟩ := Tree.descend_edits h.left.sound (part :: job.majorVersion :: names)
  obtain ⟨he', hn'⟩ := Tree.descend_edits h.right.sound (part :: job.majorVersion :: names)
  have hb := h.beyond part (names.map .property)
  rw [nodeAt_draft, nodeAt_draft]
  exact .ok ⟨h.edit he (hb ▸ he'), hn, hn'⟩

theorem nodeBelow_meets (h : Alike job.majorVersion start start' parts parts')
    (hp : Placed (versionPath part job.majorVersion ++ rest) node node' parts parts') (name : String) :
    Meets resource resource' (fun child child' p p' => Alike job.majorVersion start start' p p' ∧
        Placed (versionPath part job.majorVersion ++ (rest ++ [.property name])) child child' p p' ∧
        Placed (versionPath part job.majorVersion ++ rest) node node' p p')
      (nodeBelow node name (parts.draft resource)) (nodeBelow node' name (parts'.draft resource')) := by
  obtain ⟨he, hn, hg⟩ := Tree.child_edits h.left.sound hp.1 name
  obtain ⟨he', hn', hg'⟩ := Tree.child_edits h.right.sound hp.2 name
  rw [List.append_assoc] at hn hn'
  rw [nodeBelow_draft, nodeBelow_draft]
  refine .ok ⟨h.edit he (h.beyond part rest ▸ he'), ⟨hn, hn'⟩, ?_, ?_⟩
  · exact hg.keeps h.left.sound hp.1 (List.prefix_refl _) hp.1
  · exact hg'.keeps h.right.sound hp.2 (List.prefix_refl _) hp.2

theorem annotate_meets (h : Alike job.majorVersion start start' parts parts')
    (hp : Placed (versionPath part job.majorVersion ++ rest) node node' parts parts')
    (name : String) (value : Json) :
    Meets resource resource' (fun _ _ p p' => Alike job.majorVersion start start' p p' ∧
        Placed (versionPath part job.majorVersion ++ rest) node node' p p')
      (annotate node name value (parts.draft resource))
        (annotate node' name value (parts'.draft resource')) := by
  have he := Tree.annotate_edits h.left.sound hp.1 name value
  have he' := Tree.annotate_edits h.right.sound hp.2 name value
  rw [annotate_draft, annotate_draft]
  refine .ok ⟨h.edit he (h.beyond part rest ▸ he'), ?_, ?_⟩
  · exact (Tree.annotate_grows h.left.sound.linked node name value).keeps h.left.sound hp.1
      (List.prefix_refl _) hp.1
  · exact (Tree.annotate_grows h.right.sound.linked node' name value).keeps h.right.sound hp.2
      (List.prefix_refl _) hp.2

/-- What a conversion makes does not depend on the tree, and what it says
only on what was said from its node on. -/
theorem conversion_edits (job : Job) {path : List Link} {tree : Tree} (selection : Config.Selection)
    (schema : OpenApi.Schema)
    (ht : tree.Sound) (hx : tree.follow? Tree.root path = some node) :
    (job.conversion selection schema node tree).1 =
        Conversion.shapeWithin (job.setting selection) Conversion.maxDepth schema [Path.root] ∧
      Tree.Edits path tree (job.conversion selection schema node tree).2
        (Conversion.notesWithin (job.setting selection) Conversion.maxDepth schema [Path.root]
          ((tree.said Tree.root).beyond path)) ∧
      Tree.Grows node tree (job.conversion selection schema node tree).2 := by
  have hw := Conversion.convertWithin_tells (job.setting selection) Conversion.maxDepth
    ⟨some schema, node, [Path.root]⟩ tree ht.linked (ht.linked.follow_made ht.made hx)
  have he := hw.grows.edits ht hx
  rw [hw.said, Tree.said_of_follow hx] at he
  exact ⟨(Job.conversion_shape rfl).symm, he, hw.grows⟩

theorem convert_meets (h : Alike job.majorVersion start start' parts parts')
    (hp : Placed (versionPath part job.majorVersion ++ rest) node node' parts parts')
    (selection : Config.Selection) (schema : OpenApi.Schema) :
    Meets resource resource' (fun a b p p' => a = b ∧ Alike job.majorVersion start start' p p' ∧
        ∀ before x x', before <+: versionPath part job.majorVersion ++ rest →
          Placed before x x' parts parts' → Placed before x x' p p')
      (convert job selection schema node (parts.draft resource))
      (convert job selection schema node' (parts'.draft resource')) := by
  obtain ⟨hr, he, hg⟩ := conversion_edits job selection schema h.left.sound hp.1
  obtain ⟨hr', he', hg'⟩ := conversion_edits job selection schema h.right.sound hp.2
  rw [convert_draft, convert_draft]
  refine .ok ⟨hr.trans hr'.symm, h.edit he (h.beyond part rest ▸ he'), fun before x x' hb hq => ⟨?_, ?_⟩⟩
  · exact hg.keeps h.left.sound hp.1 hb hq.1
  · exact hg'.keeps h.right.sound hp.2 hb hq.2

theorem alike_lockstep (resource resource' : Config.Resource) (job : Job) (start start' : Parts) :
    Lockstep resource resource' job (Alike job.majorVersion start start') Placed where
  listed h := h.listed
  withVersion h := h.toBeside.withVersion
  withStatus h := h.withStatus
  placed_withVersion hp _ := hp
  nodeAt h := nodeAt_meets h
  nodeBelow h hp := nodeBelow_meets h hp
  convert h hp := convert_meets h hp

end

/-! ### Plugins -/

section
variable {resource resource' other : Config.Resource} {job : Job} {start start' parts parts' : Parts}

theorem addVersion_meets (hk : other.kind = job.resource.kind)
    (h : Beside job.majorVersion start start' parts parts') :
    Meets resource resource' (fun _ _ => Alike job.majorVersion start start')
      (addVersion job (parts.draft resource)) (addVersion (job.on other) (parts'.draft resource')) := by
  rw [addVersion, addVersion, Parts.editPart_spec, Parts.editPart_spec, Job.on_lowerKind hk]
  exact .ok (h.withVersion (emptyVersion job))

/-- A change of what is asked for that leaves all that is listed. -/
theorem Alike.withSpec (h : Alike job.majorVersion start start' parts parts') {spec spec' : Crd.Schema}
    (hs : ∀ name schema, parts.spec.property? name = some schema → spec.property? name = some schema)
    (hs' : ∀ name schema, parts'.spec.property? name = some schema → spec'.property? name = some schema) :
    Alike job.majorVersion start start' { parts with spec := spec } { parts' with spec := spec' } where
  left := h.left.withSpec fun name schema _ => hs name schema
  right := h.right.withSpec fun name schema _ => hs' name schema
  notes := h.notes
  status := h.status
  listed := by
    obtain ⟨schema, hv, hv'⟩ := h.listed
    exact ⟨schema, hs _ _ hv, hs' _ _ hv'⟩

theorem property?_withVersionChoice (configured : List String) (current : String)
    (spec : Crd.Schema) (name : String) :
    (withVersionChoice configured current spec).property? name = spec.property? name := by
  rw [Crd.Schema.property?, withVersionChoice_properties]
  rfl

theorem addVersionChoice_meets (h : Alike job.majorVersion start start' parts parts') :
    Meets resource resource' (fun _ _ => Alike job.majorVersion start start')
      (addVersionChoice job (parts.draft resource))
        (addVersionChoice (job.on other) (parts'.draft resource')) := by
  rw [addVersionChoice, addVersionChoice, Parts.editPart_spec, Parts.editPart_spec]
  refine .ok (h.withSpec (fun name schema hs => ?_) (fun name schema hs => ?_))
  · rwa [property?_withVersionChoice]
  · rwa [property?_withVersionChoice]

theorem property?_withConnection_some {spec : Crd.Schema} {name : String} {schema : Crd.Schema}
    (h : spec.property? name = some schema) : (withConnection spec).property? name = some schema := by
  by_cases hn : name = connectionProperty
  · have hc : Keyed.has connectionProperty spec.properties = true := Keyed.has_iff.mpr ⟨schema, hn ▸ h⟩
    rw [withConnection, if_pos hc]
    exact h
  · rwa [property?_withConnection hn]

theorem property?_withConnectionRules (mapping : Config.Mapping) (spec : Crd.Schema) (name : String) :
    (withConnectionRules mapping spec).property? name = spec.property? name := by
  rw [Crd.Schema.property?, withConnectionRules_properties]
  rfl

theorem addConnection_meets (h : Alike job.majorVersion start start' parts parts') :
    Meets resource resource' (fun _ _ => Alike job.majorVersion start start')
      (addConnection job (parts.draft resource)) (addConnection (job.on other) (parts'.draft resource')) := by
  have hlisted : Alike job.majorVersion start start' { parts with spec := withConnection parts.spec }
      { parts' with spec := withConnection parts'.spec } :=
    h.withSpec (fun _ _ => property?_withConnection_some) (fun _ _ => property?_withConnection_some)
  have hfirst : Meets resource resource' (fun _ _ => Alike job.majorVersion start start')
      (editPart specPart withConnection (parts.draft resource))
      (editPart specPart withConnection (parts'.draft resource')) := by
    rw [Parts.editPart_spec, Parts.editPart_spec]
    exact .ok hlisted
  refine hfirst.bind ?_
  intro _ _ parts parts' h
  refine ((alike_lockstep resource resource' job start start').hasVersion h).bind ?_
  rintro _ _ parts parts' ⟨rfl, rfl⟩
  rw [Parts.editPart_spec, Parts.editPart_spec]
  refine .ok (h.withSpec (fun name schema hs => ?_) (fun name schema hs => ?_))
  · rwa [property?_withConnectionRules]
  · rwa [property?_withConnectionRules]

/-! ### All plugins -/

/-- **A plugin does to a version what it does in a run for that version
alone**, after the version was added. -/
theorem MappingPlugin.run_meets (plugin : MappingPlugin) (hr : resource'.kind = resource.kind)
    (hk : other.kind = job.resource.kind) (h : Alike job.majorVersion start start' parts parts') :
    Meets resource resource' (fun _ _ => Alike job.majorVersion start start')
      (plugin.run job (parts.draft resource)) (plugin.run (job.on other) (parts'.draft resource')) := by
  cases plugin with
  | majorVersion => exact addVersion_meets hk h.toBeside
  | versionChoice => exact addVersionChoice_meets h
  | connection => exact addConnection_meets h
  | columns =>
    rw [MappingPlugin.run, MappingPlugin.run, Parts.setColumns_draft, Parts.setColumns_draft]
    exact .ok ⟨⟨⟨h.notes, h.status⟩, ⟨h.left.sound, h.left.notes, h.left.status, h.left.spec⟩,
      ⟨h.right.sound, h.right.notes, h.right.status, h.right.spec⟩⟩, h.listed⟩
  | parameters | entry | status | references | choices =>
    exact (alike_lockstep resource resource' job start start').run hr hk (by simp) h

theorem annotateReference_meets (names : List String) (reference : Config.Reference)
    (h : Alike job.majorVersion start start' parts parts') :
    Meets resource resource' (fun _ _ => Alike job.majorVersion start start')
      (annotateReference (specPart :: job.majorVersion :: names) reference (parts.draft resource))
      (annotateReference (specPart :: job.majorVersion :: names) reference (parts'.draft resource')) := by
  rw [annotateReference]
  split
  · exact .error
  · refine (nodeAt_meets h specPart names).bind ?_
    rintro node node' parts parts' ⟨h, hnode⟩
    refine (nodeBelow_meets h hnode reference.name).bind ?_
    rintro node node' parts parts' ⟨h, hnode, _⟩
    refine (annotate_meets h hnode _ _).bind ?_
    rintro _ _ parts parts' ⟨h, hnode⟩
    exact (annotate_meets h hnode _ _).mono fun _ _ _ _ hq => hq.1

theorem ExtensionPlugin.run_meets (plugin : ExtensionPlugin)
    (h : Alike job.majorVersion start start' parts parts') :
    Meets resource resource' (fun _ _ => Alike job.majorVersion start start')
      (plugin.run job (parts.draft resource)) (plugin.run (job.on other) (parts'.draft resource')) := by
  cases plugin with
  | openApiVersion =>
    refine (nodeAt_meets h specPart []).bind ?_
    rintro node node' parts parts' ⟨h, hnode⟩
    exact (annotate_meets h hnode _ _).mono fun _ _ _ _ hq => hq.1
  | referenceMetadata =>
    refine (Meets.forIn (fun reference _ q q' hq => annotateReference_meets [] reference hq) h).bind ?_
    intro _ _ parts parts' h
    refine (Meets.forIn (fun reference _ q q' hq =>
      annotateReference_meets [entryPart] reference hq) h).bind ?_
    intro _ _ parts parts' h
    exact .ok h

end

end CrdForge.Pipeline
