import CrdForge.Proofs.Pipeline.Fields

/-! References in schemas and beside them.

A reference is listed as a property, and where it is listed it is said how it leads to its target. Both
go through the same references in the same order, so of those that are declared for one place both have
the last one (`Job.Makes.stands`, `referring_of_mapping`). What is said of secrets and versions has
another form. -/
namespace CrdForge

/-! ### Places -/

/-- References with the places where they are listed, below a parent. -/
def Pipeline.placed (parent : List String) (references : List Config.Reference) :
    List (List String × Config.Reference) :=
  references.map fun reference => (parent ++ [reference.name], reference)

/-- The references of a mapping with the places where they are listed, in order. -/
def Config.Mapping.placements (mapping : Config.Mapping) : List (List String × Config.Reference) :=
  Pipeline.placed [Pipeline.specPart, mapping.majorVersion] mapping.parameters.references ++
    Pipeline.placed [Pipeline.specPart, mapping.majorVersion, Pipeline.entryPart] mapping.entry.references

/-- The reference that is declared last for a place. -/
def Config.Mapping.reference? (mapping : Config.Mapping) (place : List String) : Option Config.Reference :=
  mapping.placements.reverse.lookup place

namespace Pipeline

open Extension (Link Tree)
open Generation.Generator (MappingStep)
open Run

section
variable {placements : List (List String × Config.Reference)} {place parent : List String}
  {references : List Config.Reference} {reference : Config.Reference}

/-- A place has a reference if one is declared for it. -/
theorem lookup_of_mem_placements (h : (place, reference) ∈ placements) :
    ∃ last, placements.reverse.lookup place = some last :=
  Option.isSome_iff_exists.mp (List.lookup_isSome_iff.mpr ⟨_, List.mem_reverse.mpr h, beq_iff_eq.mpr rfl⟩)

theorem lookup_reverse_concat (placements : List (List String × Config.Reference)) (added place : List String)
    (reference : Config.Reference) : (placements ++ [(added, reference)]).reverse.lookup place =
      if place = added then some reference else placements.reverse.lookup place := by
  rw [List.reverse_append, List.reverse_singleton, List.singleton_append, List.lookup_cons]
  by_cases h : place = added
  · simp [h]
  · simp [h, beq_eq_false_iff_ne.mpr h]

theorem placed_concat (parent : List String) (references : List Config.Reference)
    (reference : Config.Reference) :
    placed parent (references ++ [reference]) =
      placed parent references ++ [(parent ++ [reference.name], reference)] :=
  List.map_append

theorem lookup_placed (h : (placed parent references).reverse.lookup place = some reference) :
    place = parent ++ [reference.name] ∧ ∃ before after, references = before ++ reference :: after ∧
      reference.name ∉ referenceNames after := by
  induction references using List.reverseRecOn with
  | nil => cases h
  | append_singleton rest last ih =>
    rw [placed_concat, lookup_reverse_concat] at h
    split at h
    · next hp =>
      obtain rfl := Option.some.inj h
      exact ⟨hp, rest, [], rfl, List.not_mem_nil⟩
    · next hp =>
      obtain ⟨rfl, before, after, rfl, hn⟩ := ih h
      refine ⟨rfl, before, after ++ [last], by simp, ?_⟩
      simp only [referenceNames, List.map_append, List.mem_append, not_or]
      exact ⟨hn, fun hm => hp (by rw [List.mem_singleton.mp hm])⟩

/-- References are placed in their version. -/
theorem version_of_reference? {mapping : Config.Mapping} (h : mapping.reference? place = some reference) :
    (place, reference) ∈ mapping.placements ∧ ∃ rest, place = specPart :: mapping.majorVersion :: rest := by
  obtain ⟨before, after, hs, -⟩ := List.lookup_eq_some_iff.mp h
  have hm : (place, reference) ∈ mapping.placements := List.mem_reverse.mp (hs ▸ by simp)
  refine ⟨hm, ?_⟩
  rcases List.mem_append.mp hm with hm | hm
  · obtain ⟨other, -, he⟩ := List.mem_map.mp hm
    exact ⟨_, (congrArg Prod.fst he).symm⟩
  · obtain ⟨other, -, he⟩ := List.mem_map.mp hm
    exact ⟨_, (congrArg Prod.fst he).symm⟩

end

/-! ### In the schema -/

/-- Whether a property is that of a reference. One that has the place of the
entry may list references of its own. -/
structure StandsFor (property : Crd.Schema) (reference : Config.Reference) : Prop where
  object : property.type = some "object"
  schema : ∃ targetProperty, reference.target.properties.head? = some targetProperty ∧
    SameHeading property (referenceSchema reference targetProperty) ∧
    (reference.name ≠ entryPart → property = referenceSchema reference targetProperty)

section
variable {job : Job} {mapping : Config.Mapping} {version referenced property other : Crd.Schema}
  {reference : Config.Reference} {before after : List Config.Reference}

theorem referenceSchema_standsFor {targetProperty : String}
    (h : reference.target.properties.head? = some targetProperty) :
    StandsFor (referenceSchema reference targetProperty) reference :=
  ⟨rfl, targetProperty, h, .refl _, fun _ => rfl⟩

theorem StandsFor.of_heading (h : StandsFor property reference) (hh : SameHeading other property)
    (he : reference.name ≠ entryPart → other = property) : StandsFor other reference := by
  obtain ⟨hobject, targetProperty, ht, hs, hsame⟩ := h
  exact ⟨hh.type.trans hobject, targetProperty, ht, hh.trans hs, fun hn => (he hn).trans (hsame hn)⟩

/-- A version lists each of its references as it was declared last. -/
theorem Refers.stands (h : Refers mapping version referenced)
    (hs : mapping.parameters.references = before ++ reference :: after)
    (hlast : reference.name ∉ referenceNames after) :
    ∃ property, referenced.property? reference.name = some property ∧ StandsFor property reference := by
  cases h with
  | version hl _ =>
    rw [hs] at hl
    obtain ⟨targetProperty, ht, hp⟩ := withReferences_property?_last hl hlast
    exact ⟨_, hp, referenceSchema_standsFor ht⟩
  | @entry listed entry whole hl he hw =>
    rw [hs] at hl
    obtain ⟨targetProperty, ht, hp⟩ := withReferences_property?_last hl hlast
    rw [property?_insert]
    by_cases hn : reference.name = entryPart
    · rw [if_pos hn]
      rw [hn, he] at hp
      refine ⟨whole, rfl, (referenceSchema_standsFor ht).of_heading ?_ fun hne => absurd hn hne⟩
      exact Option.some.inj hp ▸ (withReferences_heading hw).1
    · rw [if_neg hn]
      exact ⟨_, hp, referenceSchema_standsFor ht⟩

/-- The entry of a version lists each of its references as it was declared last. -/
theorem Refers.entryStands (h : Refers mapping version referenced)
    (hs : mapping.entry.references = before ++ reference :: after)
    (hlast : reference.name ∉ referenceNames after) :
    ∃ entry property, referenced.property? entryPart = some entry ∧
      entry.property? reference.name = some property ∧
      StandsFor property reference := by
  cases h with
  | version _ hnone => simp [hnone] at hs
  | @entry listed entry whole hl he hw =>
    rw [hs] at hw
    obtain ⟨targetProperty, ht, hp⟩ := withReferences_property?_last hw hlast
    exact ⟨whole, _, (property?_insert ..).trans (if_pos rfl), hp, referenceSchema_standsFor ht⟩

/-- **At the place of each reference, a version lists the one that was declared last for it.** -/
theorem Job.Makes.stands (h : job.Makes version) {place : List String}
    (hr : job.mapping.reference? place = some reference) :
    ∃ rest property, place = specPart :: job.majorVersion :: rest ∧ version.descend? rest = some property ∧
      StandsFor property reference := by
  obtain @⟨description, referenced, hrefers⟩ := h
  rw [Config.Mapping.reference?, Config.Mapping.placements, List.reverse_append, List.lookup_append,
    Option.or_eq_some_iff] at hr
  rcases hr with hentry | ⟨-, hparameter⟩
  · obtain ⟨rfl, before, after, hs, hlast⟩ := lookup_placed hentry
    obtain ⟨entry, property, he, hp, hstands⟩ := hrefers.entryStands hs hlast
    obtain ⟨listed, hl, hchooses, -⟩ := versionWithChoices_listed job.mapping he
    refine ⟨[entryPart, reference.name], property, rfl, ?_, hstands⟩
    rw [Crd.Schema.descend?, hl, Option.bind_some, Crd.Schema.descend?, Crd.Schema.property?,
      hchooses.properties, ← Crd.Schema.property?, hp]
    rfl
  · obtain ⟨rfl, before, after, hs, hlast⟩ := lookup_placed hparameter
    obtain ⟨property, hp, hstands⟩ := hrefers.stands hs hlast
    obtain ⟨listed, hl, hchooses, hsame⟩ := versionWithChoices_listed job.mapping hp
    refine ⟨[reference.name], listed, rfl, ?_, hstands.of_heading hchooses.heading fun hn => ?_⟩
    · rw [Crd.Schema.descend?, hl]
      rfl
    · exact hsame fun he => absurd he hn

end

/-! ### Beside the schema -/

/-- How a reference maps back to the API. -/
def referenceOrigin (property : String) : Json := .object [("property", .string property)]

/-- Whether what is said of a place, by name, is how a reference leads to its target. -/
structure Describes (said : String → Option Json) (reference : Config.Reference) : Prop where
  cluster : said Extension.clusterMapping = some (targetMapping reference.target)
  api : said Extension.apiMapping = some (referenceOrigin reference.property)

/-- Whether what is said of a place has the form of what is said of references. -/
def Descriptive (said : String → Option Json) : Prop :=
  (∃ target, said Extension.clusterMapping = some (targetMapping target)) ∨
    ∃ property, said Extension.apiMapping = some (referenceOrigin property)

theorem targetMapping_ne_secretMapping (target : Config.Target) :
    targetMapping target ≠ Conversion.secretMapping := by
  simp [targetMapping, Conversion.secretMapping]

theorem referenceOrigin_ne_secretOrigin (property : String) (site : Conversion.Site) :
    referenceOrigin property ≠ Conversion.secretOrigin site := by
  simp [referenceOrigin, Conversion.secretOrigin]

theorem referenceOrigin_ne_versionOrigin (property : String) (job : Job) :
    referenceOrigin property ≠ versionOrigin job := by
  simp [referenceOrigin, versionOrigin]

/-- What a tree says of references that were placed: of each place how the
last one leads to its target, and nothing like it of others. -/
structure Referring (placements : List (List String × Config.Reference)) (tree : Tree) : Prop where
  sound : tree.Sound
  last : ∀ place reference, placements.reverse.lookup place = some reference →
    Describes ((tree.said Tree.root (place.map .property)).lookup ·) reference
  only : ∀ links, Descriptive ((tree.said Tree.root links).lookup ·) →
    ∃ place reference, placements.reverse.lookup place = some reference ∧ links = place.map .property

section
variable {resource : Config.Resource} {set : PluginSet} {job : Job} {parts after : Parts}
  {parent : List String}
  {placements : List (List String × Config.Reference)} {reference : Config.Reference}

/-- The log of a mapping says nothing but what secrets come from. -/
theorem ofSecret_of_mem_record {entry : Conversion.Entry} (h : entry ∈ job.record job.sources) :
    entry.OfSecret := by
  obtain ⟨source, -, hm⟩ := List.mem_flatMap.mp h
  obtain ⟨below, hb, rfl⟩ := List.mem_map.mp hm
  have hbelow : below.OfSecret := Conversion.entriesWithin_secretive _ _ _ _ _ hb
  induction source.spot.links job.majorVersion with
  | nil => exact hbelow
  | cons link path ih => exact (Conversion.Entry.ofSecret_below _ link).mpr ih

theorem clusterMapping_ne_apiMapping : Extension.clusterMapping ≠ Extension.apiMapping := by decide

theorem not_descriptive_nil : ¬ Descriptive (([] : List (String × Json)).lookup ·) := by
  rintro (⟨_, h⟩ | ⟨_, h⟩) <;> cases h

theorem not_descriptive_secret (before : List (String × Json)) (site : Conversion.Site) :
    ¬ Descriptive ((Keyed.insert Extension.apiMapping (Conversion.secretOrigin site)
      (Keyed.insert Extension.clusterMapping Conversion.secretMapping before)).lookup ·) := by
  rintro (⟨target, h⟩ | ⟨property, h⟩)
  · simp only [Keyed.lookup_insert, if_neg clusterMapping_ne_apiMapping] at h
    exact targetMapping_ne_secretMapping target (Option.some.inj h).symm
  · simp only [Keyed.lookup_insert] at h
    exact referenceOrigin_ne_secretOrigin property site (Option.some.inj h).symm

/-- Conversions say nothing of references. -/
theorem Recorded.referring (h : Recorded job job.sources parts) : Referring [] parts.tree where
  sound := h.sound
  last _ _ hl := nomatch hl
  only links hd := by
    obtain ⟨before, hb⟩ := Conversion.said_replay (job.record job.sources) Extension.Notes.none links
    rw [h.said, hb] at hd
    cases hl : Conversion.lastAbove links (job.record job.sources) with
    | none => exact absurd (by rwa [hl] at hd) not_descriptive_nil
    | some entry =>
      have hentry := ofSecret_of_mem_record (List.mem_reverse.mp (List.mem_of_find?_eq_some hl))
      rw [hl, Option.map_some, Option.getD_some] at hd
      cases entry with
      | listed place => exact absurd hd not_descriptive_nil
      | secret place origin =>
        obtain ⟨site, rfl⟩ := hentry
        rw [Conversion.Entry.noted] at hd
        split at hd
        · exact absurd hd (not_descriptive_secret before site)
        · exact absurd hd not_descriptive_nil

/-- Where a version comes from is no description of a reference. -/
theorem Referring.version (h : Referring [] parts.tree) : Referring []
    ((versionNode job parts).2.annotate (versionNode job parts).1 Extension.apiMapping
      (versionOrigin job)) where
  sound := (annotateVersion_said job h.sound _).1
  last _ _ hl := nomatch hl
  only links hd := by
    refine h.only links ?_
    simp only [(annotateVersion_said job h.sound _).2] at hd
    split at hd
    · rcases hd with ⟨target, hd⟩ | ⟨property, hd⟩
      · simp only [Keyed.lookup_insert, if_neg clusterMapping_ne_apiMapping] at hd
        exact .inl ⟨target, hd⟩
      · simp only [Keyed.lookup_insert] at hd
        exact absurd (Option.some.inj hd).symm (referenceOrigin_ne_versionOrigin property job)
    · exact hd

/-- A reference takes the place of those that were described there before. -/
theorem ReferenceStep.referring (h : ReferenceStep parent reference parts after)
    (hr : Referring placements parts.tree) :
    Referring (placements ++ [(parent ++ [reference.name], reference)]) after.tree := by
  obtain ⟨hsound, hsaid⟩ := h.said hr.sound
  have hpath : parent.map Link.property ++ [.property reference.name] =
      (parent ++ [reference.name]).map .property := by
    rw [List.map_append, List.map_singleton]
  rw [hpath] at hsaid
  have hinj : Function.Injective (List.map Link.property) :=
    List.map_injective_iff.mpr fun _ _ => Link.property.inj
  refine ⟨hsound, fun place other hl => ?_, fun links hd => ?_⟩
  · rw [lookup_reverse_concat] at hl
    split at hl
    · next hp =>
      obtain rfl := Option.some.inj hl
      rw [hsaid, if_pos (by rw [hp])]
      constructor
      · simp only [Keyed.lookup_insert, if_neg clusterMapping_ne_apiMapping, if_true]
      · simp only [Keyed.lookup_insert, if_true, referenceOrigin]
    · next hp =>
      rw [hsaid, if_neg (hinj.ne hp)]
      exact hr.last place other hl
  · by_cases hl : links = (parent ++ [reference.name]).map .property
    · exact ⟨_, reference, by rw [lookup_reverse_concat, if_pos rfl], hl⟩
    · rw [hsaid, if_neg hl] at hd
      obtain ⟨place, other, ho, rfl⟩ := hr.only links hd
      refine ⟨place, other, ?_, rfl⟩
      rw [lookup_reverse_concat, if_neg fun hp => hl (by rw [hp]), ho]

theorem referring_each {references : List Config.Reference}
    (h : Each (ReferenceStep parent) references parts after) (hr : Referring placements parts.tree) :
    Referring (placements ++ placed parent references) after.tree := by
  refine h.all (fun done s => Referring (placements ++ placed parent done) s.tree) ?_ ?_
  · rintro done reference s s' - hs hstep
    rw [placed_concat, ← List.append_assoc]
    exact hstep.referring hs
  · rwa [placed, List.map_nil, List.append_nil]

/-- **A mapping says at the place of each reference how the one that was declared last for it leads to
its target**, and nothing like it elsewhere. -/
theorem referring_of_mapping (hset : set.mappingPlugins = MappingPlugin.all)
    (hext : set.extensionPlugins = ExtensionPlugin.all)
    (h : MappingStep set job (Parts.start resource) after) :
    Referring job.mapping.placements after.tree := by
  obtain ⟨middle, whole, hrecorded, hlists, he⟩ := converted_of_mapping hset h
  rw [hext] at he
  rcases he with _ | ⟨hversion, _ | ⟨hreferences, hnil⟩⟩
  cases hversion
  cases hnil
  cases hreferences with
  | referenceMetadata hparameters hentry =>
    have hwhole : Referring [] whole.tree := hlists.tree ▸ hrecorded.referring
    exact referring_each hentry (referring_each hparameters hwhole.version)

end

/-! ### Failures -/

section
variable {job : Job} {target listed : Crd.Schema} {references : List Config.Reference}

/-- References that are listed have something to refer to. -/
theorem target_of_withReferences (h : withReferences target references = (listed, none)) :
    ∀ reference ∈ references, reference.target.properties ≠ [] := by
  induction references generalizing target with
  | nil => simp
  | cons reference rest ih =>
    rw [withReferences] at h
    split at h
    · cases h
    · next hp =>
      refine List.forall_mem_cons.mpr ⟨?_, ih h⟩
      rw [hp]
      exact List.cons_ne_nil _ _

/-- Where references were added, all of them have something to refer to. -/
theorem targets_of_addReferences {draft after : Draft} (h : addReferences job draft = (.ok (), after)) :
    ∀ reference ∈ job.mapping.parameters.references ++ job.mapping.entry.references,
      reference.target.properties ≠ [] := by
  rw [addReferences] at h
  dsimp only at h
  split at h
  · next hnone =>
    rw [Bool.and_eq_true, List.isEmpty_iff, List.isEmpty_iff] at hnone
    simp [hnone.1, hnone.2]
  · obtain ⟨version, _, -, h⟩ := bind_ok h
    obtain ⟨_, _, -, h⟩ := bind_ok h
    obtain ⟨_, _, hraise, h⟩ := bind_ok h
    have hparameters := target_of_withReferences (Prod.ext rfl (raise_ok hraise).1)
    refine List.forall_mem_append.mpr ⟨hparameters, ?_⟩
    split at h
    · next hnone => simp [List.isEmpty_iff.mp hnone]
    · cases hentry : (withReferences version job.mapping.parameters.references).1.property? entryPart with
      | none =>
        simp only [hentry] at h
        exact absurd h throw_ok
      | some entry =>
        simp only [hentry] at h
        obtain ⟨_, _, -, h⟩ := bind_ok h
        exact target_of_withReferences (Prod.ext rfl (raise_ok h).1)

theorem annotateReference_triple_of_target {parent : List String} {reference : Config.Reference}
    (h : reference.target.properties ≠ []) :
    Triple (fun _ => True) (annotateReference parent reference) (fun _ _ => True) fun _ => False := by
  rw [annotateReference, if_neg (by simpa using h)]
  exact fun _ _ => trivial

/-- **Where references were added, they can be described.** -/
theorem ExtensionPlugin.run_of_references {draft after : Draft}
    (h : MappingPlugin.references.run job draft = (.ok (), after)) (plugin : ExtensionPlugin)
    (later : Draft) : ∃ last, plugin.run job later = (.ok (), last) := by
  have htargets := List.forall_mem_append.mp (targets_of_addReferences h)
  have hrun : Triple (fun _ => True) (plugin.run job) (fun _ _ => True) fun _ => False := by
    cases plugin with
    | openApiVersion => exact fun _ _ => trivial
    | referenceMetadata =>
      refine .bind (.forIn fun reference hm =>
        annotateReference_triple_of_target (htargets.1 reference hm)) fun _ => ?_
      exact .bind (.forIn fun reference hm => annotateReference_triple_of_target (htargets.2 reference hm))
        fun _ => .pure fun _ hs => hs
  obtain ⟨_, last, hlast, -⟩ := hrun.succeeds trivial
  exact ⟨last, hlast⟩

end

end Pipeline

end CrdForge
