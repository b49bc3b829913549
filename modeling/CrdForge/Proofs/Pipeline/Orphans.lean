import CrdForge.Proofs.Pipeline.Sources

/-! What is said of places that a version does not have.

What a version says is the log of its conversions and what is said of the version and its references
(`Founded`). The schemas of what was converted stay where they were listed, unless a reference takes
their place (`Lists`). So whatever is said is said of a place that the version has, or it is an `Orphan`:
it was lost in a conversion, or what it was said of is no more (`leads_or_orphan`). -/
namespace CrdForge.Pipeline

open Conversion (Entry Lost SecretLast replay)
open Extension (Link Notes NodeId Tree)
open Generation.Generator (MappingStep)
open Run

/-! ### References -/

/-- The names under which references are listed. -/
def referenceNames (references : List Config.Reference) : List String := references.map (·.name)

theorem withReference_covers (target : Crd.Schema) (reference : Config.Reference) (targetProperty : String) :
    (withReference target reference targetProperty).Covers [reference.name] target where
  items := rfl
  branches := rfl
  properties name hn := (Keyed.lookup_insert ..).trans (if_neg (by simpa using hn))
  listed name hn := by
    rw [List.mem_singleton.mp hn]
    exact Option.isSome_iff_exists.mpr ⟨_, (Keyed.lookup_insert ..).trans (if_pos rfl)⟩

theorem withReferences_covers {target listed : Crd.Schema} {references : List Config.Reference}
    (h : withReferences target references = (listed, none)) :
    listed.Covers (referenceNames references) target := by
  induction references generalizing target with
  | nil =>
    cases h
    exact .refl _
  | cons reference rest ih =>
    rw [withReferences] at h
    split at h
    · cases h
    · refine ((ih h).trans (withReference_covers target reference _)).congr fun name => ?_
      simp [referenceNames, or_comm]

theorem addRule_covers (schema : Crd.Schema) (rule : Crd.Rule) : (schema.addRule rule).Covers [] schema := by
  rw [Crd.Schema.addRule]
  split <;> exact .of_eq rfl rfl rfl

theorem withChoices_covers (target : Crd.Schema) (references : List Config.Reference) :
    (withChoices target references).Covers [] target := by
  rw [withChoices]
  induction references generalizing target with
  | nil => exact .refl target
  | cons reference rest ih =>
    rw [List.foldl_cons]
    split
    · exact (ih _).trans (addRule_covers target _)
    · exact ih target

/-! ### What stays listed -/

/-- Whether plugins left what is said, and what is listed but for references in its place. -/
structure Lists (job : Job) (parts after : Parts) : Prop where
  tree : after.tree = parts.tree
  status : after.at? job .status = parts.at? job .status
  property : ∀ name schema, parts.at? job (.property name) = some schema →
    name ∉ referenceNames job.mapping.parameters.references →
    ∃ listed, after.at? job (.property name) = some listed ∧
      listed.Covers (if name = entryPart then referenceNames job.mapping.entry.references else []) schema
  references : ∀ name ∈ referenceNames job.mapping.parameters.references,
    (after.at? job (.property name)).isSome = true
  entry : ∀ name ∈ referenceNames job.mapping.entry.references,
    ∃ entry, after.at? job (.property entryPart) = some entry ∧ (entry.property? name).isSome = true

/-- Whether plugins left all that is said and listed. -/
structure Stays (job : Job) (parts after : Parts) : Prop where
  tree : after.tree = parts.tree
  status : after.at? job .status = parts.at? job .status
  property : ∀ name schema, parts.at? job (.property name) = some schema →
    ∃ listed, after.at? job (.property name) = some listed ∧ listed.Covers [] schema

section
variable {job : Job} {parts middle after : Parts} {version listed : Crd.Schema}

theorem Lists.stays (h : Lists job parts middle) (h' : Stays job middle after) : Lists job parts after where
  tree := h'.tree.trans h.tree
  status := h'.status.trans h.status
  property name schema hs hn := by
    obtain ⟨between, hb, hc⟩ := h.property name schema hs hn
    obtain ⟨listed, hl, hc'⟩ := h'.property name between hb
    exact ⟨listed, hl, hc'.trans hc⟩
  references name hn := by
    obtain ⟨schema, hs⟩ := Option.isSome_iff_exists.mp (h.references name hn)
    obtain ⟨listed, hl, -⟩ := h'.property name schema hs
    exact Option.isSome_iff_exists.mpr ⟨listed, hl⟩
  entry name hn := by
    obtain ⟨entry, he, hp⟩ := h.entry name hn
    obtain ⟨listed, hl, hc⟩ := h'.property entryPart entry he
    exact ⟨listed, hl, by rwa [Crd.Schema.property?, hc.properties name List.not_mem_nil]⟩

theorem property?_insert (schema : Crd.Schema) (key : String) (property : Crd.Schema) (name : String) :
    (schema.insert key property).property? name = if name = key then some property
      else schema.property? name :=
  Keyed.lookup_insert ..

theorem at?_withVersion (name : String) :
    (parts.withVersion job version).at? job (.property name) = version.property? name := by
  rw [Parts.at?, Parts.version?_withVersion, Option.bind_some]

theorem at?_of_version (h : parts.version? job = some version) (name : String) :
    parts.at? job (.property name) = version.property? name := by
  rw [Parts.at?, h, Option.bind_some]

/-- A change of the version that keeps the places of all that it lists. -/
theorem Stays.withVersion (hv : parts.version? job = some version)
    (h : ∀ name schema, version.property? name = some schema →
      ∃ other, listed.property? name = some other ∧ other.Covers [] schema) :
    Stays job parts (parts.withVersion job listed) where
  tree := rfl
  status := rfl
  property name schema hs := by
    rw [at?_withVersion]
    exact h name schema (at?_of_version hv name ▸ hs)

/-- A change of what is asked for that leaves the version as it is. -/
theorem Stays.withSpec {spec : Crd.Schema}
    (h : ∀ version, parts.version? job = some version → spec.property? job.majorVersion = some version) :
    Stays job parts { parts with spec := spec } where
  tree := rfl
  status := rfl
  property name schema hs := by
    obtain ⟨version, hv, hp⟩ := Option.bind_eq_some_iff.mp hs
    refine ⟨schema, ?_, .refl schema⟩
    have hversion : ({ parts with spec := spec } : Parts).version? job = some version := h version hv
    rw [at?_of_version hversion, hp]

theorem versionWithChoices_property? (mapping : Config.Mapping) (version : Crd.Schema) {name : String}
    {schema : Crd.Schema} (h : version.property? name = some schema) :
    ∃ other, (versionWithChoices mapping version).property? name = some other ∧ other.Covers [] schema := by
  have hsame : (withChoices version mapping.parameters.references).property? name = some schema :=
    ((withChoices_covers version _).properties name List.not_mem_nil).trans h
  rw [versionWithChoices]
  cases he : (withChoices version mapping.parameters.references).property? entryPart with
  | none => exact ⟨schema, hsame, .refl schema⟩
  | some entry =>
    dsimp only
    rw [property?_insert]
    split
    · next hn =>
      subst hn
      obtain rfl := Option.some.inj (he.symm.trans hsame)
      exact ⟨_, rfl, withChoices_covers _ _⟩
    · exact ⟨schema, hsame, .refl schema⟩

/-- The plugins after the references keep all that is listed. -/
theorem PluginStep.stays {plugin : MappingPlugin} (h : PluginStep job plugin parts after)
    (hp : plugin ∈ [MappingPlugin.choices, .versionChoice, .connection, .columns]) :
    Stays job parts after := by
  cases h with
  | choices hv => exact .withVersion hv fun name schema hs => versionWithChoices_property? job.mapping _ hs
  | versionChoice =>
    refine .withSpec fun version hv => ?_
    rw [property?_withVersionChoice]
    exact hv
  | connection =>
    refine .withSpec fun version hv => ?_
    rw [property?_withConnectionRules]
    exact property?_withConnection_some hv
  | columns => exact ⟨rfl, rfl, fun name schema hs => ⟨schema, hs, .refl schema⟩⟩
  | majorVersion => simp at hp
  | parameters => simp at hp
  | entry => simp at hp
  | status => simp at hp
  | references => simp at hp

theorem ReferencesStep.lists (h : ReferencesStep job parts after) : Lists job parts after := by
  cases h with
  | unset hparameters hentry =>
    refine ⟨rfl, rfl, fun name schema hs _ => ⟨schema, hs, ?_⟩, by simp [hparameters, referenceNames],
      by simp [hentry, referenceNames]⟩
    rw [hentry, referenceNames, List.map_nil, ite_self]
    exact .refl schema
  | @version version listed hv hentry hl =>
    have hc := withReferences_covers hl
    refine ⟨rfl, rfl, fun name schema hs hn => ⟨schema, ?_, ?_⟩,
      fun name hn => ?_, by simp [hentry, referenceNames]⟩
    · rw [at?_withVersion, Crd.Schema.property?, hc.properties name hn, ← Crd.Schema.property?,
        ← at?_of_version hv, hs]
    · rw [hentry, referenceNames, List.map_nil, ite_self]
      exact .refl schema
    · rw [at?_withVersion]
      exact hc.listed name hn
  | @entry version listed entry whole hv hne hl he hw =>
    have hc := withReferences_covers hl
    have hwhole := withReferences_covers hw
    refine ⟨rfl, rfl, fun name schema hs hn => ?_, fun name hn => ?_,
      fun name hn => ⟨whole, ?_, hwhole.listed name hn⟩⟩
    · have hlisted : listed.property? name = some schema := by
        rw [Crd.Schema.property?, hc.properties name hn, ← Crd.Schema.property?, ← at?_of_version hv, hs]
      rw [at?_withVersion, property?_insert]
      by_cases hname : name = entryPart
      · subst hname
        obtain rfl := Option.some.inj (he.symm.trans hlisted)
        exact ⟨whole, if_pos rfl, by rwa [if_pos rfl]⟩
      · exact ⟨schema, by rw [if_neg hname, hlisted], by rw [if_neg hname]; exact .refl schema⟩
    · rw [at?_withVersion, property?_insert]
      split
      · rfl
      · exact hc.listed name hn
    · rw [at?_withVersion, property?_insert, if_pos rfl]

end

/-! ### What is said -/

/-- Where plugins say something of what is listed. -/
inductive Job.Annotates (job : Job) : List Link → Prop
  | version : Annotates job (versionPath specPart job.majorVersion)
  | parameter {name : String} : name ∈ referenceNames job.mapping.parameters.references →
    Annotates job (versionPath specPart job.majorVersion ++ [.property name])
  | entry {name : String} : name ∈ referenceNames job.mapping.entry.references →
    Annotates job (versionPath specPart job.majorVersion ++ [.property entryPart, .property name])

/-- Whether nothing is said but of secrets that were noted last, and where plugins annotate. -/
structure Founded (job : Job) (tree : Tree) : Prop where
  sound : tree.Sound
  mappings : (tree.said Tree.root).OnlyMappings
  origin : ∀ links, tree.said Tree.root links ≠ [] →
    SecretLast links (job.record job.sources) ∨ job.Annotates links

section
variable {job : Job} {parts after : Parts} {tree later : Tree}

theorem Entry.apply_onlyMappings (entry : Entry) {notes : Notes} (h : notes.OnlyMappings) :
    (entry.apply notes).OnlyMappings := by
  intro links noted hm
  rw [Conversion.Entry.apply] at hm
  split at hm
  · cases entry with
    | listed => cases hm
    | secret place origin =>
      rw [Conversion.Entry.noted] at hm
      split at hm
      · rcases Keyed.mem_insert hm with rfl | hm
        · exact .inr rfl
        · rcases Keyed.mem_insert hm with rfl | hm
          · exact .inl rfl
          · exact h links noted hm
      · cases hm
  · exact h links noted hm

theorem replay_onlyMappings (entries : List Entry) {notes : Notes} (h : notes.OnlyMappings) :
    (replay entries notes).OnlyMappings := by
  induction entries generalizing notes with
  | nil => exact h
  | cons entry rest ih => exact ih (Entry.apply_onlyMappings entry h)

/-- What is said after the conversions is said of secrets that were noted last. -/
theorem Recorded.founded (h : Recorded job job.sources parts) : Founded job parts.tree where
  sound := h.sound
  mappings := by
    rw [h.said]
    exact replay_onlyMappings _ fun links entry hm => nomatch hm
  origin links hq := by
    obtain ⟨before, hb⟩ := Conversion.said_replay (job.record job.sources) Notes.none links
    rw [h.said, hb] at hq
    cases hl : Conversion.lastAbove links (job.record job.sources) with
    | none => exact absurd (by rw [hl]; rfl) hq
    | some entry =>
      rw [hl] at hq
      cases entry with
      | listed => exact absurd rfl hq
      | secret place origin =>
        by_cases hp : place = links
        · exact .inl ⟨origin, hp ▸ hl⟩
        · exact absurd (if_neg hp) hq

/-- To annotate a version says something of it, and nothing else. -/
theorem annotateVersion_said (job : Job) (hs : parts.tree.Sound) (value : Json) :
    let tree := (versionNode job parts).2.annotate (versionNode job parts).1 Extension.apiMapping value
    tree.Sound ∧ ∀ links, tree.said Tree.root links =
      if links = versionPath specPart job.majorVersion then
        Keyed.insert Extension.apiMapping value (parts.tree.said Tree.root links)
      else parts.tree.said Tree.root links := by
  obtain ⟨he, hnode⟩ := Tree.descend_edits hs [specPart, job.majorVersion]
  have hsaid := he.said
  rw [Notes.replace_beyond] at hsaid
  obtain ⟨hsound, -, hlinks⟩ := Tree.annotate_spec he.sound hnode Extension.apiMapping value
  rw [hsaid] at hlinks
  exact ⟨hsound, hlinks⟩

/-- To annotate a reference says of it where it leads, and nothing else. -/
theorem ReferenceStep.said {names : List String} {reference : Config.Reference}
    (h : ReferenceStep names reference parts after) (hs : parts.tree.Sound) :
    after.tree.Sound ∧ ∀ links, after.tree.said Tree.root links =
      if links = names.map .property ++ [.property reference.name] then
        Keyed.insert Extension.apiMapping (.object [("property", .string reference.property)])
          (Keyed.insert Extension.clusterMapping (targetMapping reference.target)
            (parts.tree.said Tree.root links))
      else parts.tree.said Tree.root links := by
  cases h with
  | @annotated node tree ht =>
    obtain ⟨he, hnode⟩ := Tree.descend_edits hs names
    obtain ⟨hc, hchild, -⟩ := Tree.child_edits he.sound hnode reference.name
    have hsaid := hc.said.trans (Notes.replace_beyond _ _)
    rw [he.said, Notes.replace_beyond] at hsaid
    rw [ht] at hc hchild hsaid
    obtain ⟨hfirst, hx, hcluster⟩ := Tree.annotate_spec hc.sound hchild Extension.clusterMapping
      (targetMapping reference.target)
    obtain ⟨hlast, -, hapi⟩ := Tree.annotate_spec hfirst hx Extension.apiMapping
      (.object [("property", .string reference.property)])
    refine ⟨hlast, fun links => (hapi links).trans ?_⟩
    rw [hcluster, hsaid]
    split <;> rfl

/-- Founded if nothing was said since but mappings where plugins annotate. -/
theorem Founded.annotated (h : Founded job tree) (hs : later.Sound)
    (hl : ∀ links, later.said Tree.root links = tree.said Tree.root links ∨ job.Annotates links ∧
      ∀ entry ∈ later.said Tree.root links, entry ∈ tree.said Tree.root links ∨
        entry.1 = Extension.clusterMapping ∨ entry.1 = Extension.apiMapping) : Founded job later where
  sound := hs
  mappings links entry hm := by
    rcases hl links with he | ⟨-, hnew⟩
    · exact h.mappings links entry (he ▸ hm)
    · exact (hnew entry hm).elim (h.mappings links entry) id
  origin links hq := by
    rcases hl links with he | ⟨ha, -⟩
    · exact h.origin links (he ▸ hq)
    · exact .inr ha

theorem ReferenceStep.founded {names : List String} {reference : Config.Reference}
    (h : ReferenceStep names reference parts after) (hs : Founded job parts.tree)
    (hp : job.Annotates (names.map .property ++ [.property reference.name])) : Founded job after.tree := by
  obtain ⟨hsound, hsaid⟩ := h.said hs.sound
  refine hs.annotated hsound fun links => ?_
  rw [hsaid]
  split
  · next hl =>
    refine .inr ⟨hl ▸ hp, fun entry hm => ?_⟩
    rcases Keyed.mem_insert hm with rfl | hm
    · exact .inr (.inr rfl)
    · rcases Keyed.mem_insert hm with rfl | hm
      · exact .inr (.inl rfl)
      · exact .inl hm
  · exact .inl rfl

theorem ExtensionStep.founded {plugin : ExtensionPlugin} (h : ExtensionStep job plugin parts after)
    (hs : Founded job parts.tree) : Founded job after.tree := by
  cases h with
  | openApiVersion =>
    obtain ⟨hsound, hsaid⟩ := annotateVersion_said job hs.sound (versionOrigin job)
    refine hs.annotated hsound fun links => ?_
    rw [Parts.withTree_tree, hsaid]
    split
    · next hl =>
      refine .inr ⟨hl ▸ .version, fun entry hm => ?_⟩
      rcases Keyed.mem_insert hm with rfl | hm
      · exact .inr (.inr rfl)
      · exact .inl hm
    · exact .inl rfl
  | referenceMetadata hm hrest =>
    have hnames {reference : Config.Reference} {references : List Config.Reference}
      (hr : reference ∈ references) :
        reference.name ∈ referenceNames references := List.mem_map_of_mem hr
    have hmiddle := hm.preserves (P := fun parts => Founded job parts.tree)
      (fun reference hr s s' hs h => h.founded hs (.parameter (hnames hr))) hs
    exact hrest.preserves (P := fun parts => Founded job parts.tree)
      (fun reference hr s s' hs h => h.founded hs (.entry (hnames hr))) hmiddle

theorem ReferenceStep.status {names : List String} {reference : Config.Reference}
    (h : ReferenceStep names reference parts after) : after.status = parts.status := by
  cases h
  rfl

theorem ExtensionStep.status {plugin : ExtensionPlugin} (h : ExtensionStep job plugin parts after) :
    after.status = parts.status := by
  cases h with
  | openApiVersion => rfl
  | referenceMetadata hm hs =>
    have hmiddle := hm.preserves (P := fun s => s.status = parts.status)
      (fun _ _ _ _ hs h => h.status.trans hs) rfl
    exact hs.preserves (P := fun s => s.status = parts.status) (fun _ _ _ _ hs h => h.status.trans hs) hmiddle

theorem extensions_status {plugins : List ExtensionPlugin}
    (h : Each (ExtensionStep job) plugins parts after) :
    after.status = parts.status :=
  h.preserves (P := fun s => s.status = parts.status) (fun _ _ _ _ hs h => h.status.trans hs) rfl

end

/-! ### Whole mappings -/

/-- What is said of a place that a version does not have: it was lost in the conversion of a source, or
what it was said of is no more, since another source or a reference is listed in its place. -/
inductive Orphan (job : Job) : List Link → Prop
  | lost {source : Source} {links : List Link} : source ∈ job.sources →
    Lost (job.setting source.selection) Conversion.maxDepth source.schema [Path.root] links →
    Orphan job (source.spot.links job.majorVersion ++ links)
  | replaced {before after : List Source} {source later : Source} {links : List Link} :
    job.sources = before ++ source :: after → later ∈ after → later.spot = source.spot →
    (job.shape later).isSome = true → links ≠ [] → SecretLast links (job.entries source) →
    Orphan job (source.spot.links job.majorVersion ++ links)
  | referenced {source : Source} {name : String} {links : List Link} : source ∈ job.sources →
    source.spot = .property name → name ∈ referenceNames job.mapping.parameters.references → links ≠ [] →
    SecretLast links (job.entries source) → Orphan job (source.spot.links job.majorVersion ++ links)
  | entry {source : Source} {name : String} {links : List Link} : source ∈ job.sources →
    source.spot = .property entryPart → name ∈ referenceNames job.mapping.entry.references → links ≠ [] →
    SecretLast (.property name :: links) (job.entries source) →
    Orphan job (source.spot.links job.majorVersion ++ .property name :: links)

/-- Only what is converted for a version matters to its orphans. -/
theorem Orphan.on {job : Job} {links : List Link} (h : Orphan job links) (resource : Config.Resource) :
    Orphan (job.on resource) links := by
  cases h with
  | lost hm hl => exact .lost hm hl
  | replaced hs hm hspot hsome hne hl => exact .replaced hs hm hspot hsome hne hl
  | referenced hm hspot hn hne hl => exact .referenced hm hspot hn hne hl
  | entry hm hspot hn hne hl => exact .entry hm hspot hn hne hl

/-- Whether a chain leads to a node of what is listed for a version. -/
def Parts.Leads (parts : Parts) (job : Job) (links : List Link) : Prop :=
  (∃ version rest, links = versionPath specPart job.majorVersion ++ rest ∧ parts.version? job = some version ∧
    version.Leads rest) ∨
  ∃ status rest, links = versionPath statusPart job.majorVersion ++ rest ∧
    parts.at? job .status = some status ∧
    status.Leads rest

section
variable {resource : Config.Resource} {set : PluginSet} {job : Job} {parts middle after : Parts}
  {links : List Link}

theorem leads_at {spot : Spot} {schema : Crd.Schema} (hs : parts.at? job spot = some schema)
    (h : schema.Leads links) :
    parts.Leads job (spot.links job.majorVersion ++ links) := by
  cases spot with
  | status => exact .inr ⟨schema, links, rfl, hs, h⟩
  | property name =>
    obtain ⟨version, hv, hp⟩ := Option.bind_eq_some_iff.mp hs
    exact .inl ⟨version, .property name :: links, List.append_assoc .., hv, .property hp h⟩

theorem Lists.present (h : Lists job parts after) {spot : Spot} (hs : (parts.at? job spot).isSome = true) :
    (after.at? job spot).isSome = true := by
  cases spot with
  | status => rwa [h.status]
  | property name =>
    by_cases hn : name ∈ referenceNames job.mapping.parameters.references
    · exact h.references name hn
    · obtain ⟨schema, hs⟩ := Option.isSome_iff_exists.mp hs
      obtain ⟨listed, hl, -⟩ := h.property name schema hs hn
      exact Option.isSome_iff_exists.mpr ⟨listed, hl⟩

/-- What leads somewhere in what was listed leads there in the end, unless a reference took the place. -/
theorem listed_leads_or_orphan {source : Source} {schema : Crd.Schema} (hl : Lists job middle after)
    (hm : source ∈ job.sources) (hne : links ≠ []) (hsecret : SecretLast links (job.entries source))
    (hs : middle.at? job source.spot = some schema) (h : schema.Leads links) :
    after.Leads job (source.spot.links job.majorVersion ++ links) ∨
      Orphan job (source.spot.links job.majorVersion ++ links) := by
  cases hspot : source.spot with
  | status =>
    rw [hspot] at hs
    exact .inl (leads_at (hl.status.trans hs) h)
  | property name =>
    by_cases hn : name ∈ referenceNames job.mapping.parameters.references
    · exact .inr (hspot ▸ .referenced hm hspot hn hne hsecret)
    · rw [hspot] at hs
      obtain ⟨listed, hat, hc⟩ := hl.property name schema hs hn
      rcases hc.leads h with hleads | ⟨below, hbelow, rest, hrest, rfl⟩
      · exact .inl (leads_at hat hleads)
      · split at hbelow
        · next he => exact .inr (hspot ▸ .entry hm (hspot.trans (by rw [he])) hbelow hrest hsecret)
        · cases hbelow

/-- **What was noted of a source is said of a place that the version has, or is an orphan.** -/
theorem source_leads_or_orphan (hp : job.filters = Conversion.PropertyPlugin.all)
    (hr : Recorded job job.sources middle) (hl : Lists job middle after)
    (h : SecretLast links (job.record job.sources)) : after.Leads job links ∨ Orphan job links := by
  obtain ⟨source, hm, hsaid⟩ := Conversion.secretLast_flatMap h
  obtain ⟨rest, rfl, hsecret⟩ := Conversion.secretLast_under.mp hsaid
  cases hshape : job.shape source with
  | none => exact .inr (.lost hm (.left hshape hsecret))
  | some result =>
    have hplugins : (job.setting source.selection).plugins = Conversion.PropertyPlugin.all := hp
    rcases Conversion.leads_or_lost hplugins _ hshape hsecret with hleads | hlost
    · by_cases hrest : rest = []
      · obtain ⟨schema, hs⟩ :=
          Option.isSome_iff_exists.mp (hl.present (hr.present source hm (by rw [hshape]; rfl)))
        exact .inl (hrest ▸ leads_at hs (Crd.Schema.leads_nil schema))
      · obtain ⟨before, after, hsplit⟩ := List.append_of_mem hm
        by_cases hlast : ∀ other ∈ after, other.spot = source.spot → job.shape other = none
        · obtain ⟨schema, hs, hc⟩ := hr.listed before source after result hsplit hshape hlast
          exact listed_leads_or_orphan hl hm hrest hsecret hs (hc.leads_of_nil hleads)
        · simp only [not_forall] at hlast
          obtain ⟨later, hlater, hspot, hsome⟩ := hlast
          exact .inr (.replaced hsplit hlater hspot (Option.isSome_iff_ne_none.mpr hsome) hrest hsecret)
    · exact .inr (.lost hm hlost)

/-- What plugins annotate is listed. -/
theorem annotated_leads (hl : Lists job middle after) (hv : (after.version? job).isSome = true)
    (h : job.Annotates links) : after.Leads job links := by
  cases h with
  | version =>
    obtain ⟨version, hv⟩ := Option.isSome_iff_exists.mp hv
    exact .inl ⟨version, [], (List.append_nil _).symm, hv, Crd.Schema.leads_nil version⟩
  | @parameter name hn =>
    obtain ⟨schema, hs⟩ := Option.isSome_iff_exists.mp (hl.references name hn)
    have hleads := leads_at hs (Crd.Schema.leads_nil schema)
    rwa [List.append_nil] at hleads
  | @entry name hn =>
    obtain ⟨entry, he, hp⟩ := hl.entry name hn
    obtain ⟨schema, hs⟩ := Option.isSome_iff_exists.mp hp
    have hleads := leads_at he (.property hs (Crd.Schema.leads_nil schema))
    rwa [Spot.links, List.append_assoc] at hleads

/-- The plugins that convert sources leave what was made of them. -/
theorem recorded_of_run
    (h : Each (PluginStep job) [.majorVersion, .parameters, .entry, .status] (Parts.start resource) after) :
    Recorded job job.sources after := by
  rcases h with _ | ⟨hversion, _ | ⟨hparameters, _ | ⟨hentry, _ | ⟨hstatus, hnil⟩⟩⟩⟩
  cases hversion
  cases hparameters with | parameters hparameters =>
  cases hentry with | entry hentry =>
  cases hstatus with | status hstatus =>
  cases hnil
  have hstart : Recorded job [] ((Parts.start resource).withVersion job (emptyVersion job)) :=
    ⟨Tree.empty_sound, Tree.empty_said _, fun _ h => absurd h List.not_mem_nil, fun _ _ _ _ h => by simp at h⟩
  exact hstatus.recorded (hentry.recorded (hparameters.recorded hstart))

/-- The plugins after these leave what is said, and what is listed but for references in its place. -/
theorem lists_of_run
    (h : Each (PluginStep job) [.references, .choices, .versionChoice, .connection, .columns] parts after) :
    Lists job parts after := by
  rcases h with _ | ⟨hreferences, hrest⟩
  cases hreferences with | references hreferences =>
  have hlists := hreferences.lists
  exact hrest.preserves (P := fun s => Lists job parts s)
    (fun plugin hm s s' hs h => hs.stays (h.stays (by simpa using hm))) hlists

/-- The plugins for a mapping convert its sources, list references and what else there is, and annotate. -/
theorem converted_of_mapping (hset : set.mappingPlugins = MappingPlugin.all)
    (h : MappingStep set job (Parts.start resource) after) :
    ∃ middle whole, Recorded job job.sources middle ∧ Lists job middle whole ∧
      Each (ExtensionStep job) set.extensionPlugins whole after := by
  obtain ⟨whole, hm, he⟩ := h
  rw [hset] at hm
  obtain ⟨middle, hconverted, hrest⟩ := Each.append (show Each (PluginStep job)
    ([.majorVersion, .parameters, .entry, .status] ++
      [.references, .choices, .versionChoice, .connection, .columns]) (Parts.start resource) whole from hm)
  exact ⟨middle, whole, recorded_of_run hconverted, lists_of_run hrest, he⟩

/-- **What a version says is said of a place that it has, or is an orphan.** -/
theorem leads_or_orphan (hset : set.mappingPlugins = MappingPlugin.all)
    (hp : job.filters = Conversion.PropertyPlugin.all) (h : MappingStep set job (Parts.start resource) after)
    (hv : (after.version? job).isSome = true) :
    (after.tree.said Tree.root).OnlyMappings ∧
      ∀ links, after.tree.said Tree.root links ≠ [] → after.Leads job links ∨ Orphan job links := by
  obtain ⟨middle, whole, hrecorded, hlists, he⟩ := converted_of_mapping hset h
  have hfounded : Founded job after.tree :=
    he.preserves (P := fun s => Founded job s.tree) (fun _ _ _ _ hs h => h.founded hs)
      (hlists.tree ▸ hrecorded.founded)
  have hspec : after.spec = whole.spec := extensions_spec he
  have hleads {links : List Link} : whole.Leads job links → after.Leads job links := by
    rw [Parts.Leads, Parts.Leads, Parts.version?, Parts.version?, Parts.at?, Parts.at?, hspec,
      extensions_status he]
    exact id
  refine ⟨hfounded.mappings, fun links hq => ?_⟩
  rcases hfounded.origin links hq with hsecret | hannotated
  · exact (source_leads_or_orphan hp hrecorded hlists hsecret).imp hleads id
  · refine .inl (hleads (annotated_leads hlists ?_ hannotated))
    rwa [Parts.version?, ← hspec]

end

end CrdForge.Pipeline
