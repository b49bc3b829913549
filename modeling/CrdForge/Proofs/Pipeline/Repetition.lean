import CrdForge.Proofs.Generation.Versions
import CrdForge.Proofs.Pipeline.Listing
import CrdForge.Proofs.Pipeline.VersionChoice

/-! What becomes of a definition when the plugins for a version run once more.

What plugins make of a version does not depend on what is there already, so a second run puts the same
schema at the version (`runAll_alongside`), and what is asked for is made of it in the same way. That
changes nothing as long as the same versions are listed (`withMapping_again`). The one property that
plugins list beside the versions is the connection: if it has the name of a version that is still to
come, then it is taken for that version once it is listed, and a choice with it is demanded that was not
demanded before (`withMapping_connection`). It is listed with the first run, so this is the only one that
changes something when it is repeated (`runAll_again`). -/
namespace CrdForge

/-! ### Lists of quoted names -/

namespace Text

theorem length_intercalate (separator : String) {texts : List String} (h : texts ≠ []) :
    (String.intercalate separator texts).length + separator.length =
      (texts.flatMap fun text => (text ++ separator).toList).length := by
  induction texts with
  | nil => exact absurd rfl h
  | cons text rest ih =>
    cases rest with
    | nil => simp [String.length_toList]
    | cons next rest =>
      have hrest := ih (List.cons_ne_nil next rest)
      rw [String.intercalate_cons_cons, String.length_append, String.length_append, List.flatMap_cons,
        List.length_append, ← hrest, String.length_toList, String.length_append]
      omega

/-- What is written of fewer names is shorter, if something is written of each of them. -/
theorem length_flatMap_filter {f : String → List Char} (hf : ∀ name, f name ≠ []) {p : String → Bool}
    {names : List String} {name : String} (hm : name ∈ names) (hp : p name = false) :
    ((names.filter p).flatMap f).length < (names.flatMap f).length := by
  have hsplit := ((List.filter_append_perm p names).flatMap_right f).length_eq
  rw [List.flatMap_append, List.length_append] at hsplit
  have hleft : name ∈ names.filter fun other => !p other := List.mem_filter.mpr ⟨hm, by rw [hp]; rfl⟩
  have hpos : 0 < ((names.filter fun other => !p other).flatMap f).length :=
    List.length_pos_iff.mpr fun hnil => hf name (List.flatMap_eq_nil_iff.mp hnil name hleft)
  omega

/-- Fewer names are written shorter. -/
theorem length_quotedList_filter {names : List String} {name : String} (hm : name ∈ names)
    (hn : names.filter (· != name) ≠ []) :
    (quotedList (names.filter (· != name))).length < (quotedList names).length := by
  have hfewer := length_flatMap_filter (f := fun text => (quoted text ++ ", ").toList) (p := (· != name))
    (fun text => by simp) hm (bne_self_eq_false name)
  have hall := length_intercalate ", "
    (List.map_eq_nil_iff.not.mpr (List.ne_nil_of_mem hm) : names.map quoted ≠ [])
  have hleft := length_intercalate ", "
    (List.map_eq_nil_iff.not.mpr hn : (names.filter (· != name)).map quoted ≠ [])
  rw [List.flatMap_map] at hall hleft
  rw [quotedList, quotedList]
  omega

end Text

theorem Crd.Rule.exactlyOneOf_filter_ne {names : List String} {name : String} (hm : name ∈ names)
    (hn : names.filter (· != name) ≠ []) :
    Crd.Rule.exactlyOneOf (names.filter (· != name)) ≠ Crd.Rule.exactlyOneOf names := by
  intro h
  have hlength := congrArg (fun rule : Crd.Rule => rule.message.length) h
  have hless := Text.length_quotedList_filter hm hn
  simp only [Crd.Rule.exactlyOneOf, String.length_append] at hlength
  omega

namespace Pipeline

open Generation.Generator (runPlugin Agree runPlugin_agrees)
open Run

/-! ### What is asked for, once more -/

section
variable {resource : Config.Resource} {mapping : Config.Mapping}
  {spec schema version : Crd.Schema} {rule : Crd.Rule}

theorem insert_same (hs : Keyed.Sorted spec.properties) {name : String}
    (h : spec.property? name = some schema) :
    spec.insert name schema = spec := by
  have hsame : Keyed.insert name schema spec.properties = spec.properties := by
    refine (hs.insert name schema).ext hs fun other => ?_
    rw [Keyed.lookup_insert]
    split
    · next he => exact he ▸ h.symm
    · rfl
  rw [Crd.Schema.insert, hsame]
  cases spec
  rfl

theorem addRule_of_mem (h : rule ∈ schema.rules) : schema.addRule rule = schema := by
  rw [Crd.Schema.addRule, List.contains_iff_mem.mpr h, if_pos rfl]

theorem addRules_of_subset {rules : List Crd.Rule} (h : ∀ rule ∈ rules, rule ∈ schema.rules) :
    rules.foldl Crd.Schema.addRule schema = schema := by
  induction rules with
  | nil => rfl
  | cons rule rest ih =>
    rw [List.foldl_cons, addRule_of_mem (h rule (List.mem_cons_self ..))]
    exact ih fun other ho => h other (List.mem_cons_of_mem _ ho)

theorem withConnection_again (h : Keyed.has connectionProperty spec.properties = true) :
    withConnection spec = spec :=
  if_pos h

theorem withConnectionRules_again (mapping : Config.Mapping) (spec : Crd.Schema) :
    withConnectionRules mapping (withConnectionRules mapping spec) = withConnectionRules mapping spec := by
  rw [withConnectionRules, withConnectionRules_properties]
  refine addRules_of_subset fun rule hr => ?_
  rw [withConnectionRules, mem_addRules]
  exact .inr hr

/-- A choice that is demanded stays where it is, if the versions are those from before. -/
theorem withVersionChoice_again {current : String}
    (hm : current ∈ presentVersions resource spec)
    (hc : 2 ≤ (presentVersions resource spec).length →
      .exactlyOneOf (presentVersions resource spec) ∈ spec.rules)
    (hp : 2 ≤ ((presentVersions resource spec).filter (· != current)).length →
      .exactlyOneOf ((presentVersions resource spec).filter (· != current)) ∉ spec.rules) :
    withVersionChoice resource.majorVersions current spec = spec := by
  by_cases hl : (presentVersions resource spec).length < 2
  · exact withVersionChoice_single current hl
  · have hkept : takeBack ((presentVersions resource spec).filter (· != current)) spec = spec := by
      rw [takeBack]
      split
      · rfl
      · next hlong =>
        have hnone := hp (Nat.le_of_not_lt hlong)
        have hall : spec.rules.filter
          (· != .exactlyOneOf ((presentVersions resource spec).filter (· != current))) =
            spec.rules := by
          refine List.filter_eq_self.mpr fun rule hr => bne_iff_ne.mpr ?_
          rintro rfl
          exact hnone hr
        rw [hall]
        cases spec
        rfl
    rw [withVersionChoice_eq current hl, hkept, addRule_of_mem (hc (Nat.le_of_not_lt hl))]

theorem mem_withMapping_rules : rule ∈ (withMapping resource mapping spec version).rules ↔
    rule ∈ (withVersionChoice resource.majorVersions mapping.majorVersion
      (spec.insert mapping.majorVersion version)).rules ∨
    rule ∈ (withConnection (withVersionChoice resource.majorVersions mapping.majorVersion
      (spec.insert mapping.majorVersion version))).properties.flatMap
        (versionRules (identities mapping)) := by
  rw [withMapping, withConnectionRules, mem_addRules, withConnection_rules]

theorem mem_presentVersions {name : String} :
    name ∈ presentVersions resource spec ↔
      name ∈ resource.majorVersions ∧ Keyed.has name spec.properties = true :=
  List.mem_filter

/-- **What a mapping makes of what is asked for stays when it is made once
more**, if the same versions are listed. -/
theorem withMapping_again (hs : Keyed.Sorted spec.properties)
    (hv : mapping.majorVersion ∈ resource.majorVersions)
    (hp : presentVersions resource (withMapping resource mapping spec version) =
      presentVersions resource (spec.insert mapping.majorVersion version)) :
    withMapping resource mapping (withMapping resource mapping spec version) version =
      withMapping resource mapping spec version := by
  have hinsert : (withMapping resource mapping spec version).insert mapping.majorVersion version =
      withMapping resource mapping spec version :=
        insert_same (sorted_withMapping hs) property?_withMapping_self
  have hcurrent : mapping.majorVersion ∈
      presentVersions resource (spec.insert mapping.majorVersion version) := by
    rw [mem_presentVersions, Crd.Schema.insert, Keyed.has_insert, beq_self_eq_true, Bool.true_or]
    exact ⟨hv, rfl⟩
  have hchoice : withVersionChoice resource.majorVersions mapping.majorVersion
      (withMapping resource mapping spec version) = withMapping resource mapping spec version := by
    refine withVersionChoice_again (hp ▸ hcurrent) (fun hl => ?_) (fun hl hr => ?_)
    · rw [hp] at hl ⊢
      exact mem_withMapping_rules.mpr (.inl ((mem_withVersionChoice _ hl).mpr (.inl rfl)))
    · rw [hp] at hl hr
      rcases mem_withMapping_rules.mp hr with hr | hr
      · have htwo := Nat.le_trans hl (List.length_filter_le ..)
        rcases (mem_withVersionChoice _ htwo).mp hr with he | ⟨-, hne⟩
        · refine Crd.Rule.exactlyOneOf_filter_ne hcurrent (fun hn => ?_) he
          rw [hn] at hl
          cases hl
        · exact hne hl rfl
      · obtain ⟨name, field, he⟩ := connectionRule_of_mem hr
        exact connectionRule_ne name field _ he.symm
  have hlisted : Keyed.has connectionProperty (withMapping resource mapping spec version).properties = true :=
    (has_withMapping _).mpr (.inr (.inl rfl))
  rw [withMapping, hinsert, hchoice, withConnection_again hlisted]
  exact withConnectionRules_again mapping _

/-- A connection with the name of another version is taken for that one, so
a choice is demanded that was not. -/
theorem withMapping_connection (hl : spec.properties = []) (hr : spec.rules = [])
    (hd : resource.majorVersions.Nodup) (hv : mapping.majorVersion ∈ resource.majorVersions)
    (hc : connectionProperty ∈ resource.majorVersions) (hn : mapping.majorVersion ≠ connectionProperty)
    {listed : Crd.Schema} (h : listed = withMapping resource mapping spec version) :
    withMapping resource mapping listed version =
      listed.addRule (.exactlyOneOf (presentVersions resource listed)) ∧
    .exactlyOneOf (presentVersions resource listed) ∉ listed.rules := by
  have hs : Keyed.Sorted spec.properties := hl ▸ .nil
  have hinsert : listed.insert mapping.majorVersion version = listed := by
    rw [h]
    exact insert_same (sorted_withMapping hs) property?_withMapping_self
  have hhas (name : String) : Keyed.has name listed.properties = true ↔
      name = mapping.majorVersion ∨ name = connectionProperty := by
    rw [h, has_withMapping, hl]
    simp [Keyed.has]
  have htwo : 2 ≤ (presentVersions resource listed).length :=
    two_le_length (mem_presentVersions.mpr ⟨hv, (hhas _).mpr (.inl rfl)⟩)
      (mem_presentVersions.mpr ⟨hc, (hhas _).mpr (.inr rfl)⟩) hn
  constructor
  · have hpast : ((presentVersions resource listed).filter (· != mapping.majorVersion)).length < 2 := by
      refine length_lt_two ((hd.filter _).filter _) (a := connectionProperty) fun name hm => ?_
      obtain ⟨hm, hne⟩ := List.mem_filter.mp hm
      exact ((hhas name).mp (mem_presentVersions.mp hm).2).resolve_left (bne_iff_ne.mp hne)
    have hconnection : Keyed.has connectionProperty
        (listed.addRule (.exactlyOneOf (presentVersions resource listed))).properties = true := by
      rw [addRule_properties]
      exact (hhas _).mpr (.inr rfl)
    rw [withMapping, hinsert, withVersionChoice_eq _ (Nat.not_lt.mpr htwo), takeBack, if_pos hpast,
      withConnection_again hconnection, withConnectionRules, addRule_properties]
    refine addRules_of_subset fun rule hm => mem_addRule.mpr (.inl ?_)
    rw [h, withMapping, withConnectionRules_properties] at hm
    rw [h]
    exact mem_withMapping_rules.mpr (.inr hm)
  · have hone : (presentVersions resource (spec.insert mapping.majorVersion version)).length < 2 :=
      presentVersions_insert_first hd fun name => by simp [Keyed.has, hl]
    have hnone (versions : List String) : .exactlyOneOf versions ∉ listed.rules := by
      rw [h, mem_withMapping_rules, withVersionChoice_single _ hone]
      rintro (hm | hm)
      · have hm : _ ∈ spec.rules := hm
        rw [hr] at hm
        cases hm
      · obtain ⟨name, field, he⟩ := connectionRule_of_mem hm
        exact connectionRule_ne name field _ he.symm
    exact hnone _

end

/-! ### The same version on other parts -/

/-- Whether two runs put the same at a version, each on parts of its own. -/
structure Alongside (job : Job) (start start' parts parts' : Parts) : Prop where
  spec : ∃ version, parts.spec = start.spec.insert job.majorVersion version ∧
    parts'.spec = start'.spec.insert job.majorVersion version
  status : (parts.status = start.status ∧ parts'.status = start'.status) ∨
    ∃ schema, parts.status = start.status.insert job.majorVersion schema ∧
      parts'.status = start'.status.insert job.majorVersion schema

section
variable {resource : Config.Resource} {job : Job} {start start' parts parts' : Parts}

namespace Alongside

theorem withTree (h : Alongside job start start' parts parts') (tree tree' : Extension.Tree) :
    Alongside job start start' (parts.withTree tree) (parts'.withTree tree') := ⟨h.spec, h.status⟩

theorem version? (h : Alongside job start start' parts parts') :
    ∃ version, parts.version? job = some version ∧ parts'.version? job = some version := by
  obtain ⟨version, hs, hs'⟩ := h.spec
  refine ⟨version, ?_, ?_⟩
  · rw [Parts.version?, hs, property?_insert, if_pos rfl]
  · rw [Parts.version?, hs', property?_insert, if_pos rfl]

theorem withVersion (h : Alongside job start start' parts parts') (version : Crd.Schema) :
    Alongside job start start' (parts.withVersion job version) (parts'.withVersion job version) := by
  obtain ⟨old, hs, hs'⟩ := h.spec
  refine ⟨⟨version, ?_, ?_⟩, h.status⟩
  · simp [Parts.withVersion, hs, Crd.Schema.insert]
  · simp [Parts.withVersion, hs', Crd.Schema.insert]

theorem withStatus (h : Alongside job start start' parts parts') (schema : Crd.Schema) :
    Alongside job start start' { parts with status := parts.status.insert job.majorVersion schema }
      { parts' with status := parts'.status.insert job.majorVersion schema } := by
  refine ⟨h.spec, .inr ⟨schema, ?_⟩⟩
  rcases h.status with ⟨hs, hs'⟩ | ⟨old, hs, hs'⟩
  · rw [hs, hs']
    exact ⟨rfl, rfl⟩
  · rw [hs, hs']
    simp [Crd.Schema.insert]

/-- Nodes differ, but nothing is made of them. -/
theorem lockstep (resource : Config.Resource) (job : Job) (start start' : Parts) :
    Lockstep resource resource job (Alongside job start start') fun _ _ _ _ _ => True where
  listed h := h.version?
  withVersion h := h.withVersion
  withStatus h := h.withStatus
  placed_withVersion _ _ := trivial
  nodeAt h _ _ := by
    rw [nodeAt_draft, nodeAt_draft]
    exact .ok ⟨h.withTree _ _, trivial⟩
  nodeBelow h _ _ := by
    rw [nodeBelow_draft, nodeBelow_draft]
    exact .ok ⟨h.withTree _ _, trivial, trivial⟩
  convert h _ _ _ := by
    rw [convert_draft, convert_draft]
    exact .ok ⟨(Job.conversion_shape rfl).symm.trans (Job.conversion_shape rfl), h.withTree _ _,
      fun _ _ _ _ _ => trivial⟩

end Alongside

theorem addVersion_alongside (job : Job) (start start' : Parts) :
    Meets resource resource (fun _ _ => Alongside job start start')
      (addVersion job (start.draft resource)) (addVersion job (start'.draft resource)) := by
  rw [addVersion, Parts.editPart_spec, Parts.editPart_spec]
  exact .ok ⟨⟨emptyVersion job, rfl, rfl⟩, .inl ⟨rfl, rfl⟩⟩

end

/-! ### Runs of all plugins -/

/-- The draft after all plugins for a version that change the schema, in the
order in which they usually run. -/
def Job.runAll (job : Job) (draft : Draft) : Except StagedFailure Draft :=
  MappingPlugin.all.foldlM
    (fun draft plugin => runPlugin job.resource.kind job.majorVersion plugin.name
      (plugin.run job) draft) draft

/-- A set with all plugins starts with such a run. -/
theorem addMapping_runAll {set : PluginSet} (hset : set.mappingPlugins = MappingPlugin.all) (job : Job)
    (draft : Draft) :
    Generation.Generator.addMapping set job draft =
      (job.runAll draft).bind fun draft => set.extensionPlugins.foldlM
        (fun draft plugin => runPlugin job.resource.kind job.majorVersion plugin.name
          (plugin.run job) draft) draft := by
  rw [Generation.Generator.addMapping, hset]
  rfl

section
variable {resource : Config.Resource} {job : Job} {start start' parts parts' : Parts}

theorem addConnection_draft {version : Crd.Schema} (h : parts.version? job = some version) :
    addConnection job (parts.draft resource) =
      (.ok (),
        { parts with spec := withConnectionRules job.mapping (withConnection parts.spec) }.draft
          resource) := by
  have hversion : ({ parts with spec := withConnection parts.spec } : Parts).version? job = some version :=
    property?_withConnection_some h
  rw [addConnection, bind_eq, Parts.editPart_spec]
  dsimp only
  rw [bind_eq, discard_eq, readVersion_draft, hversion]
  rfl

theorem runPlugin_of_ok {kind majorVersion plugin : String} {build : Build Unit} {draft after : Draft}
    (h : build draft = (.ok (), after)) : runPlugin kind majorVersion plugin build draft = .ok after := by
  rw [runPlugin, h]

theorem ok_bind {ε α β : Type} (a : α) (next : α → Except ε β) : (Except.ok a >>= next) = next a := rfl

/-- The parts after the plugins that do not work on the version alone. -/
def Parts.closed (parts : Parts) (job : Job) : Parts where
  spec := withConnectionRules job.mapping
    (withConnection (withVersionChoice job.resource.majorVersions job.majorVersion parts.spec))
  status := parts.status
  tree := parts.tree
  columns := conditionColumns

theorem closing_draft (h : ∃ version, parts.version? job = some version) :
    [MappingPlugin.versionChoice, .connection, .columns].foldlM
      (fun draft plugin => runPlugin job.resource.kind job.majorVersion plugin.name (plugin.run job) draft)
      (parts.draft resource) = .ok ((parts.closed job).draft resource) := by
  obtain ⟨version, hv⟩ := h
  have hkept : ({ parts with
      spec := withVersionChoice job.resource.majorVersions job.majorVersion parts.spec } :
        Parts).version? job =
        some version := by
    rw [Parts.version?, property?_withVersionChoice]
    exact hv
  have hchoice : MappingPlugin.versionChoice.run job (parts.draft resource) = _ := Parts.editPart_spec ..
  have hconnection : MappingPlugin.connection.run job (Parts.draft resource _) = _ :=
    addConnection_draft hkept
  have hcolumns : ∀ parts : Parts, MappingPlugin.columns.run job (parts.draft resource) = _ :=
    Parts.setColumns_draft resource
  rw [List.foldlM_cons, runPlugin_of_ok hchoice, ok_bind, List.foldlM_cons,
    runPlugin_of_ok hconnection, ok_bind, List.foldlM_cons, runPlugin_of_ok (hcolumns _)]
  rfl

/-- Whether two runs left the same of a version, each on parts of its own. -/
structure Finished (job : Job) (start start' parts parts' : Parts) : Prop where
  spec : ∃ version, parts.spec = withMapping job.resource job.mapping start.spec version ∧
    parts'.spec = withMapping job.resource job.mapping start'.spec version
  status : (parts.status = start.status ∧ parts'.status = start'.status) ∨
    ∃ schema, parts.status = start.status.insert job.majorVersion schema ∧
      parts'.status = start'.status.insert job.majorVersion schema
  columns : parts.columns = conditionColumns ∧ parts'.columns = conditionColumns

theorem Alongside.finished (h : Alongside job start start' parts parts') :
    Finished job start start' (parts.closed job) (parts'.closed job) := by
  obtain ⟨version, hs, hs'⟩ := h.spec
  refine ⟨⟨version, ?_, ?_⟩, h.status, rfl, rfl⟩
  · rw [Parts.closed, hs]
    rfl
  · rw [Parts.closed, hs']
    rfl

/-- **What plugins make of a version does not depend on what is there already.** -/
theorem runAll_alongside (job : Job) (start start' : Parts) :
    Agree job.resource job.resource (Finished job start start')
      (job.runAll (start.draft job.resource)) (job.runAll (start'.draft job.resource)) := by
  rw [Job.runAll, Job.runAll, show MappingPlugin.all = .majorVersion ::
    ([.parameters, .entry, .status, .references, .choices] ++
      [.versionChoice, .connection, .columns]) from rfl,
    List.foldlM_cons, List.foldlM_cons]
  refine (runPlugin_agrees _ _ _ (addVersion_alongside job start start')).bind fun parts parts' h => ?_
  rw [List.foldlM_append, List.foldlM_append]
  refine (Agree.foldlM (S := Alongside job start start') (fun plugin hp _ _ h =>
    runPlugin_agrees _ _ _ ((Alongside.lockstep job.resource job start start').run rfl rfl hp h)) h).bind
      fun parts parts' h => ?_
  obtain ⟨version, hv, hv'⟩ := h.version?
  rw [closing_draft ⟨version, hv⟩, closing_draft ⟨version, hv'⟩]
  exact .ok h.finished

/-! ### What is reached -/

/-- The drafts that runs for mappings lead to, with the mappings in order. -/
inductive Reached (resource : Config.Resource) : List Config.Mapping → Draft → Prop
  | base {draft : Draft} : startOver resource {} = (.ok (), draft) → Reached resource [] draft
  | run {done : List Config.Mapping} {job : Job} {draft after : Draft} : Reached resource done draft →
    job.resource = resource → job.mapping ∈ resource.mappings → job.runAll draft = .ok after →
    Reached resource (done ++ [job.mapping]) after

/-- Parts that runs lead to: the connection is listed with the first one. -/
structure Steady (resource : Config.Resource) (done : List Config.Mapping) (parts : Parts) : Prop where
  sorted : Keyed.Sorted parts.spec.properties
  base : done = [] → parts = Parts.start resource
  connection : done ≠ [] → Keyed.has connectionProperty parts.spec.properties = true

theorem runAll_ok {first : Draft} (h : job.runAll (start.draft job.resource) = .ok first) :
    ∃ parts : Parts, first = parts.draft job.resource ∧
      ∃ version, parts.spec = withMapping job.resource job.mapping start.spec version := by
  have hagree := runAll_alongside job start start
  rw [h] at hagree
  obtain ⟨parts, _, hdraft, -, hfinished⟩ := hagree.of_ok
  obtain ⟨version, hs, -⟩ := hfinished.spec
  exact ⟨parts, hdraft, version, hs⟩

theorem Reached.steady {done : List Config.Mapping} {draft : Draft} (h : Reached resource done draft) :
    ∃ parts, draft = parts.draft resource ∧ Steady resource done parts := by
  induction h with
  | base h =>
    rw [Parts.startOver_start] at h
    obtain ⟨_, rfl⟩ := ok_ok h
    exact ⟨_, rfl, .nil, fun _ => rfl, fun hd => absurd rfl hd⟩
  | @run done job _ _ _ hr _ hrun ih =>
    subst hr
    obtain ⟨parts, rfl, hsteady⟩ := ih
    obtain ⟨after, rfl, version, hs⟩ := runAll_ok hrun
    refine ⟨after, rfl, ?_, fun hd => absurd hd (by simp), fun _ => ?_⟩
    · rw [hs]
      exact sorted_withMapping hsteady.sorted
    · rw [hs]
      exact (has_withMapping _).mpr (.inr (.inl rfl))

/-! ### Once more -/

theorem Finished.definition_eq_iff {first second : Parts} (h : Finished job parts first first second) :
    second.definition resource = first.definition resource ↔ second.spec = first.spec := by
  refine Parts.definition_inj.trans ⟨And.left, fun hs => ⟨hs, ?_, h.columns.2.trans h.columns.1.symm⟩⟩
  rcases h.status with ⟨-, hkept⟩ | ⟨schema, hfirst, hsecond⟩
  · exact hkept
  · rw [hsecond, hfirst]
    simp [Crd.Schema.insert]

end

/-- Whether a version is the first one while a version that is still to come
has the name of the connection. -/
def TakesConnection (resource : Config.Resource) (done : List Config.Mapping)
    (mapping : Config.Mapping) : Prop :=
  done = [] ∧ connectionProperty ∈ resource.majorVersions ∧ mapping.majorVersion ≠ connectionProperty

/-- **A run for a version can be repeated, and changes nothing then**,
unless it was the first run and another version has the name of the
connection: then a choice is demanded, as if that version was there. -/
theorem runAll_again {resource : Config.Resource} (hd : resource.majorVersions.Nodup)
    {done : List Config.Mapping} {draft first : Draft} (hreached : Reached resource done draft)
    {job : Job} (hr : job.resource = resource) (hm : job.mapping ∈ resource.mappings)
    (hrun : job.runAll draft = .ok first) :
    ∃ spec second, first.definition.part? specPart = some spec ∧ job.runAll first = .ok second ∧
      (second.definition = first.definition ↔ ¬ TakesConnection resource done job.mapping) ∧
      (TakesConnection resource done job.mapping → second.definition.part? specPart =
        some (spec.addRule (.exactlyOneOf (presentVersions resource spec)))) := by
  subst hr
  obtain ⟨start, rfl, hsteady⟩ := hreached.steady
  obtain ⟨parts, rfl, -⟩ := runAll_ok hrun
  have hagree := runAll_alongside job start parts
  rw [hrun] at hagree
  obtain ⟨_, second, hdraft, hsecond, hfinished⟩ := hagree.of_ok
  obtain rfl := Parts.draft_injective hdraft
  obtain ⟨version, hs, hs'⟩ := hfinished.spec
  have hv : job.mapping.majorVersion ∈ job.resource.majorVersions := List.mem_map_of_mem hm
  have hchanged : TakesConnection job.resource done job.mapping →
      second.spec = parts.spec.addRule (.exactlyOneOf (presentVersions job.resource parts.spec)) ∧
        .exactlyOneOf (presentVersions job.resource parts.spec) ∉ parts.spec.rules := by
    rintro ⟨rfl, hc, hn⟩
    rw [hsteady.base rfl] at hs
    rw [hs']
    exact withMapping_connection rfl rfl hd hv hc hn hs
  refine ⟨parts.spec, _, rfl, hsecond, hfinished.definition_eq_iff.trans ⟨?_, ?_⟩, fun htakes => ?_⟩
  · intro hsame htakes
    obtain ⟨hadded, hnew⟩ := hchanged htakes
    have hin : .exactlyOneOf (presentVersions job.resource parts.spec) ∈ second.spec.rules := by
      rw [hadded]
      exact mem_addRule.mpr (.inr rfl)
    exact hnew (hsame ▸ hin)
  · intro hkept
    rw [hs', hs]
    refine withMapping_again hsteady.sorted hv (presentVersions_withMapping fun hc hn => ?_)
    exact hsteady.connection fun hdone => hkept ⟨hdone, hc, hn⟩
  · rw [← (hchanged htakes).1]
    rfl

/-! #### A version with the name of the connection -/

def connectionVersion : Config.Resource :=
  { threeVersions with mappings := [bareMapping "v1", bareMapping connectionProperty] }

def connectionVersionJob (mapping : Config.Mapping) : Job := ⟨connectionVersion, mapping, {}, []⟩

/-- The first version demands a choice once it is added again, the second
one does not change anything then. -/
theorem connection_version_taken : ∃ draft first second third fourth, Reached connectionVersion [] draft ∧
    (connectionVersionJob (bareMapping "v1")).runAll draft = .ok first ∧
    (connectionVersionJob (bareMapping "v1")).runAll first = .ok second ∧
      second.definition ≠ first.definition ∧
    (connectionVersionJob (bareMapping connectionProperty)).runAll first = .ok third ∧
    (connectionVersionJob (bareMapping connectionProperty)).runAll third = .ok fourth ∧
    fourth.definition = third.definition := by
  have hd : connectionVersion.majorVersions.Nodup := by decide
  have hv : bareMapping "v1" ∈ connectionVersion.mappings := List.mem_cons_self ..
  have hc : bareMapping connectionProperty ∈ connectionVersion.mappings :=
    List.mem_cons_of_mem _ (List.mem_cons_self ..)
  have hbase : Reached connectionVersion [] _ := .base (Parts.startOver_start connectionVersion)
  have hruns : (((connectionVersionJob (bareMapping "v1")).runAll
      ((Parts.start connectionVersion).draft connectionVersion)).bind
        (connectionVersionJob (bareMapping connectionProperty)).runAll).isOk = true := by decide +kernel
  cases hfirst : (connectionVersionJob (bareMapping "v1")).runAll
    ((Parts.start connectionVersion).draft connectionVersion) with
  | error failure =>
    rw [hfirst] at hruns
    cases hruns
  | ok first =>
    rw [hfirst] at hruns
    cases hthird : (connectionVersionJob (bareMapping connectionProperty)).runAll first with
    | error failure =>
      rw [Except.bind, hthird] at hruns
      cases hruns
    | ok third =>
      obtain ⟨-, second, -, hsecond, hchanged, -⟩ := runAll_again hd hbase rfl hv hfirst
      obtain ⟨-, fourth, -, hfourth, hkept, -⟩ := runAll_again hd (hbase.run rfl hv hfirst) rfl hc hthird
      refine ⟨_, first, second, third, fourth, hbase, hfirst, hsecond, fun hsame => ?_, hthird,
        hfourth, hkept.mpr ?_⟩
      · exact hchanged.mp hsame ⟨rfl, by decide, by decide⟩
      · rintro ⟨hdone, -⟩
        cases hdone

end Pipeline

end CrdForge
