import CrdForge.Proofs.Generation.Runs

/-! Which rules there are on what is asked for.

Each mapping lists its version, demands a choice between the versions that are
listed, lists the connection and adds the rules for its identities in all
versions that are listed by then. What a run over mappings leaves is `Ruled`: the
last choice, and a connection rule for each identity that a mapping guards. -/
namespace CrdForge.Pipeline

open Generation.Generator (MappingStep)
open Run

/-! ### Adding rules -/

theorem mem_addRule {schema : Crd.Schema} {rule other : Crd.Rule} :
    other ∈ (schema.addRule rule).rules ↔ other ∈ schema.rules ∨ other = rule := by
  rw [Crd.Schema.addRule]
  split
  · next h =>
    refine ⟨.inl, ?_⟩
    rintro (h' | rfl)
    · exact h'
    · simpa using h
  · simp

theorem addRule_properties (schema : Crd.Schema) (rule : Crd.Rule) :
    (schema.addRule rule).properties = schema.properties := by
  rw [Crd.Schema.addRule]
  split <;> rfl

theorem mem_addRules {rules : List Crd.Rule} {schema : Crd.Schema} {other : Crd.Rule} :
    other ∈ (rules.foldl Crd.Schema.addRule schema).rules ↔ other ∈ schema.rules ∨ other ∈ rules := by
  induction rules generalizing schema with
  | nil => simp
  | cons rule rest ih => rw [List.foldl_cons, ih, mem_addRule, List.mem_cons, or_assoc]

theorem addRules_properties (rules : List Crd.Rule) (schema : Crd.Schema) :
    (rules.foldl Crd.Schema.addRule schema).properties = schema.properties := by
  induction rules generalizing schema with
  | nil => rfl
  | cons rule rest ih => rw [List.foldl_cons, ih, addRule_properties]

/-! ### Steps on what is asked for -/

/-- What is asked for stays, but for the version that plugins work on. -/
def AsksFor (job : Job) (parts after : Parts) : Prop :=
  after.spec = parts.spec ∨ ∃ version, after.spec = parts.spec.insert job.majorVersion version

section
variable {job : Job} {parts middle after : Parts}

theorem AsksFor.trans (h : AsksFor job parts middle) (h' : AsksFor job middle after) :
    AsksFor job parts after := by
  rcases h with h | ⟨version, h⟩ <;> rcases h' with h' | ⟨version', h'⟩
  · exact .inl (h'.trans h)
  · exact .inr ⟨version', h ▸ h'⟩
  · exact .inr ⟨version, h'.trans h⟩
  · refine .inr ⟨version', ?_⟩
    rw [h', h]
    simp [Crd.Schema.insert]

theorem AsksFor.each {α : Type} {step : α → Parts → Parts → Prop} {xs : List α} (h : Each step xs parts after)
    (hstep : ∀ x ∈ xs, ∀ s s', step x s s' → AsksFor job s s') : AsksFor job parts after :=
  h.preserves (fun x hx s s' hs hx' => hs.trans (hstep x hx s s' hx')) (.inl rfl)

theorem ParameterStep.asksFor {node : Extension.NodeId} {parameter : OpenApi.Parameter}
    (h : ParameterStep job node parameter parts after) : AsksFor job parts after := by
  cases h with
  | passed _ => exact .inl rfl
  | left _ _ => exact .inl rfl
  | listed _ _ _ => exact .inr ⟨_, rfl⟩

/-- Plugins other than the last ones list the version and nothing else. -/
theorem PluginStep.asksFor {plugin : MappingPlugin} (h : PluginStep job plugin parts after)
    (hchoice : plugin ≠ .versionChoice) (hconnection : plugin ≠ .connection) : AsksFor job parts after := by
  cases h with
  | majorVersion => exact .inr ⟨_, rfl⟩
  | parameters h =>
    cases h with
    | unset _ => exact .inl rfl
    | set _ _ he =>
      have hw : AsksFor job parts (parts.withTree (versionNode job parts).2) := .inl rfl
      exact hw.trans (.each he fun _ _ _ _ => ParameterStep.asksFor)
  | entry h =>
    cases h with
    | unset _ => exact .inl rfl
    | listed _ _ _ _ => exact .inr ⟨_, rfl⟩
  | status h =>
    cases h with
    | unset _ => exact .inl rfl
    | left _ _ => exact .inl rfl
    | listed _ _ _ => exact .inl rfl
  | references h =>
    cases h with
    | unset _ _ => exact .inl rfl
    | version _ _ _ => exact .inr ⟨_, rfl⟩
    | entry _ _ _ _ _ => exact .inr ⟨_, rfl⟩
  | choices _ => exact .inr ⟨_, rfl⟩
  | versionChoice => exact absurd rfl hchoice
  | connection => exact absurd rfl hconnection
  | columns => exact .inl rfl

theorem ReferenceStep.spec {parent : List String} {reference : Config.Reference}
    (h : ReferenceStep parent reference parts after) : after.spec = parts.spec := by
  cases h
  rfl

theorem ExtensionStep.spec {plugin : ExtensionPlugin} (h : ExtensionStep job plugin parts after) :
    after.spec = parts.spec := by
  cases h with
  | openApiVersion => rfl
  | referenceMetadata hm hs =>
    have hmiddle := hm.preserves (P := fun s => s.spec = parts.spec) (fun _ _ _ _ hs h => h.spec.trans hs) rfl
    exact hs.preserves (P := fun s => s.spec = parts.spec) (fun _ _ _ _ hs h => h.spec.trans hs) hmiddle

theorem extensions_spec {plugins : List ExtensionPlugin} (h : Each (ExtensionStep job) plugins parts after) :
    after.spec = parts.spec :=
  h.preserves (P := fun s => s.spec = parts.spec) (fun _ _ _ _ hs h => h.spec.trans hs) rfl

/-- What is asked for after a mapping, given the schema of its version. -/
def withMapping (resource : Config.Resource) (mapping : Config.Mapping)
    (spec version : Crd.Schema) : Crd.Schema :=
  withConnectionRules mapping (withConnection
    (withVersionChoice resource.majorVersions mapping.majorVersion
      (spec.insert mapping.majorVersion version)))

theorem spec_withMapping {set : PluginSet} (hset : set.mappingPlugins = MappingPlugin.all)
    (h : MappingStep set job parts after) :
    ∃ version, after.spec = withMapping job.resource job.mapping parts.spec version := by
  obtain ⟨whole, hm, he⟩ := h
  have hkeep : after.spec = whole.spec :=
    he.preserves (fun plugin _ s s' hs h => (ExtensionStep.spec h).trans hs) rfl
  rw [hset] at hm
  obtain ⟨listed, hlisted, hrest⟩ := Each.append (show Each (PluginStep job)
    ([.majorVersion, .parameters, .entry, .status, .references, .choices] ++
      [.versionChoice, .connection, .columns]) parts whole from hm)
  rcases hlisted with _ | ⟨hfirst, hmore⟩
  cases hfirst
  have hasks : AsksFor job (parts.withVersion job (emptyVersion job)) listed :=
    .each hmore fun plugin hp s s' h => by
      refine h.asksFor ?_ ?_ <;> rintro rfl <;> simp at hp
  rcases hrest with _ | ⟨hchoice, _ | ⟨hconnection, _ | ⟨hcolumns, hnil⟩⟩⟩
  cases hchoice
  cases hconnection
  cases hcolumns
  cases hnil
  rw [hkeep]
  rcases hasks with hl | ⟨version, hl⟩
  · exact ⟨emptyVersion job, by rw [hl]; rfl⟩
  · refine ⟨version, ?_⟩
    rw [hl]
    simp [Parts.withVersion, Crd.Schema.insert, withMapping, Job.majorVersion]

end

/-! ### Rules of a mapping -/

/-- The configured versions that are listed. -/
def presentVersions (resource : Config.Resource) (spec : Crd.Schema) : List String :=
  resource.majorVersions.filter fun version => Keyed.has version spec.properties

section
variable {resource : Config.Resource} {mapping : Config.Mapping} {spec schema : Crd.Schema} {rule : Crd.Rule}
  {name : String}

/-- A property that is no version, or a version that is listed already, adds nothing to the versions. -/
theorem presentVersions_insert_of_has
    (h : name ∈ resource.majorVersions → Keyed.has name spec.properties = true) :
    presentVersions resource (spec.insert name schema) = presentVersions resource spec := by
  refine List.filter_congr fun version hm => ?_
  rw [Crd.Schema.insert, Keyed.has_insert]
  by_cases he : version = name
  · rw [he, h (he ▸ hm), Bool.or_true]
  · rw [beq_eq_false_iff_ne.mpr he, Bool.false_or]

/-- Without a version that is new those remain that were listed before. -/
theorem presentVersions_insert_filter (h : Keyed.has name spec.properties = false) :
    (presentVersions resource (spec.insert name schema)).filter (· != name) =
      presentVersions resource spec := by
  rw [presentVersions, presentVersions, List.filter_filter]
  refine List.filter_congr fun version _ => ?_
  rw [Crd.Schema.insert, Keyed.has_insert]
  by_cases he : version = name
  · rw [he, h, bne_self_eq_false, Bool.false_and]
  · rw [bne_iff_ne.mpr he, beq_eq_false_iff_ne.mpr he, Bool.false_or, Bool.true_and]

theorem withVersionChoice_properties (configured : List String) (current : String) (spec : Crd.Schema) :
    (withVersionChoice configured current spec).properties = spec.properties := by
  rw [withVersionChoice]
  split
  · rfl
  · rw [addRule_properties]
    split <;> rfl

theorem mem_withVersionChoice (current : String) (h : 2 ≤ (presentVersions resource spec).length) :
    rule ∈ (withVersionChoice resource.majorVersions current spec).rules ↔
      rule = .exactlyOneOf (presentVersions resource spec) ∨ rule ∈ spec.rules ∧
        (2 ≤ ((presentVersions resource spec).filter (· != current)).length →
          rule ≠ .exactlyOneOf ((presentVersions resource spec).filter (· != current))) := by
  have hl : ¬ (presentVersions resource spec).length < 2 := by omega
  rw [presentVersions] at h hl ⊢
  rw [withVersionChoice, if_neg hl, mem_addRule, or_comm]
  refine or_congr Iff.rfl ?_
  split
  · next hp => exact ⟨fun hr => ⟨hr, fun hq => absurd hq (by omega)⟩, And.left⟩
  · next hp =>
    simp only [List.mem_filter, bne_iff_ne]
    exact and_congr_right fun _ => ⟨fun hr _ => hr, fun hr => hr (by omega)⟩

theorem withVersionChoice_single (current : String) (h : (presentVersions resource spec).length < 2) :
    withVersionChoice resource.majorVersions current spec = spec := by
  rw [withVersionChoice]
  exact if_pos h

theorem withConnection_rules (spec : Crd.Schema) : (withConnection spec).rules = spec.rules := by
  rw [withConnection]
  split <;> rfl

theorem has_withConnection (name : String) (spec : Crd.Schema) :
    Keyed.has name (withConnection spec).properties = true ↔
      name = connectionProperty ∨ Keyed.has name spec.properties = true := by
  rw [withConnection]
  split
  · next hc => exact ⟨.inr, fun h => h.elim (fun he => he ▸ hc) id⟩
  · rw [Crd.Schema.insert, Keyed.has_insert, Bool.or_eq_true, beq_iff_eq]

theorem property?_withConnection {name : String} (h : name ≠ connectionProperty) (spec : Crd.Schema) :
    (withConnection spec).property? name = spec.property? name := by
  rw [withConnection]
  split
  · rfl
  · rw [Crd.Schema.property?, Crd.Schema.insert, Keyed.lookup_insert, if_neg h]
    rfl

theorem sorted_withConnection (h : Keyed.Sorted spec.properties) :
    Keyed.Sorted (withConnection spec).properties := by
  rw [withConnection]
  split
  · exact h
  · exact h.insert _ _

theorem withConnectionRules_properties (mapping : Config.Mapping) (spec : Crd.Schema) :
    (withConnectionRules mapping spec).properties = spec.properties := addRules_properties _ _

theorem mem_withConnectionRules (hs : Keyed.Sorted spec.properties) :
    rule ∈ (withConnectionRules mapping spec).rules ↔ rule ∈ spec.rules ∨
      ∃ version field schema, version ≠ connectionProperty ∧ spec.property? version = some schema ∧
        field ∈ identities mapping ∧ Keyed.has field schema.properties = true ∧
        rule = connectionRule version field := by
  rw [withConnectionRules, mem_addRules, List.mem_flatMap]
  refine or_congr Iff.rfl ⟨?_, ?_⟩
  · rintro ⟨⟨version, schema⟩, hm, hr⟩
    rw [versionRules] at hr
    split at hr
    · simp at hr
    · next hc =>
      obtain ⟨field, hf, rfl⟩ := List.mem_map.mp hr
      obtain ⟨hi, hp⟩ := List.mem_filter.mp hf
      exact ⟨version, field, schema, hc, hs.lookup_of_mem hm, hi, hp, rfl⟩
  · rintro ⟨version, field, schema, hc, hl, hi, hp, rfl⟩
    refine ⟨(version, schema), Keyed.mem_of_lookup hl, ?_⟩
    rw [versionRules, if_neg hc]
    exact List.mem_map.mpr ⟨field, List.mem_filter.mpr ⟨hi, hp⟩, rfl⟩

/-- The rules for the identities that versions list are rules for a connection. -/
theorem connectionRule_of_mem {identities : List String} {versions : List (String × Crd.Schema)}
    (h : rule ∈ versions.flatMap (versionRules identities)) :
    ∃ version field, rule = connectionRule version field := by
  obtain ⟨version, -, hr⟩ := List.mem_flatMap.mp h
  rw [versionRules] at hr
  split at hr
  · cases hr
  · obtain ⟨field, -, rfl⟩ := List.mem_map.mp hr
    exact ⟨version.1, field, rfl⟩

/-- A choice of versions says something else than the rule for a connection. -/
theorem connectionRule_ne (version field : String) (names : List String) :
    connectionRule version field ≠ .exactlyOneOf names := by
  intro h
  have hm := congrArg (fun rule : Crd.Rule => rule.message.toList.head?) h
  simp [connectionRule, Crd.Rule.exactlyOneOf, String.toList_append] at hm

end

/-! ### Rules of a run -/

/-- Whether the rule for a connection is there for a field that a version lists: the field is an identity of a
mapping that came with the version or after it. -/
def Guards (done : List Config.Mapping) (spec : Crd.Schema) (version field : String) : Prop :=
  version ≠ connectionProperty ∧
    (∃ schema, spec.property? version = some schema ∧ Keyed.has field schema.properties = true) ∧
    ∃ before mapping after, done = before ++ mapping :: after ∧
      version ∈ (before ++ [mapping]).map (·.majorVersion) ∧ field ∈ identities mapping

/-- What mappings that are done leave of what is asked for. -/
structure Ruled (resource : Config.Resource) (done : List Config.Mapping) (spec : Crd.Schema) : Prop where
  sorted : Keyed.Sorted spec.properties
  listed : ∀ name, Keyed.has name spec.properties = true ↔
    name ∈ done.map (·.majorVersion) ∨ done ≠ [] ∧ name = connectionProperty
  rules : ∀ rule, rule ∈ spec.rules ↔
    (2 ≤ done.length ∧ rule = .exactlyOneOf (presentVersions resource spec)) ∨
      ∃ version field, Guards done spec version field ∧ rule = connectionRule version field

section
variable {resource : Config.Resource} {done : List Config.Mapping} {mapping : Config.Mapping}
  {spec version : Crd.Schema}

theorem Ruled.start (resource : Config.Resource) : Ruled resource [] (Parts.start resource).spec where
  sorted := .nil
  listed name := by simp [Parts.start, specSchema, Crd.Schema.object, Keyed.has]
  rules rule := by
    have hg (version field : String) : ¬ Guards [] (Parts.start resource).spec version field := by
      rintro ⟨_, _, before, mapping, after, hd, _⟩
      simp at hd
    have hn : (Parts.start resource).spec.rules = [] := rfl
    simp [hn, hg]

theorem two_le_length {α : Type} {xs : List α} {a b : α} (ha : a ∈ xs) (hb : b ∈ xs) (hne : a ≠ b) :
    2 ≤ xs.length := by
  rcases xs with _ | ⟨x, _ | ⟨y, rest⟩⟩
  · simp at ha
  · rw [List.mem_singleton] at ha hb
    exact absurd (ha.trans hb.symm) hne
  · simp

theorem length_lt_two {α : Type} {xs : List α} {a : α} (hd : xs.Nodup) (ha : ∀ x ∈ xs, x = a) :
    xs.length < 2 := by
  rcases xs with _ | ⟨x, _ | ⟨y, rest⟩⟩
  · simp
  · simp
  · have hx := ha x (by simp)
    have hy := ha y (by simp)
    simp [hx, hy] at hd

theorem withMapping_properties : (withMapping resource mapping spec version).properties =
    (withConnection (spec.insert mapping.majorVersion version)).properties := by
  rw [withMapping, withConnectionRules_properties, withConnection, withConnection,
    withVersionChoice_properties]
  split <;> simp [Crd.Schema.insert, withVersionChoice_properties]

theorem sorted_withMapping (hs : Keyed.Sorted spec.properties) :
    Keyed.Sorted (withMapping resource mapping spec version).properties := by
  rw [withMapping_properties]
  exact sorted_withConnection (hs.insert _ _)

theorem has_withMapping (name : String) :
    Keyed.has name (withMapping resource mapping spec version).properties = true ↔
      name = mapping.majorVersion ∨ name = connectionProperty ∨ Keyed.has name spec.properties = true := by
  rw [withMapping_properties, has_withConnection, Crd.Schema.insert, Keyed.has_insert,
    Bool.or_eq_true, beq_iff_eq, or_left_comm]

/-- The versions that are listed with a mapping are listed before it but for its own, and but for the
connection if that has the name of one. -/
theorem presentVersions_withMapping (h : connectionProperty ∈ resource.majorVersions →
      mapping.majorVersion ≠ connectionProperty → Keyed.has connectionProperty spec.properties = true) :
    presentVersions resource (withMapping resource mapping spec version) =
      presentVersions resource (spec.insert mapping.majorVersion version) := by
  refine List.filter_congr fun name hm => ?_
  rw [Bool.eq_iff_iff, has_withMapping, Crd.Schema.insert, Keyed.has_insert, Bool.or_eq_true, beq_iff_eq]
  refine ⟨?_, Or.imp_right .inr⟩
  rintro (he | rfl | hn)
  · exact .inl he
  · by_cases hv : mapping.majorVersion = connectionProperty
    · exact .inl hv.symm
    · exact .inr (h hm hv)
  · exact .inr hn

theorem property?_withMapping {name : String} (h : name ≠ connectionProperty) :
    (withMapping resource mapping spec version).property? name =
      if name = mapping.majorVersion then some version else spec.property? name := by
  rw [Crd.Schema.property?, withMapping_properties]
  show (withConnection _).property? name = _
  rw [property?_withConnection h, Crd.Schema.property?, Crd.Schema.insert, Keyed.lookup_insert]
  rfl

theorem mem_names_of_append {before after : List Config.Mapping} {other : Config.Mapping} {name : String}
    (h : name ∈ (before ++ [other]).map (·.majorVersion)) :
    name ∈ (before ++ other :: after).map (·.majorVersion) := by
  rw [show before ++ other :: after = (before ++ [other]) ++ after by simp, List.map_append]
  exact List.mem_append_left _ h

/-- A mapping with a new version guards its identities in all versions, and leaves what was guarded. -/
theorem guards_append (hnew : mapping.majorVersion ∉ done.map (·.majorVersion)) {name field : String} :
    Guards (done ++ [mapping]) (withMapping resource mapping spec version) name field ↔
      Guards done spec name field ∨ name ≠ connectionProperty ∧
        name ∈ (done ++ [mapping]).map (·.majorVersion) ∧ field ∈ identities mapping ∧
        ∃ schema, (withMapping resource mapping spec version).property? name = some schema ∧
          Keyed.has field schema.properties = true := by
  constructor
  · rintro ⟨hc, hl, before, other, after, hd, hm, hi⟩
    rcases List.eq_nil_or_concat after with rfl | ⟨after, last, rfl⟩
    · obtain ⟨rfl, he⟩ := List.append_inj' hd rfl
      cases he
      exact .inr ⟨hc, hm, hi, hl⟩
    · left
      have hd' : done ++ [mapping] = (before ++ other :: after) ++ [last] := by simpa using hd
      obtain ⟨rfl, -⟩ := List.append_inj' hd' rfl
      have hne : name ≠ mapping.majorVersion := by
        rintro rfl
        exact hnew (mem_names_of_append hm)
      rw [property?_withMapping hc, if_neg hne] at hl
      exact ⟨hc, hl, before, other, after, rfl, hm, hi⟩
  · rintro (⟨hc, hl, before, other, after, rfl, hm, hi⟩ | ⟨hc, hm, hi, hl⟩)
    · have hne : name ≠ mapping.majorVersion := by
        rintro rfl
        exact hnew (mem_names_of_append hm)
      refine ⟨hc, ?_, before, other, after ++ [mapping], by simp, hm, hi⟩
      rw [property?_withMapping hc, if_neg hne]
      exact hl
    · exact ⟨hc, hl, done, mapping, [], rfl, hm, hi⟩

theorem has_insert_version (name : String) :
    Keyed.has name (spec.insert mapping.majorVersion version).properties = true ↔
      name = mapping.majorVersion ∨ Keyed.has name spec.properties = true := by
  rw [Crd.Schema.insert, Keyed.has_insert, Bool.or_eq_true, beq_iff_eq]

theorem nodup_append_new (h : ((done ++ [mapping]).map (·.majorVersion)).Nodup) :
    (done.map (·.majorVersion)).Nodup ∧ mapping.majorVersion ∉ done.map (·.majorVersion) := by
  rw [List.map_append, List.nodup_append] at h
  exact ⟨h.1, fun hm => h.2.2 _ hm _ (by simp) rfl⟩

/-- Two mappings that are done have two versions that are listed. -/
theorem two_le_presentVersions (hdone : (done.map (·.majorVersion)).Nodup)
    (hmem : ∀ other ∈ done, other.majorVersion ∈ resource.majorVersions)
    (hlisted : ∀ name ∈ done.map (·.majorVersion), Keyed.has name spec.properties = true)
    (h : 2 ≤ done.length) :
    2 ≤ (presentVersions resource spec).length := by
  rcases done with _ | ⟨first, _ | ⟨second, rest⟩⟩
  · simp at h
  · simp at h
  · have hpresent (other : Config.Mapping) (ho : other ∈ first :: second :: rest) :
        other.majorVersion ∈ presentVersions resource spec :=
      List.mem_filter.mpr ⟨hmem other ho, hlisted _ (List.mem_map_of_mem ho)⟩
    refine two_le_length (hpresent first (by simp)) (hpresent second (by simp)) fun he => ?_
    simp [he] at hdone

theorem Ruled.two_le_presentVersions_insert (h : Ruled resource done spec) (hdone : done ≠ [])
    (hnew : ((done ++ [mapping]).map (·.majorVersion)).Nodup)
    (hmem : ∀ other ∈ done ++ [mapping], other.majorVersion ∈ resource.majorVersions) :
    2 ≤ (presentVersions resource (spec.insert mapping.majorVersion version)).length := by
  refine two_le_presentVersions hnew hmem (fun name hm => ?_) ?_
  · rw [has_insert_version]
    rw [List.map_append, List.mem_append] at hm
    rcases hm with hm | hm
    · exact .inr ((h.listed name).mpr (.inl hm))
    · exact .inl (by simpa using hm)
  · have := List.length_pos_iff.mpr hdone
    rw [List.length_append, List.length_singleton]
    omega

/-- The first version is the only one that is listed. -/
theorem presentVersions_insert_first (hd : resource.majorVersions.Nodup)
    (hn : ∀ name, ¬ Keyed.has name spec.properties = true) :
    (presentVersions resource (spec.insert mapping.majorVersion version)).length < 2 := by
  refine length_lt_two (hd.filter _) (a := mapping.majorVersion) fun name hm => ?_
  exact ((has_insert_version name).mp (List.mem_filter.mp hm).2).resolve_right (hn name)

/-- The choice between versions after a mapping is between all that are
listed, and there is no other choice. -/
theorem mem_choice (h : Ruled resource done spec) (hd : resource.majorVersions.Nodup)
    (hnew : ((done ++ [mapping]).map (·.majorVersion)).Nodup)
    (hmem : ∀ other ∈ done ++ [mapping], other.majorVersion ∈ resource.majorVersions) {rule : Crd.Rule} :
    rule ∈ (withVersionChoice resource.majorVersions mapping.majorVersion
        (spec.insert mapping.majorVersion version)).rules ↔
      (done ≠ [] ∧ rule = .exactlyOneOf
        (presentVersions resource (withMapping resource mapping spec version))) ∨
        ∃ name field, Guards done spec name field ∧ rule = connectionRule name field := by
  have hrules : rule ∈ (spec.insert mapping.majorVersion version).rules ↔ rule ∈ spec.rules := Iff.rfl
  by_cases hdone : done = []
  · subst hdone
    have hnone (name : String) : ¬ Keyed.has name spec.properties = true := by simp [h.listed]
    rw [withVersionChoice_single _ (presentVersions_insert_first hd hnone), hrules, h.rules]
    simp
  · -- The connection is listed since the first mapping, so nothing but the version comes to the ones present.
    rw [mem_withVersionChoice _ (h.two_le_presentVersions_insert hdone hnew hmem),
      presentVersions_withMapping fun _ _ => (h.listed _).mpr (.inr ⟨hdone, rfl⟩), hrules, h.rules]
    constructor
    · rintro (rfl | ⟨⟨hl, rfl⟩ | hg, hprevious⟩)
      · exact .inl ⟨hdone, rfl⟩
      · by_cases hv : Keyed.has mapping.majorVersion spec.properties = true
        · exact .inl ⟨hdone, by rw [presentVersions_insert_of_has fun _ => hv]⟩
        · -- The choice that was there is the one between the previous ones, which is taken back.
          rw [presentVersions_insert_filter (Bool.eq_false_iff.mpr hv)] at hprevious
          have hlen : 2 ≤ (presentVersions resource spec).length :=
            two_le_presentVersions (nodup_append_new hnew).1
              (fun other ho => hmem other (List.mem_append_left _ ho))
              (fun name hm => (h.listed name).mpr (.inl hm)) hl
          exact absurd rfl (hprevious hlen)
      · exact .inr hg
    · rintro (⟨-, rfl⟩ | ⟨name, field, hg, rfl⟩)
      · exact .inl rfl
      · exact .inr ⟨.inr ⟨name, field, hg, rfl⟩, fun _ => connectionRule_ne _ _ _⟩

theorem Ruled.listed_withMapping (h : Ruled resource done spec) (name : String) :
    Keyed.has name (withMapping resource mapping spec version).properties = true ↔
      name ∈ (done ++ [mapping]).map (·.majorVersion) ∨ name = connectionProperty := by
  rw [has_withMapping, h.listed, List.map_append, List.mem_append, List.map_singleton, List.mem_singleton]
  constructor
  · rintro (he | he | he | ⟨-, he⟩)
    · exact .inl (.inr he)
    · exact .inr he
    · exact .inl (.inl he)
    · exact .inr he
  · rintro ((he | he) | he)
    · exact .inr (.inr (.inl he))
    · exact .inl he
    · exact .inr (.inl he)

/-- The rules that a mapping adds for the connection, with those that were there. -/
theorem Ruled.guards_withMapping (h : Ruled resource done spec)
    (hnew : mapping.majorVersion ∉ done.map (·.majorVersion)) {rule : Crd.Rule} :
    (∃ name field, Guards (done ++ [mapping])
      (Pipeline.withMapping resource mapping spec version) name field ∧
        rule = connectionRule name field) ↔
      (∃ name field, Guards done spec name field ∧ rule = connectionRule name field) ∨
        ∃ name field schema, name ≠ connectionProperty ∧
          (Pipeline.withMapping resource mapping spec version).property? name = some schema ∧
          field ∈ identities mapping ∧ Keyed.has field schema.properties = true ∧
          rule = connectionRule name field := by
  simp only [guards_append hnew]
  constructor
  · rintro ⟨name, field, hg | ⟨hc, -, hi, schema, hl, hf⟩, rfl⟩
    · exact .inl ⟨name, field, hg, rfl⟩
    · exact .inr ⟨name, field, schema, hc, hl, hi, hf, rfl⟩
  · rintro (⟨name, field, hg, rfl⟩ | ⟨name, field, schema, hc, hl, hi, hf, rfl⟩)
    · exact ⟨name, field, .inl hg, rfl⟩
    · have hm := (h.listed_withMapping name).mp (Keyed.has_iff.mpr ⟨schema, hl⟩)
      exact ⟨name, field, .inr ⟨hc, hm.resolve_right hc, hi, schema, hl, hf⟩, rfl⟩

theorem Ruled.withMapping (h : Ruled resource done spec) (hd : resource.majorVersions.Nodup)
    (hnew : ((done ++ [mapping]).map (·.majorVersion)).Nodup)
    (hmem : ∀ other ∈ done ++ [mapping], other.majorVersion ∈ resource.majorVersions) (version : Crd.Schema) :
    Ruled resource (done ++ [mapping]) (withMapping resource mapping spec version) where
  sorted := sorted_withMapping h.sorted
  listed name := by
    rw [h.listed_withMapping]
    simp
  rules rule := by
    have hs : Keyed.Sorted (withConnection (withVersionChoice resource.majorVersions mapping.majorVersion
        (spec.insert mapping.majorVersion version))).properties :=
      sorted_withConnection (by rw [withVersionChoice_properties]; exact h.sorted.insert _ _)
    have hproperties (name : String) : (withConnection (withVersionChoice resource.majorVersions
        mapping.majorVersion (spec.insert mapping.majorVersion version))).property? name =
          (Pipeline.withMapping resource mapping spec version).property? name := by
      rw [Pipeline.withMapping, Crd.Schema.property?, Crd.Schema.property?, withConnectionRules_properties]
    have hlen : 2 ≤ (done ++ [mapping]).length ↔ done ≠ [] := by
      rw [List.length_append, List.length_singleton, ← List.length_pos_iff]
      omega
    rw [h.guards_withMapping (nodup_append_new hnew).2, hlen, Pipeline.withMapping,
      mem_withConnectionRules hs, withConnection_rules, mem_choice h hd hnew hmem,
      ← Pipeline.withMapping, or_assoc]
    simp only [hproperties]

end

/-! ### Definitions that were made -/

section
variable {generator : Generation.Generator} {resource : Config.Resource}
  {cache : Generation.Cache} {set : PluginSet}
  {parts : Parts}

/-- **A run over all mappings of a resource leaves the last choice between
its versions and the rules for all guarded identities.** -/
theorem ruled_of_run (hset : set.mappingPlugins = MappingPlugin.all) (hd : resource.majorVersions.Nodup)
    (h : Each (generator.Adds set resource cache) resource.mappings (Parts.start resource) parts) :
    Ruled resource resource.mappings parts.spec := by
  show Ruled resource ([] ++ resource.mappings) parts.spec
  refine h.invariant (fun done parts => Ruled resource done parts.spec) ?_ (.start resource)
  rintro done mapping parts after ⟨rest, hrest⟩ hr ⟨document, -, hm⟩
  rw [List.nil_append] at hrest
  obtain ⟨version, hversion⟩ := spec_withMapping hset hm
  have hmajor : resource.majorVersions = (done ++ [mapping]).map (·.majorVersion) ++
      rest.map (·.majorVersion) := by
    rw [Config.Resource.majorVersions, hrest]
    simp
  rw [hversion]
  refine hr.withMapping hd ?_ (fun other ho => ?_) version
  · rw [hmajor, List.nodup_append] at hd
    exact hd.1
  · rw [hmajor]
    exact List.mem_append_left _ (List.mem_map_of_mem ho)

end

end CrdForge.Pipeline
