import CrdForge.Proofs.Pipeline.Calls
import CrdForge.Proofs.Pipeline.Confinement

/-! The choice between the versions of a resource.

When a version is added, the choice that was demanded before is taken back and one between all versions
that are there now is demanded. Which choice was demanded before is not written down but worked out from
what is there without the version, and this is right in whatever order versions are added, and however
often: either the version is new, or the choice that is demanded already has it
(`withVersionChoice_current`). -/
namespace CrdForge.Pipeline

open Run

/-! ### Choices and other rules -/

/-- Whether a rule demands exactly one of some fields. -/
def IsChoice (rule : Crd.Rule) : Prop := ∃ fields, rule = .exactlyOneOf fields

open Classical in
/-- The rules of a schema that demand exactly one of some fields. -/
noncomputable def choices (schema : Crd.Schema) : List Crd.Rule :=
  schema.rules.filter fun rule => IsChoice rule

open Classical in
/-- The other rules of a schema. -/
noncomputable def otherRules (schema : Crd.Schema) : List Crd.Rule :=
  schema.rules.filter fun rule => ¬ IsChoice rule

/-- The choice between some versions, if there is one to make. -/
def choiceRules (versions : List String) : List Crd.Rule :=
  if versions.length < 2 then [] else [.exactlyOneOf versions]

section
variable {resource : Config.Resource} {schema spec middle after : Crd.Schema} {rule : Crd.Rule}

theorem mem_choices : rule ∈ choices schema ↔ rule ∈ schema.rules ∧ IsChoice rule := by
  simp [choices]

theorem addRule_choice (h : IsChoice rule) (hn : rule ∉ choices schema) :
    choices (schema.addRule rule) = choices schema ++ [rule] := by
  have hnew : rule ∉ schema.rules := fun hm => hn (mem_choices.mpr ⟨hm, h⟩)
  rw [Crd.Schema.addRule, if_neg fun hc => hnew (List.contains_iff_mem.mp hc)]
  simp [choices, h]

theorem addRule_same (h : rule ∈ choices schema) : schema.addRule rule = schema := by
  rw [Crd.Schema.addRule, List.contains_iff_mem.mpr (mem_choices.mp h).1]
  rfl

theorem otherRules_addChoice (h : IsChoice rule) : otherRules (schema.addRule rule) = otherRules schema := by
  rw [Crd.Schema.addRule]
  split
  · rfl
  · simp [otherRules, h]

theorem choices_addOther (h : ¬ IsChoice rule) : choices (schema.addRule rule) = choices schema := by
  rw [Crd.Schema.addRule]
  split
  · rfl
  · simp [choices, h]

theorem otherRules_addOther (rule : Crd.Rule) : otherRules schema <+: otherRules (schema.addRule rule) := by
  rw [Crd.Schema.addRule]
  split
  · exact List.prefix_refl _
  · rw [otherRules, otherRules, List.filter_append]
    exact List.prefix_append _ _

/-! ### What asides leave -/

/-- Whether the versions that are there and the choice between them stay,
and other rules are added at the end. -/
structure Leaves (resource : Config.Resource) (spec after : Crd.Schema) : Prop where
  present : presentVersions resource after = presentVersions resource spec
  choices : choices after = choices spec
  others : otherRules spec <+: otherRules after

namespace Leaves

theorem refl (resource : Config.Resource) (spec : Crd.Schema) : Leaves resource spec spec :=
  ⟨rfl, rfl, List.prefix_refl _⟩

theorem trans (h : Leaves resource spec middle) (h' : Leaves resource middle after) :
    Leaves resource spec after :=
  ⟨h'.present.trans h.present, h'.choices.trans h.choices, h.others.trans h'.others⟩

/-- A property that is no version, or a version that is there already. -/
theorem insert {name : String} (h : name ∈ resource.majorVersions → Keyed.has name spec.properties = true) :
    Leaves resource spec (spec.insert name schema) :=
  ⟨presentVersions_insert_of_has h, rfl, List.prefix_refl _⟩

theorem addRule (h : ¬ IsChoice rule) : Leaves resource spec (spec.addRule rule) where
  present := by rw [presentVersions, addRule_properties, presentVersions]
  choices := choices_addOther h
  others := otherRules_addOther rule

theorem withConnection (hc : connectionProperty ∉ resource.majorVersions) :
    Leaves resource spec (withConnection spec) := by
  rw [Pipeline.withConnection]
  split
  · exact .refl resource spec
  · exact insert fun hm => absurd hm hc

theorem withConnectionRules (mapping : Config.Mapping) :
    Leaves resource spec (withConnectionRules mapping spec) := by
  refine List.foldlRecOn _ _ (.refl resource spec) fun _ hs rule hm => hs.trans (addRule ?_)
  obtain ⟨version, field, rfl⟩ := connectionRule_of_mem hm
  exact fun ⟨fields, he⟩ => connectionRule_ne version field fields he

end Leaves

/-! ### The choice of a version -/

/-- What is demanded of versions is the choice between those that are there. -/
def Current (resource : Config.Resource) (spec : Crd.Schema) : Prop :=
  choices spec = choiceRules (presentVersions resource spec)

/-- Without a version that was added there are the versions from before, or it was one of them. -/
theorem presentVersions_insert (resource : Config.Resource) (spec schema : Crd.Schema) (name : String) :
    presentVersions resource spec = presentVersions resource (spec.insert name schema) ∨
      presentVersions resource spec =
        (presentVersions resource (spec.insert name schema)).filter (· != name) := by
  cases hn : Keyed.has name spec.properties with
  | true => exact .inl (presentVersions_insert_of_has fun _ => hn).symm
  | false => exact .inr (presentVersions_insert_filter hn).symm

/-- What is asked for without the choice between some versions. -/
def takeBack (versions : List String) (spec : Crd.Schema) : Crd.Schema :=
  if versions.length < 2 then spec
  else { spec with rules := spec.rules.filter (· != .exactlyOneOf versions) }

theorem withVersionChoice_eq (current : String) (h : ¬ (presentVersions resource spec).length < 2) :
    withVersionChoice resource.majorVersions current spec =
      (takeBack ((presentVersions resource spec).filter (· != current)) spec).addRule
        (.exactlyOneOf (presentVersions resource spec)) := by
  rw [withVersionChoice]
  exact if_neg h

theorem choices_takeBack (versions : List String) (spec : Crd.Schema) :
    choices (takeBack versions spec) = (choices spec).filter fun rule => rule ∉ choiceRules versions := by
  rw [takeBack, choiceRules]
  split
  · simp
  · simp [choices, List.filter_filter, Bool.and_comm, bne, beq_eq_decide]

theorem otherRules_takeBack (versions : List String) (spec : Crd.Schema) :
    otherRules (takeBack versions spec) = otherRules spec := by
  rw [takeBack]
  split
  · rfl
  · rw [otherRules, otherRules, List.filter_filter]
    refine List.filter_congr fun rule _ => ?_
    by_cases hr : rule = .exactlyOneOf versions
    · simp [hr, IsChoice]
    · simp [hr]

/-- **The choice is brought up to date** if it was so before the version was added. -/
theorem withVersionChoice_current {current : String} {before : List String}
    (hb : before = presentVersions resource spec ∨
      before = (presentVersions resource spec).filter (· != current))
    (h : choices spec = choiceRules before) :
    Current resource (withVersionChoice resource.majorVersions current spec) ∧
      otherRules (withVersionChoice resource.majorVersions current spec) = otherRules spec := by
  have hpresent : presentVersions resource (withVersionChoice resource.majorVersions current spec) =
      presentVersions resource spec := by
    rw [presentVersions, withVersionChoice_properties, presentVersions]
  rw [Current, hpresent]
  generalize hp : presentVersions resource spec = present at hb ⊢
  by_cases hl : present.length < 2
  · have hshort : before.length < 2 := by
      rcases hb with rfl | rfl
      · exact hl
      · exact Nat.lt_of_le_of_lt (List.length_filter_le _ _) hl
    rw [withVersionChoice_single current (hp ▸ hl), h, choiceRules, choiceRules, if_pos hl, if_pos hshort]
    exact ⟨rfl, rfl⟩
  · have hchoice : IsChoice (.exactlyOneOf present) := ⟨present, rfl⟩
    rw [withVersionChoice_eq current (hp ▸ hl), hp]
    refine ⟨?_, (otherRules_addChoice hchoice).trans (otherRules_takeBack _ _)⟩
    rw [choiceRules, if_neg hl]
    -- what was demanded before is taken back, unless it is the choice that is demanded now
    have hkept : choices (takeBack (present.filter (· != current)) spec) = [] ∨
        choices (takeBack (present.filter (· != current)) spec) = [.exactlyOneOf present] := by
      rw [choices_takeBack, h]
      rcases hb with rfl | rfl
      · have hone : choiceRules before = [.exactlyOneOf before] := if_neg hl
        rw [hone]
        by_cases hk : Crd.Rule.exactlyOneOf before ∈ choiceRules (before.filter (· != current))
        · exact .inl (by simp [hk])
        · exact .inr (by simp [hk])
      · left
        rw [List.filter_eq_nil_iff]
        intro rule hm
        simpa using hm
    rcases hkept with hnil | hsame
    · rw [addRule_choice hchoice (by simp [hnil]), hnil, List.nil_append]
    · rw [addRule_same (by simp [hsame]), hsame]

end

/-! ### Steps -/

/-- A plugin that runs beside those for the choice of a version. -/
inductive Aside where
  | connection (mapping : Config.Mapping)
  | choices (mapping : Config.Mapping)

/-- A version is added and the choice brought up to date, with some asides
in between, or there is an aside. -/
inductive Turn where
  | version (mapping : Config.Mapping) (within : List Aside)
  | aside (aside : Aside)

section
variable (job : Config.Mapping → Job)

def Aside.call : Aside → Call
  | .connection mapping => .mapping .connection (job mapping)
  | .choices mapping => .mapping .choices (job mapping)

def Turn.calls : Turn → List Call
  | .version mapping within =>
    .mapping .majorVersion (job mapping) :: within.map (Aside.call job) ++
      [.mapping .versionChoice (job mapping)]
  | .aside beside => [beside.call job]

end

section
variable {resource : Config.Resource} {job : Config.Mapping → Job} {parts : Parts}

theorem Draft.after_append (draft : Draft) (calls more : List Call) :
    draft.after (calls ++ more) = (draft.after calls).after more := List.foldl_append

/-- A connection is listed even if the version that it was asked for is not there. -/
theorem addConnection_leaves (hc : connectionProperty ∉ resource.majorVersions) (job : Job) (parts : Parts) :
    ∃ parts' : Parts, (addConnection job (parts.draft resource)).2 = parts'.draft resource ∧
      Leaves resource parts.spec parts'.spec := by
  have hlisted : Leaves resource parts.spec (withConnection parts.spec) := .withConnection hc
  rw [addConnection, bind_eq, Parts.editPart_spec]
  dsimp only
  rw [bind_eq, discard_eq, readVersion_draft]
  cases ({ parts with spec := withConnection parts.spec } : Parts).version? job with
  | none => exact ⟨_, rfl, hlisted⟩
  | some version =>
    exact ⟨{ parts with spec := withConnectionRules job.mapping (withConnection parts.spec) }, rfl,
      hlisted.trans (.withConnectionRules job.mapping)⟩

theorem addChoices_leaves (job : Job) (parts : Parts) :
    ∃ parts' : Parts, (addChoices job (parts.draft resource)).2 = parts'.draft resource ∧
      Leaves resource parts.spec parts'.spec := by
  rw [addChoices, bind_eq, readVersion_draft]
  cases hv : parts.version? job with
  | none => exact ⟨parts, rfl, .refl resource parts.spec⟩
  | some version =>
    exact ⟨parts.withVersion job (versionWithChoices job.mapping version), rfl,
      .insert fun _ => Keyed.has_iff.mpr ⟨version, hv⟩⟩

theorem Aside.leaves (job : Config.Mapping → Job) (hc : connectionProperty ∉ resource.majorVersions)
    (aside : Aside) (parts : Parts) :
    ∃ parts' : Parts, ((aside.call job).build (parts.draft resource)).2 = parts'.draft resource ∧
      Leaves resource parts.spec parts'.spec := by
  cases aside with
  | connection mapping => exact addConnection_leaves hc (job mapping) parts
  | choices mapping => exact addChoices_leaves (job mapping) parts

theorem Aside.leaves_all (job : Config.Mapping → Job) (hc : connectionProperty ∉ resource.majorVersions)
    (asides : List Aside) (parts : Parts) :
    ∃ parts' : Parts, (parts.draft resource).after (asides.map (Aside.call job)) = parts'.draft resource ∧
      Leaves resource parts.spec parts'.spec ∧ (asides = [] → parts' = parts) := by
  induction asides generalizing parts with
  | nil => exact ⟨parts, rfl, .refl resource parts.spec, fun _ => rfl⟩
  | cons aside rest ih =>
    obtain ⟨middle, hm, hfirst⟩ := aside.leaves job hc parts
    obtain ⟨parts', hp, hrest, -⟩ := ih middle
    refine ⟨parts', ?_, hfirst.trans hrest, fun hn => nomatch hn⟩
    rw [← hp, ← hm]
    rfl

/-- What a step leaves of what is asked for: the choice is up to date, and
all other rules are where they were. -/
structure Updates (resource : Config.Resource) (turn : Turn) (spec after : Crd.Schema) : Prop where
  current : Current resource after
  others : otherRules spec <+: otherRules after
  alone : ∀ mapping, turn = .version mapping [] → otherRules after = otherRules spec

/-- **Every step keeps the choice up to date.** -/
theorem Turn.updates (hc : connectionProperty ∉ resource.majorVersions)
    (hj : ∀ mapping, (job mapping).resource = resource) (turn : Turn) (parts : Parts)
    (h : Current resource parts.spec) :
    ∃ parts' : Parts, (parts.draft resource).after (turn.calls job) = parts'.draft resource ∧
      Updates resource turn parts.spec parts'.spec := by
  cases turn with
  | aside beside =>
    obtain ⟨parts', hp, hl⟩ := beside.leaves job hc parts
    refine ⟨parts', hp, ?_, hl.others, fun _ he => nomatch he⟩
    rw [Current, hl.choices, hl.present]
    exact h
  | version mapping within =>
    have hadded := presentVersions_insert resource parts.spec (emptyVersion (job mapping))
      (job mapping).majorVersion
    obtain ⟨middle, hm, hl, hnone⟩ := Aside.leaves_all job hc within
      (parts.withVersion (job mapping) (emptyVersion (job mapping)))
    -- what the asides find is what the version left, and the choice is still the one from before
    have hpresent : presentVersions resource middle.spec =
      presentVersions resource (parts.spec.insert (job mapping).majorVersion (emptyVersion (job mapping))) :=
        hl.present
    have hbefore : choices middle.spec = choiceRules (presentVersions resource parts.spec) :=
      hl.choices.trans h
    rw [← hpresent] at hadded
    obtain ⟨hcurrent, hothers⟩ := withVersionChoice_current hadded hbefore
    refine ⟨{ middle with
      spec := withVersionChoice resource.majorVersions (job mapping).majorVersion middle.spec },
      ?_, hcurrent, ?_, ?_⟩
    · have hcalls : (parts.draft resource).after ((Turn.version mapping within).calls job) =
          (((parts.withVersion (job mapping) (emptyVersion (job mapping))).draft resource).after
            (within.map (Aside.call job))).after [.mapping .versionChoice (job mapping)] :=
        Draft.after_append (parts.draft resource) (_ :: within.map (Aside.call job)) _
      rw [hcalls, hm, ← hj mapping]
      rfl
    · rw [hothers]
      exact hl.others
    · intro other he
      cases he
      rw [hothers, hnone rfl]
      rfl

/-- Steps in any order keep the choice up to date. -/
theorem Turn.current_after (hc : connectionProperty ∉ resource.majorVersions)
    (hj : ∀ mapping, (job mapping).resource = resource) (turns : List Turn) (parts : Parts)
    (h : Current resource parts.spec) :
    ∃ parts' : Parts, (parts.draft resource).after (turns.flatMap (Turn.calls job)) = parts'.draft resource ∧
      Current resource parts'.spec := by
  induction turns generalizing parts with
  | nil => exact ⟨parts, rfl, h⟩
  | cons turn rest ih =>
    obtain ⟨middle, hm, hu⟩ := turn.updates hc hj parts h
    obtain ⟨parts', hp, hcurrent⟩ := ih middle hu.current
    refine ⟨parts', ?_, hcurrent⟩
    rw [List.flatMap_cons, Draft.after_append, hm, hp]

end

/-- **There is always one choice between the versions that are there, in the order of the configuration,
if there are two of them at least, and none otherwise.** Whatever steps were taken since the definition
was started over, with the connection and the choices of versions added in between, the last of them left
all other rules where they were, and added none if it added a version alone. -/
theorem version_choice_current (resource : Config.Resource) (hc : connectionProperty ∉ resource.majorVersions)
    (documents : Config.Mapping → OpenApi.Document) (filters : List Conversion.PropertyPlugin) (draft : Draft)
    (turns : List Turn) (last : Turn) :
    let job (mapping : Config.Mapping) : Job := ⟨resource, mapping, documents mapping, filters⟩
    let before := draft.after (.base resource :: turns.flatMap (Turn.calls job))
    ∃ spec spec' : Crd.Schema, before.definition.part? specPart = some spec ∧
      (before.after (last.calls job)).definition.part? specPart = some spec' ∧
      choices spec' = choiceRules (presentVersions resource spec') ∧ otherRules spec <+: otherRules spec' ∧
      ∀ mapping, last = .version mapping [] → otherRules spec' = otherRules spec := by
  intro job before
  have hj (mapping : Config.Mapping) : (job mapping).resource = resource := rfl
  have hstart : Current resource (specSchema (singularName resource) resource.majorVersions) := by
    have hn : presentVersions resource (specSchema (singularName resource) resource.majorVersions) = [] := by
      simp [presentVersions, specSchema, Crd.Schema.object, Keyed.has]
    rw [Current, hn]
    simp [choices, choiceRules, specSchema, Crd.Schema.object]
  obtain ⟨parts, hp, hcurrent⟩ := Turn.current_after hc hj turns
    { Parts.start resource with tree := draft.tree } hstart
  obtain ⟨parts', hp', hu⟩ := last.updates hc hj parts hcurrent
  have hbefore : before = parts.draft resource := hp
  refine ⟨parts.spec, parts'.spec, ?_, ?_, hu.current, hu.others, hu.alone⟩
  · rw [hbefore]
    rfl
  · rw [hbefore, hp']
    rfl

/-! #### Three versions -/

def bareMapping (majorVersion : String) : Config.Mapping where
  majorVersion := majorVersion
  document := "api"

def threeVersions : Config.Resource where
  group := "example.com"
  version := "v1"
  kind := "Group"
  mappings := [bareMapping "v1", bareMapping "v2", bareMapping "v3"]

def threeVersionsJob (mapping : Config.Mapping) : Job := ⟨threeVersions, mapping, {}, []⟩

/-- The last version comes first, and the connection for another one comes before that one is there. -/
def shuffledTurns : List Turn :=
  [.version (bareMapping "v3") [], .aside (.connection (bareMapping "v2")),
    .version (bareMapping "v1") [.choices (bareMapping "v1")],
    .version (bareMapping "v2") [.connection (bareMapping "v2")]]

/-- The first version once more. -/
def repeatedTurn : Turn := .version (bareMapping "v1") []

theorem three_versions_one_choice : connectionProperty ∉ threeVersions.majorVersions ∧ ∃ spec : Crd.Schema,
    ((({} : Draft).after (.base threeVersions :: shuffledTurns.flatMap (Turn.calls threeVersionsJob))).after
      (repeatedTurn.calls threeVersionsJob)).definition.part? specPart = some spec ∧
    choices spec = [.exactlyOneOf ["v1", "v2", "v3"]] := by
  have hc : connectionProperty ∉ threeVersions.majorVersions := by decide
  have hcheck : (((({} : Draft).after (.base threeVersions :: shuffledTurns.flatMap
      (Turn.calls threeVersionsJob))).after
        (repeatedTurn.calls threeVersionsJob)).definition.part? specPart).any
        (fun spec => presentVersions threeVersions spec == ["v1", "v2", "v3"]) = true := by decide +kernel
  obtain ⟨-, spec, -, hs, hchoices, -⟩ :=
    version_choice_current threeVersions hc (fun _ => {}) [] {} shuffledTurns repeatedTurn
  have hspec : ((({} : Draft).after (.base threeVersions :: shuffledTurns.flatMap
      (Turn.calls threeVersionsJob))).after (repeatedTurn.calls threeVersionsJob)).definition.part? specPart =
        some spec := hs
  rw [hspec, Option.any_some, beq_iff_eq] at hcheck
  refine ⟨hc, spec, hspec, ?_⟩
  rw [hchoices, hcheck]
  rfl

end CrdForge.Pipeline
