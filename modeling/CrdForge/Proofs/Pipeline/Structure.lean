import CrdForge.Proofs.Conversion.Fineness
import CrdForge.Proofs.Pipeline.SpecRules

/-! What an inspection finds in the parts of a draft.

What plugins make themselves are objects that list properties, and everything else in a schema was
converted. The parts stay fine with every step, but for one place: references are listed in the entry of
a version whatever the entry says of other properties. -/
namespace CrdForge.Crd

open Schema (Below Fine Throughout)

/-! ### Texts of rules -/

theorem isBlank_of_head {text : String} {c : Char} (h : text.toList.head? = some c)
    (hc : Text.blank.contains c = false) : Text.isBlank text = false := by
  rw [Text.isBlank]
  cases ht : text.toList with
  | nil =>
    rw [ht] at h
    cases h
  | cons first rest =>
    rw [ht] at h
    cases h
    rw [List.all_cons, hc, Bool.false_and]

theorem isBlank_anyOf {clauses : List (List Literal)} (h : clauses ≠ []) :
    Text.isBlank (Condition.anyOf clauses).text = false := by
  obtain ⟨first, rest, rfl⟩ := List.exists_cons_of_ne_nil h
  have ho : Text.blank.contains '(' = false := by decide
  refine isBlank_of_head ?_ ho
  rw [Condition.text, List.map_cons]
  cases rest with
  | nil => simp [clauseText]
  | cons second rest =>
    rw [List.map_cons, String.intercalate_cons_cons]
    simp [clauseText]

theorem isBlank_exactlyOneOf (fields : List String) :
    Text.isBlank (Rule.exactlyOneOf fields).rule = false := by
  rcases fields with _ | ⟨first, _ | ⟨second, rest⟩⟩
  · decide
  · have hh : Text.blank.contains 'h' = false := by decide
    refine isBlank_of_head ?_ hh
    simp [Rule.exactlyOneOf, Condition.exactlyOneOf, Condition.text, presenceText]
  · exact isBlank_anyOf (List.cons_ne_nil _ _)

theorem isBlank_immutable (name : String) : Text.isBlank (Rule.immutable name).rule = false := by
  show Text.isBlank "self == oldSelf" = false
  decide

/-! ### Objects -/

namespace Schema

/-- An object that lists properties and says nothing else that an inspection may find. -/
structure IsObject (schema : Schema) : Prop where
  type : schema.type = some "object"
  format : schema.format = none
  items : schema.items = none
  additional : schema.additional = none
  composed : schema.composed = []
  sorted : Keyed.Sorted schema.properties
  required : ∀ name ∈ schema.required, Keyed.has name schema.properties = true
  rules : ∀ rule ∈ schema.rules, Text.isBlank rule.rule = false

variable {schema property : Schema} {name : String} {rule : Rule} {emptied : Prop}

theorem object_isObject (description : String) : (object description).IsObject where
  type := rfl
  format := rfl
  items := rfl
  additional := rfl
  composed := rfl
  sorted := .nil
  required := by simp [object]
  rules := by simp [object]

theorem has_removeRequired {name other : String} (h : other ∈ (schema.removeRequired name).required) :
    other ∈ schema.required := (List.mem_filter.mp h).1

theorem addRequired_properties : (schema.addRequired name).properties = schema.properties := by
  rw [addRequired]
  split <;> rfl

namespace IsObject

theorem insert (h : schema.IsObject) (name : String) (property : Schema) :
    (schema.insert name property).IsObject :=
  { h with
    sorted := h.sorted.insert _ _
    required := fun other ho => by
      rw [Schema.insert, Keyed.has_insert, h.required other ho, Bool.or_true] }

theorem addRequired (h : schema.IsObject) (hn : Keyed.has name schema.properties = true) :
    (schema.addRequired name).IsObject := by
  rw [Schema.addRequired]
  split
  · exact h
  · refine { h with required := fun other ho => ?_ }
    rcases List.mem_cons.mp (Keyed.mem_ascending.mp ho) with rfl | ho
    · exact hn
    · exact h.required other ho

theorem removeRequired (h : schema.IsObject) (name : String) : (schema.removeRequired name).IsObject :=
  { h with required := fun other ho => h.required other (has_removeRequired ho) }

theorem addRule (h : schema.IsObject) (hr : Text.isBlank rule.rule = false) :
    (schema.addRule rule).IsObject := by
  rw [Schema.addRule]
  split
  · exact h
  · refine { h with rules := fun other ho => ?_ }
    rcases List.mem_append.mp ho with ho | ho
    · exact h.rules other ho
    · obtain rfl := List.mem_singleton.mp ho
      exact hr

theorem fine (h : schema.IsObject) : Fine emptied schema where
  regular := {
    type := by rw [h.type]; rfl
    format := fun _ hf => by rw [h.format] at hf; cases hf
    branches := by simp [h.composed]
    required := h.required
    rules := h.rules }
  apart := .inr h.additional
  whole := .inl fun ht => by simp [typeName, h.type] at ht

/-- What is below an object are its properties. -/
theorem below (h : schema.IsObject) {P : Schema → Prop}
    (hp : ∀ name property, (name, property) ∈ schema.properties → property.Throughout P) :
    schema.Below P where
  properties := hp
  items := by simp [h.items]
  additional := by simp [h.additional]
  branches := by simp [h.composed]

end IsObject

end Schema

end CrdForge.Crd

namespace CrdForge.Pipeline

open Crd.Schema (Below Fine IsObject Throughout)
open Run

/-! ### Schemas with references -/

/-- A schema that is fine, but may list properties beside what it says of those that are not. -/
structure FineBut (emptied : Prop) (schema : Crd.Schema) : Prop where
  regular : schema.Regular
  whole : schema.Whole ∨ emptied
  below : schema.Below (Fine emptied)

section
variable {emptied : Prop} {schema property : Crd.Schema} {name : String} {rule : Crd.Rule}

theorem fineBut_of_throughout (h : schema.Throughout (Fine emptied)) : FineBut emptied schema :=
  ⟨h.self.regular, h.self.whole, h.below⟩

namespace FineBut

theorem throughout (h : FineBut emptied schema) (ha : schema.Apart) : schema.Throughout (Fine emptied) :=
  .of_below ⟨h.regular, ha, h.whole⟩ h.below

theorem insert (h : FineBut emptied schema) (hp : property.Throughout (Fine emptied)) :
    FineBut emptied (schema.insert name property) where
  regular := { h.regular with
    required := fun other ho => by
      rw [Crd.Schema.insert, Keyed.has_insert, h.regular.required other ho, Bool.or_true] }
  whole := h.whole
  below := h.below.insert hp

theorem removeRequired (h : FineBut emptied schema) (name : String) :
    FineBut emptied (schema.removeRequired name) where
  regular := { h.regular with
    required := fun other ho => h.regular.required other (Crd.Schema.has_removeRequired ho) }
  whole := h.whole
  below := h.below.change rfl rfl rfl rfl

theorem addRule (h : FineBut emptied schema) (hr : Text.isBlank rule.rule = false) :
    FineBut emptied (schema.addRule rule) := by
  rw [Crd.Schema.addRule]
  split
  · exact h
  · refine ⟨{ h.regular with rules := fun other ho => ?_ }, h.whole, h.below.change rfl rfl rfl rfl⟩
    rcases List.mem_append.mp ho with ho | ho
    · exact h.regular.rules other ho
    · obtain rfl := List.mem_singleton.mp ho
      exact hr

theorem describe (h : FineBut emptied schema) (description : Option String) :
    FineBut emptied { schema with description := description } :=
  ⟨{ h.regular with }, h.whole, h.below.change rfl rfl rfl rfl⟩

end FineBut

/-- A new description and a rule leave a converted schema fine. -/
theorem parameterProperty_fine (h : schema.Throughout (Fine emptied)) (parameter : OpenApi.Parameter) :
    (parameterProperty parameter schema).Throughout (Fine emptied) := by
  refine ((fineBut_of_throughout h).describe _).addRule (Crd.isBlank_immutable _) |>.throughout ?_
  rw [Crd.Schema.Apart, Crd.Schema.addRule]
  split <;> exact h.self.apart

theorem described_fine (h : schema.Throughout (Fine emptied)) (description : String) :
    (described description schema).Throughout (Fine emptied) :=
  ((fineBut_of_throughout h).describe _).throughout h.self.apart

theorem referenceSchema_fine (reference : Config.Reference) (targetProperty : String) :
    (referenceSchema reference targetProperty).Throughout (Fine emptied) := by
  have ho := (Crd.Schema.object_isObject ("A reference to a \"" ++ reference.target.type.kind ++
    "\" resource.\nThe value of \"" ++ targetProperty ++ "\" will be used to set \"" ++ reference.leaf ++
    "\".\nMutually exclusive with the \"" ++ reference.leaf ++ "\" property.")).insert "name"
    (.string ("Name of the \"" ++ reference.target.type.kind ++ "\" resource."))
  refine .of_below ho.fine (ho.below fun name property hm => ?_)
  rcases Keyed.mem_insert hm with he | hm
  · cases he
    exact (Crd.Schema.string_isScalar _).fine _
  · cases hm

/-! ### References and choices -/

/-- References and choices keep what listing a reference, requiring less and adding a rule keep. -/
theorem withReferences_keeps {P : Crd.Schema → Prop}
    (hlist : ∀ schema reference targetProperty, P schema → P (withReference schema reference targetProperty))
    {references : List Config.Reference} {target listed : Crd.Schema} {failure : Option Failure}
    (h : withReferences target references = (listed, failure)) (ht : P target) : P listed := by
  induction references generalizing target with
  | nil =>
    cases h
    exact ht
  | cons reference rest ih =>
    rw [withReferences] at h
    split at h
    · cases h
      exact ht
    · exact ih h (hlist _ _ _ ht)

theorem withChoices_keeps {P : Crd.Schema → Prop}
    (hrule : ∀ schema fields, P schema → P (schema.addRule (Crd.Rule.exactlyOneOf fields)))
    {references : List Config.Reference} {target : Crd.Schema} (ht : P target) :
    P (withChoices target references) := by
  rw [withChoices]
  induction references generalizing target with
  | nil => exact ht
  | cons reference rest ih =>
    rw [List.foldl_cons]
    refine ih ?_
    split
    · exact hrule _ _ ht
    · exact ht

theorem FineBut.withReference (h : FineBut emptied schema) (reference : Config.Reference)
    (targetProperty : String) :
    FineBut emptied (withReference schema reference targetProperty) :=
  (h.insert (referenceSchema_fine reference targetProperty)).removeRequired _

theorem FineBut.addChoice (h : FineBut emptied schema) (fields : List String) :
    FineBut emptied (schema.addRule (Crd.Rule.exactlyOneOf fields)) :=
  h.addRule (Crd.isBlank_exactlyOneOf fields)

end

/-! ### Versions -/

/-- What plugins leave of a version: an object whose properties are fine, but for an entry with references. -/
structure FineVersion (resource : Config.Resource) (emptied : Prop) (name : String) (version : Crd.Schema) :
    Prop where
  object : version.IsObject
  listed : ∀ key property, (key, property) ∈ version.properties → property.Throughout (Fine emptied) ∨
    key = entryPart ∧ FineBut emptied property ∧
      ∃ mapping ∈ resource.mappings, mapping.majorVersion = name ∧ mapping.entry.references ≠ []

section
variable {resource : Config.Resource} {emptied : Prop} {name key : String} {version property : Crd.Schema}
  {mapping : Config.Mapping}

theorem emptyVersion_fine (job : Job) : FineVersion resource emptied name (emptyVersion job) :=
  ⟨Crd.Schema.object_isObject _, by simp [emptyVersion, Crd.Schema.object]⟩

namespace FineVersion

theorem insert (h : FineVersion resource emptied name version) (hp : property.Throughout (Fine emptied)) :
    FineVersion resource emptied name (version.insert key property) := by
  refine ⟨h.object.insert _ _, fun other listed hm => ?_⟩
  rcases Keyed.mem_insert hm with he | hm
  · cases he
    exact .inl hp
  · exact h.listed _ _ hm

theorem insertEntry (h : FineVersion resource emptied name version) (he : FineBut emptied property)
    (hm : mapping ∈ resource.mappings) (hn : mapping.majorVersion = name)
    (hr : mapping.entry.references ≠ []) :
    FineVersion resource emptied name (version.insert entryPart property) := by
  refine ⟨h.object.insert _ _, fun other listed ho => ?_⟩
  rcases Keyed.mem_insert ho with heq | ho
  · cases heq
    exact .inr ⟨rfl, he, mapping, hm, hn, hr⟩
  · exact h.listed _ _ ho

theorem addRule (h : FineVersion resource emptied name version) {rule : Crd.Rule}
    (hr : Text.isBlank rule.rule = false) : FineVersion resource emptied name (version.addRule rule) :=
  ⟨h.object.addRule hr, fun _ _ hm => h.listed _ _ (addRule_properties version rule ▸ hm)⟩

theorem addRequired (h : FineVersion resource emptied name version)
    (hk : Keyed.has key version.properties = true) :
    FineVersion resource emptied name (version.addRequired key) := by
  refine ⟨h.object.addRequired hk, fun _ _ hm => ?_⟩
  rw [Crd.Schema.addRequired_properties] at hm
  exact h.listed _ _ hm

theorem withReference (h : FineVersion resource emptied name version) (reference : Config.Reference)
    (targetProperty : String) :
    FineVersion resource emptied name (withReference version reference targetProperty) := by
  have hi : FineVersion resource emptied name
      (version.insert reference.name (referenceSchema reference targetProperty)) :=
    h.insert (referenceSchema_fine reference targetProperty)
  exact ⟨hi.object.removeRequired _, hi.listed⟩

theorem withParameter (h : FineVersion resource emptied name version)
    (hp : property.Throughout (Fine emptied)) (parameter : OpenApi.Parameter) :
    FineVersion resource emptied name (withParameter parameter property version) := by
  have hi : FineVersion resource emptied name
      (version.insert parameter.name (parameterProperty parameter property)) :=
    h.insert (parameterProperty_fine hp parameter)
  rw [Pipeline.withParameter]
  split
  · refine hi.addRequired ?_
    rw [Crd.Schema.insert, Keyed.has_insert, beq_self_eq_true, Bool.true_or]
  · exact hi

theorem entry (h : FineVersion resource emptied name version) (hl : version.property? key = some property) :
    FineBut emptied property := by
  rcases h.listed key property (Keyed.mem_of_lookup hl) with hf | ⟨-, hf, -⟩
  · exact fineBut_of_throughout hf
  · exact hf

/-- Choices change no more than rules, so an entry that is fine stays so. -/
theorem withChoices (h : FineVersion resource emptied name version) (mapping : Config.Mapping) :
    FineVersion resource emptied name (versionWithChoices mapping version) := by
  have hv : FineVersion resource emptied name (Pipeline.withChoices version mapping.parameters.references) :=
    withChoices_keeps (fun schema fields hs => hs.addRule (Crd.isBlank_exactlyOneOf fields)) h
  rw [versionWithChoices]
  split
  · next entry he =>
    rcases hv.listed entryPart entry (Keyed.mem_of_lookup he) with hf | ⟨-, hf, other, hm, hn, hr⟩
    · refine hv.insert (withChoices_keeps (fun schema fields hs => ?_) hf)
      refine ((fineBut_of_throughout hs).addChoice fields).throughout ?_
      rw [Crd.Schema.Apart, Crd.Schema.addRule]
      split <;> exact hs.self.apart
    · exact hv.insertEntry (withChoices_keeps (fun schema fields hs => hs.addChoice fields) hf) hm hn hr
  · exact hv

end FineVersion

/-! ### Parts -/

theorem isBlank_connectionRule (version field : String) :
    Text.isBlank (connectionRule version field).rule = false :=
  Crd.isBlank_anyOf (List.cons_ne_nil _ _)

/-- What plugins leave of what is asked for: an object with versions. -/
structure FineSpec (resource : Config.Resource) (emptied : Prop) (spec : Crd.Schema) : Prop where
  object : spec.IsObject
  versions : ∀ name version, (name, version) ∈ spec.properties → FineVersion resource emptied name version

/-- What plugins leave of the parts of a draft. -/
structure FineParts (resource : Config.Resource) (emptied : Prop) (parts : Parts) : Prop where
  spec : FineSpec resource emptied parts.spec
  status : parts.status.IsObject
  statuses : ∀ name property, (name, property) ∈ parts.status.properties → property.Throughout (Fine emptied)
  columns : ∀ column ∈ parts.columns, Text.startsWith "." column.jsonPath = true

variable {spec : Crd.Schema} {parts : Parts}

theorem connectionSchema_fine : FineVersion resource emptied name connectionSchema := by
  refine ⟨(Crd.Schema.object_isObject _).insert _ _, fun key property hm => ?_⟩
  rcases Keyed.mem_insert hm with he | hm
  · cases he
    exact .inl ((Crd.Schema.string_isScalar _).fine _)
  · cases hm

namespace FineSpec

theorem insert (h : FineSpec resource emptied spec) (hv : FineVersion resource emptied name version) :
    FineSpec resource emptied (spec.insert name version) := by
  refine ⟨h.object.insert _ _, fun other listed hm => ?_⟩
  rcases Keyed.mem_insert hm with he | hm
  · cases he
    exact hv
  · exact h.versions _ _ hm

theorem addRule (h : FineSpec resource emptied spec) {rule : Crd.Rule} (hr : Text.isBlank rule.rule = false) :
    FineSpec resource emptied (spec.addRule rule) :=
  ⟨h.object.addRule hr, fun _ _ hm => h.versions _ _ (addRule_properties spec rule ▸ hm)⟩

theorem addRules (h : FineSpec resource emptied spec) {rules : List Crd.Rule}
    (hr : ∀ rule ∈ rules, Text.isBlank rule.rule = false) :
    FineSpec resource emptied (rules.foldl Crd.Schema.addRule spec) :=
  List.foldlRecOn rules _ h fun _ hs rule hm => hs.addRule (hr rule hm)

theorem of_lookup (h : FineSpec resource emptied spec) (hl : spec.property? name = some version) :
    FineVersion resource emptied name version := h.versions _ _ (Keyed.mem_of_lookup hl)

theorem withVersionChoice (h : FineSpec resource emptied spec) (configured : List String) (current : String) :
    FineSpec resource emptied (withVersionChoice configured current spec) := by
  rw [Pipeline.withVersionChoice]
  split
  · exact h
  · refine FineSpec.addRule ?_ (Crd.isBlank_exactlyOneOf _)
    split
    · exact h
    · exact ⟨{ h.object with rules := fun rule hm => h.object.rules rule (List.mem_filter.mp hm).1 },
        h.versions⟩

theorem withConnection (h : FineSpec resource emptied spec) :
    FineSpec resource emptied (withConnection spec) := by
  rw [Pipeline.withConnection]
  split
  · exact h
  · exact h.insert connectionSchema_fine

theorem withConnectionRules (h : FineSpec resource emptied spec) (mapping : Config.Mapping) :
    FineSpec resource emptied (withConnectionRules mapping spec) := by
  refine h.addRules fun rule hm => ?_
  obtain ⟨version, field, rfl⟩ := connectionRule_of_mem hm
  exact isBlank_connectionRule version field

end FineSpec

end

/-! ### Steps -/

section
variable {resource : Config.Resource} {emptied : Prop} {job : Job} {parts after : Parts}

/-- Whether arrays that lose their items in a conversion for a job are accounted for. -/
def Accounts (emptied : Prop) (job : Job) : Prop :=
  ∀ selection ∈ [job.mapping.parameters, job.mapping.entry, job.mapping.status],
    Conversion.Emptied (job.setting selection) → emptied

/-- What is converted for a job is fine, if its document is well-formed. -/
theorem conversion_fine (hp : job.filters = Conversion.PropertyPlugin.all) (hw : job.document.WellFormed)
    (ha : Accounts emptied job) {selection : Config.Selection}
    (hs : selection ∈ [job.mapping.parameters, job.mapping.entry, job.mapping.status])
    {schema : OpenApi.Schema} (hh : job.document.Holds schema) {node : Extension.NodeId}
    {tree tree' : Extension.Tree} {converted : Crd.Schema}
    (hc : job.conversion selection schema node tree = (some converted, tree')) :
    converted.Throughout (Fine emptied) := by
  exact (Conversion.shape_fine hp hw _ schema _ _ hh (Job.conversion_shape hc)).mono fun node hn =>
    ⟨hn.regular, hn.apart, hn.whole.imp_right (ha selection hs)⟩

/-- Parts with another version. -/
theorem FineParts.withVersion (h : FineParts resource emptied parts) {version : Crd.Schema}
    (hv : FineVersion resource emptied job.majorVersion version) :
    FineParts resource emptied (parts.withVersion job version) :=
  ⟨h.spec.insert hv, h.status, h.statuses, h.columns⟩

/-- Nothing of this is about annotations. -/
theorem FineParts.withTree (h : FineParts resource emptied parts) (tree : Extension.Tree) :
    FineParts resource emptied (parts.withTree tree) := ⟨h.spec, h.status, h.statuses, h.columns⟩

theorem ReferencesStep.fine (h : ReferencesStep job parts after) (hm : job.mapping ∈ resource.mappings)
    (hf : FineParts resource emptied parts) : FineParts resource emptied after := by
  have hlist {version listed : Crd.Schema} (hv : parts.version? job = some version)
      (hl : withReferences version job.mapping.parameters.references = (listed, none)) :
      FineVersion resource emptied job.majorVersion listed :=
    withReferences_keeps (fun schema reference targetProperty hs =>
      hs.withReference reference targetProperty) hl
      (hf.spec.of_lookup hv)
  cases h with
  | unset => exact hf
  | version hv _ hl => exact hf.withVersion (hlist hv hl)
  | entry hv hne hl he hw =>
    have hentry : FineBut emptied _ :=
      withReferences_keeps
        (fun schema reference targetProperty hs => hs.withReference reference targetProperty) hw
        ((hlist hv hl).entry he)
    exact hf.withVersion ((hlist hv hl).insertEntry hentry hm rfl hne)

theorem conditionColumns_fine : ∀ column ∈ conditionColumns, Text.startsWith "." column.jsonPath = true := by
  decide

/-- **Every plugin leaves parts fine that were fine.** -/
theorem PluginStep.fine {plugin : MappingPlugin} (h : PluginStep job plugin parts after)
    (hp : job.filters = Conversion.PropertyPlugin.all) (hw : job.document.WellFormed)
    (ha : Accounts emptied job) (hm : job.mapping ∈ resource.mappings)
    (hf : FineParts resource emptied parts) :
    FineParts resource emptied after := by
  cases h with
  | majorVersion => exact hf.withVersion (emptyVersion_fine job)
  | parameters h =>
    cases h with
    | unset _ => exact hf
    | set _ hparameters he =>
      refine he.preserves (fun parameter hx s s' hs hstep => ?_) (hf.withTree _)
      cases hstep with
      | passed _ => exact hs
      | left _ _ => exact hs.withTree _
      | listed hschema hc hv =>
        have hheld : job.document.Holds _ :=
          .parameter (holds_of_endpointParameters hparameters hx) (schema_of_parameterSchema? hschema)
        have hconverted := conversion_fine hp hw ha (by simp) hheld hc
        exact (hs.withTree _).withVersion ((hs.spec.of_lookup hv).withParameter hconverted parameter)
  | entry h =>
    cases h with
    | unset _ => exact hf
    | listed description hsource hc hv =>
      have hconverted := conversion_fine hp hw ha (by simp) (holds_of_sourceSchema hsource) hc
      exact (hf.withTree _).withVersion
        ((hf.spec.of_lookup hv).insert (described_fine hconverted description))
  | status h =>
    cases h with
    | unset _ => exact hf
    | left _ _ => exact hf.withTree _
    | listed description hsource hc =>
      have hconverted := conversion_fine hp hw ha (by simp) (holds_of_sourceSchema hsource) hc
      refine ⟨hf.spec, hf.status.insert _ _, fun name property hl => ?_, hf.columns⟩
      rcases Keyed.mem_insert hl with he | hl
      · cases he
        exact described_fine hconverted description
      · exact hf.statuses _ _ hl
  | references h => exact h.fine hm hf
  | choices hv => exact hf.withVersion ((hf.spec.of_lookup hv).withChoices _)
  | versionChoice => exact ⟨hf.spec.withVersionChoice _ _, hf.status, hf.statuses, hf.columns⟩
  | connection => exact ⟨hf.spec.withConnection.withConnectionRules _, hf.status, hf.statuses, hf.columns⟩
  | columns => exact ⟨hf.spec, hf.status, hf.statuses, conditionColumns_fine⟩

theorem ExtensionStep.fine {plugin : ExtensionPlugin} (h : ExtensionStep job plugin parts after)
    (hf : FineParts resource emptied parts) : FineParts resource emptied after := by
  have hreference {parent : List String} {reference : Config.Reference} {s s' : Parts}
      (hs : FineParts resource emptied s) (hr : ReferenceStep parent reference s s') :
      FineParts resource emptied s' := by
    cases hr
    exact hs.withTree _
  cases h with
  | openApiVersion => exact hf.withTree _
  | referenceMetadata hm hs =>
    exact hs.preserves (fun _ _ _ _ => hreference) (hm.preserves (fun _ _ _ _ => hreference) hf)

theorem conditionField_fine {type : String} (ht : type ≠ "array") {description : String}
    {format : Option String} (hf : ∀ name, format = some name → Crd.supportedFormats.contains name = true) :
    (conditionField type description format).Throughout (Fine emptied) :=
  (⟨⟨type, rfl, ht⟩, hf, rfl, rfl, rfl, rfl, rfl, rfl⟩ :
    (conditionField type description format).IsScalar).fine _

theorem conditionSchema_fine : conditionSchema.Throughout (Fine emptied) := by
  have ho : conditionSchema.IsObject :=
    ⟨rfl, rfl, rfl, rfl, rfl, by unfold Keyed.Sorted; decide, by decide, by simp [conditionSchema]⟩
  refine .of_below ho.fine (ho.below fun name property hm => ?_)
  simp only [conditionSchema, List.mem_cons, Prod.mk.injEq, List.not_mem_nil, or_false] at hm
  rcases hm with ⟨-, rfl⟩ | ⟨-, rfl⟩ | ⟨-, rfl⟩ | ⟨-, rfl⟩ | ⟨-, rfl⟩ | ⟨-, rfl⟩ <;>
    exact conditionField_fine (by decide) (by decide)

theorem conditionsSchema_fine : conditionsSchema.Throughout (Fine emptied) := by
  refine .of_below ⟨⟨rfl, ?_, ?_, ?_, ?_⟩, .inl rfl, .inl fun _ => rfl⟩ ⟨?_, ?_, ?_, ?_⟩
  · exact Crd.Schema.knownFormat_none rfl
  · simp [conditionsSchema, Crd.Schema.composed]
  · simp [conditionsSchema]
  · simp [conditionsSchema]
  · simp [conditionsSchema]
  · intro items hi
    cases hi
    exact conditionSchema_fine
  · simp [conditionsSchema]
  · simp [conditionsSchema, Crd.Schema.composed]

/-- The parts before any version is added are fine. -/
theorem start_fine (resource : Config.Resource) : FineParts resource emptied (Parts.start resource) where
  spec := ⟨Crd.Schema.object_isObject _, by simp [Parts.start, specSchema, Crd.Schema.object]⟩
  status := (Crd.Schema.object_isObject _).insert _ _
  statuses name property hm := by
    rcases Keyed.mem_insert hm with he | hm
    · cases he
      exact conditionsSchema_fine
    · cases hm
  columns := by simp [Parts.start]

end

end CrdForge.Pipeline
