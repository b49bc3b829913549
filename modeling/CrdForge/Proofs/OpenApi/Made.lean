import CrdForge.OpenApi.Decode
import CrdForge.Proofs.OpenApi.WellFormed
import CrdForge.Proofs.Yaml.Within

/-! Documents as they are read.

Whatever a document is read from, its maps have no name twice, the JSON in it is
sorted and finite, and names come from names of entries. A default or an example
is null only where a float is not finite. A schema is read field by field, and
each field keeps this of the schema so far and of all that it nests. -/
namespace CrdForge

open Yaml (Value Misfit)
open Run (Yields)

namespace Yaml.Value
variable {names : String → Prop} {floats : Float → Prop}

/-- JSON that may be missing is null only where a float is not finite. -/
theorem gives_optional_json : Gives names floats (optional json) fun found => ∀ read, found = some read →
    read.Tidy names ∧ (read = .null → ∃ x, floats x ∧ x.isFinite = false) := by
  intro value hv
  rw [optional]
  split
  · intro read hf
    cases hf
  · next hne =>
    have hnull : value ≠ .null := fun he => hne (he ▸ rfl)
    refine Yields.map ((gives_json value hv).and (Yields.self value.json fun _ => trivial))
      fun read hr found hf => ?_
    obtain rfl := Option.some.inj hf
    exact ⟨hr.1, fun he => (hv.json_null (he ▸ hr.2)).resolve_left hnull⟩

end Yaml.Value

namespace OpenApi

/-! ### Schemas and what they nest -/

/-- Whether something holds of a schema and of all that it nests. -/
inductive Schema.Everywhere (P : Schema → Prop) : Schema → Prop
  | intro {schema : Schema} (self : P schema)
    (properties : ∀ property ∈ schema.properties, Everywhere P property.2)
    (items : ∀ nested, schema.items = some nested → Everywhere P nested)
    (additional : ∀ nested, schema.additional = some (.schema nested) → Everywhere P nested)
    (allOf : ∀ branch ∈ schema.allOf, Everywhere P branch)
    (oneOf : ∀ branch ∈ schema.oneOf, Everywhere P branch)
    (anyOf : ∀ branch ∈ schema.anyOf, Everywhere P branch)
    (not : ∀ nested, schema.not = some nested → Everywhere P nested) : Everywhere P schema

theorem Schema.additionalSchema_eq_some {schema nested : Schema} :
    schema.additionalSchema = some nested ↔ schema.additional = some (.schema nested) := by
  rw [additionalSchema]
  split
  · next h => rw [h, Option.some.injEq, Option.some.injEq, Additional.schema.injEq]
  · next h => exact ⟨nofun, fun ha => absurd ha (h nested)⟩

theorem Schema.Everywhere.self {P : Schema → Prop} {schema : Schema} (h : schema.Everywhere P) :
    P schema := by
  cases h with
  | intro self => exact self

/-- Of a schema in a document, and so of all that it nests, more can be said
with what every schema of that has. -/
theorem Schema.Everywhere.of_holds {P Q : Schema → Prop} {document : Document} {schema : Schema}
    (h : schema.Everywhere P) (hd : document.Holds schema)
    (hq : ∀ schema, document.Holds schema → P schema → Q schema) : schema.Everywhere Q := by
  induction h with
  | intro self _ _ _ _ _ _ _ properties items additional allOf oneOf anyOf not =>
    refine .intro (hq _ hd self) (fun property hm => properties property hm (hd.property hm))
      (fun nested hi => items nested hi (hd.items hi))
      (fun nested ha => additional nested ha (hd.additional (additionalSchema_eq_some.mpr ha)))
      (fun branch hm => allOf branch hm (hd.branch ?_)) (fun branch hm => oneOf branch hm (hd.branch ?_))
      (fun branch hm => anyOf branch hm (hd.branch ?_)) fun nested hn =>
        not nested hn (hd.branch ?_) <;> simp [*]

/-- A schema as it is read from values with names and floats of a kind. -/
structure Schema.Made (names : String → Prop) (floats : Float → Prop) (schema : Schema) : Prop where
  properties : Keyed.Distinct names schema.properties
  default : ∀ value, schema.default = some value →
    value.Tidy names ∧ (value = .null → ∃ x, floats x ∧ x.isFinite = false)
  sample : ∀ value, schema.sample = some value →
    value.Tidy names ∧ (value = .null → ∃ x, floats x ∧ x.isFinite = false)
  enumeration : ∀ value ∈ schema.enumeration, value.Tidy names

/-! ### Reading schemas -/

section
variable {names : String → Prop} {floats : Float → Prop}

/-- Whether a schema and all that it nests are as they are read. -/
abbrev MadeOf (names : String → Prop) (floats : Float → Prop) (schema : Schema) : Prop :=
  schema.Everywhere (Schema.Made names floats)

theorem madeOf_empty : MadeOf names floats {} :=
  .intro ⟨⟨List.nodup_nil, nofun⟩, nofun, nofun, nofun⟩ nofun nofun nofun nofun nofun nofun nofun

/-- Whether properties and what they nest are as they are read. -/
def PropertiesMade (names : String → Prop) (floats : Float → Prop)
    (properties : List (String × Schema)) : Prop :=
  Keyed.Distinct names properties ∧ ∀ property ∈ properties, MadeOf names floats property.2

/-- Whether nested schemas are made as they are read, if they are read. -/
structure Nested.Yield (names : String → Prop) (floats : Float → Prop) (nested : Nested) : Prop where
  schema : Yields (MadeOf names floats) (fun _ => True) (nested.schema ())
  strictSchema : Yields (MadeOf names floats) (fun _ => True) (nested.strictSchema ())
  schemas : Yields (fun schemas => ∀ schema ∈ schemas, MadeOf names floats schema) (fun _ => True)
    (nested.schemas ())
  properties : Yields (PropertiesMade names floats) (fun _ => True) (nested.properties ())

theorem yields_any {α : Type} (result : Except Misfit α) : Yields (fun _ => True) (fun _ => True) result := by
  cases result <;> trivial

theorem yields_optionally {α : Type} {P : α → Prop} {result : Except Misfit α}
    (h : Yields P (fun _ => True) result) (absent : Bool) :
    Yields (fun found => ∀ a, found = some a → P a) (fun _ => True)
      (if absent = true then .ok none else some <$> result) := by
  split
  · exact nofun
  · exact h.map fun a ha _ hs => Option.some.inj hs ▸ ha

theorem yields_plainList_json {value : Value} (hv : value.Within names floats) (reading : Reading) :
    Yields (fun values => ∀ value ∈ values, value.Tidy names) (fun _ => True)
      (plainList reading Value.json value) := by
  rw [plainList]
  split
  · trivial
  · exact Value.gives_json.list value hv

theorem yields_additional {nested : Nested} (hn : nested.Yield names floats) (value : Value) :
    Yields (fun found => ∀ schema, found = .schema schema → MadeOf names floats schema) (fun _ => True)
      (additional value nested) := by
  unfold additional
  split
  · exact nofun
  · split
    · trivial
    · exact hn.strictSchema.map fun _ hs _ ha => Additional.schema.inj ha ▸ hs

/-- Setting a field keeps a schema as one that is read. -/
theorem yields_set {schema : Schema} (hs : MadeOf names floats schema) {value : Value}
    (hv : value.Within names floats) {nested : Nested} (hn : nested.Yield names floats) (reading : Reading)
    (name : String) : Yields (MadeOf names floats) (fun _ => True)
      (schema.set reading name value nested) := by
  obtain ⟨self, properties, items, additional, allOf, oneOf, anyOf, not⟩ := hs
  have hkeep {α : Type} (result : Except Misfit α) (set : α → Schema)
    (hset : ∀ a, MadeOf names floats (set a)) :
      Yields (MadeOf names floats) (fun _ => True) (do return set (← result)) :=
    (yields_any _).bind fun a _ => .pure (hset a)
  simp only [Schema.set]
  split
  · exact hkeep _ _ fun _ => .intro { self with } properties items additional allOf oneOf anyOf not
  · exact hkeep _ _ fun _ => .intro { self with } properties items additional allOf oneOf anyOf not
  · exact hkeep _ _ fun _ => .intro { self with } properties items additional allOf oneOf anyOf not
  · exact hkeep _ _ fun _ => .intro { self with } properties items additional allOf oneOf anyOf not
  · exact hkeep _ _ fun _ => .intro { self with } properties items additional allOf oneOf anyOf not
  · exact (Value.gives_optional_json value hv).bind fun _ hd =>
      .pure (.intro { self with default := hd } properties items additional allOf oneOf anyOf not)
  · exact (Value.gives_optional_json value hv).bind fun _ he =>
      .pure (.intro { self with sample := he } properties items additional allOf oneOf anyOf not)
  · exact (yields_plainList_json hv reading).bind fun _ he =>
      .pure (.intro { self with enumeration := he } properties items additional allOf oneOf anyOf not)
  · exact hkeep _ _ fun _ => .intro { self with } properties items additional allOf oneOf anyOf not
  · exact hkeep _ _ fun _ => .intro { self with } properties items additional allOf oneOf anyOf not
  · exact hkeep _ _ fun _ => .intro { self with } properties items additional allOf oneOf anyOf not
  · exact (yields_optionally hn.schema _).bind fun _ hi =>
      .pure (.intro { self with } properties hi additional allOf oneOf anyOf not)
  · exact hn.properties.bind fun _ hp =>
      .pure (.intro { self with properties := hp.1 } hp.2 items additional allOf oneOf anyOf not)
  · exact (yields_optionally (yields_additional hn value) _).bind fun _ ha =>
      .pure (.intro { self with } properties items (fun _ hs => ha _ hs _ rfl) allOf oneOf anyOf not)
  · exact hn.schemas.bind fun _ hb =>
      .pure (.intro { self with } properties items additional hb oneOf anyOf not)
  · exact hn.schemas.bind fun _ hb =>
      .pure (.intro { self with } properties items additional allOf hb anyOf not)
  · exact hn.schemas.bind fun _ hb =>
      .pure (.intro { self with } properties items additional allOf oneOf hb not)
  · exact (yields_optionally hn.schema _).bind fun _ he =>
      .pure (.intro { self with } properties items additional allOf oneOf anyOf he)
  · exact .pure (.intro self properties items additional allOf oneOf anyOf not)

/-- Whether what a value says of schemas, in whatever way it is read, is made as it is read. -/
structure Yielding (names : String → Prop) (floats : Float → Prop) (value : Value) : Prop where
  within : value.Within names floats
  schema : ∀ reading, Yields (MadeOf names floats) (fun _ => True) (schemaOf reading value)
  schemas : ∀ reading, Yields (fun schemas => ∀ schema ∈ schemas, MadeOf names floats schema) (fun _ => True)
    (schemasOf reading value)
  properties : ∀ reading, Yields (PropertiesMade names floats) (fun _ => True) (propertiesOf reading value)

theorem Yielding.set {value : Value} (h : Yielding names floats value) {schema : Schema}
    (hs : MadeOf names floats schema) (reading : Reading) (name : String) :
    Yields (MadeOf names floats) (fun _ => True) (schema.set reading name value {
      schema := fun _ => schemaOf reading value
      strictSchema := fun _ => schemaOf .strict value
      schemas := fun _ => schemasOf reading value
      properties := fun _ => propertiesOf reading value }) :=
  yields_set hs h.within ⟨h.schema reading, h.schema .strict, h.schemas reading,
    h.properties reading⟩ reading name

theorem yields_schemaOfEntries {entries : List (Value × Value)}
    (h : ∀ entry ∈ entries, Yielding names floats entry.2) (reading : Reading) (given : List String)
    {schema : Schema} (hs : MadeOf names floats schema) :
    Yields (MadeOf names floats) (fun _ => True) (schemaOfEntries reading given schema entries) := by
  induction entries generalizing given schema with
  | nil => exact hs
  | cons entry rest ih =>
    obtain ⟨hfirst, hrest⟩ := List.forall_mem_cons.mp h
    rw [schemaOfEntries]
    refine (yields_any _).bind fun name _ => ?_
    dsimp only
    split
    · trivial
    · rw [schemaOfEntry]
      exact (hfirst.set hs reading name).bind fun _ hset => ih hrest _ hset

theorem yields_schemaOfItems {items : List Value} (h : ∀ item ∈ items, Yielding names floats item)
    (fieldNames : List String) {schema : Schema} (hs : MadeOf names floats schema) :
    Yields (MadeOf names floats) (fun _ => True) (schemaOfItems fieldNames schema items) := by
  induction items generalizing fieldNames schema with
  | nil => exact hs
  | cons item rest ih =>
    obtain ⟨hfirst, hrest⟩ := List.forall_mem_cons.mp h
    cases fieldNames with
    | nil => trivial
    | cons name fieldNames =>
      rw [schemaOfItems]
      exact (hfirst.set hs .strict name).bind fun _ hset => ih hrest fieldNames hset

theorem schemasOfItems_eq (reading : Reading) (items : List Value) :
    schemasOfItems reading items = items.mapM (schemaOf reading) := by
  induction items with
  | nil => rfl
  | cons item rest ih => rw [schemasOfItems, ih, List.mapM_cons]

theorem yields_propertiesOfEntries {entries : List (Value × Value)}
    (hn : ∀ entry ∈ entries, ∀ name, entry.1.text = .ok name → names name)
    (h : ∀ entry ∈ entries, Yielding names floats entry.2) (reading : Reading) {read : List (String × Schema)}
    (hr : PropertiesMade names floats read) :
    Yields (PropertiesMade names floats) (fun _ => True) (propertiesOfEntries reading read entries) := by
  induction entries generalizing read with
  | nil => exact hr
  | cons entry rest ih =>
    obtain ⟨hfirst, hrest⟩ := List.forall_mem_cons.mp h
    obtain ⟨hname, hnames⟩ := List.forall_mem_cons.mp hn
    have hentry : Yields (fun property => names property.1 ∧ MadeOf names floats property.2) (fun _ => True)
        (propertyOfEntry reading entry) := by
      rw [propertyOfEntry]
      refine (Yields.self entry.1.text fun _ => trivial).bind fun name hn => ?_
      exact (hfirst.schema reading).bind fun schema hs => .pure ⟨hname name hn, hs⟩
    rw [propertiesOfEntries]
    refine hentry.bind fun property hp => ih hnames hrest ⟨hr.1.put property.2 hp.1, fun other ho => ?_⟩
    rcases Keyed.mem_put ho with rfl | ho
    · exact hp.2
    · exact hr.2 other ho

/-- What is read of schemas is made as it is read, whatever the value is. -/
theorem yielding (value : Value) (hv : value.Within names floats) : Yielding names floats value := by
  have hnone : PropertiesMade names floats [] := ⟨⟨List.nodup_nil, nofun⟩, nofun⟩
  -- The readers of schemas call each other only on what a value consists of, so they are followed all at
  -- once.
  induction value using Value.induction with
  | null =>
    refine ⟨hv, fun reading => ?_, fun reading => ?_, fun reading => ?_⟩
    · cases reading
      · exact madeOf_empty
      · trivial
    · cases reading
      · exact nofun
      · trivial
    · cases reading
      · exact hnone
      · trivial
  | bool | number | string => exact ⟨hv, fun _ => trivial, fun _ => trivial, fun _ => trivial⟩
  | sequence items ih =>
    cases hv with
    | sequence hv =>
      have hall : ∀ item ∈ items, Yielding names floats item := fun item hm => ih item hm (hv item hm)
      refine ⟨.sequence hv, fun reading => ?_, fun reading => ?_, fun _ => trivial⟩
      · cases reading
        · trivial
        · exact yields_schemaOfItems hall Schema.fieldNames madeOf_empty
      · rw [schemasOf, schemasOfItems_eq]
        exact Yields.mapM fun item hm => (hall item hm).schema reading
  | mapping entries ih =>
    cases hv with
    | mapping hn hv =>
      have hall : ∀ entry ∈ entries, Yielding names floats entry.2 :=
        fun entry he => ih entry he (hv entry he)
      refine ⟨.mapping hn hv, fun reading => ?_, fun _ => trivial, fun reading => ?_⟩
      · exact yields_schemaOfEntries hall reading [] madeOf_empty
      · exact yields_propertiesOfEntries hn hall reading hnone
  | tagged tag value ih =>
    cases hv with
    | tagged _ hv =>
      have hvalue := ih hv
      exact ⟨.tagged tag hv, hvalue.schema, hvalue.schemas, hvalue.properties⟩

theorem gives_schema (reading : Reading) :
    Value.Gives names floats (schemaOf reading) (MadeOf names floats) :=
  fun value hv => (yielding value hv).schema reading

/-! ### Reading documents -/

/-- A parameter as it is read. -/
def Parameter.Made (names : String → Prop) (floats : Float → Prop) (parameter : Parameter) : Prop :=
  ∀ schema, parameter.schema = some schema → MadeOf names floats schema

/-- A request body as it is read. -/
structure RequestBody.Made (names : String → Prop) (floats : Float → Prop) (body : RequestBody) : Prop where
  content : Keyed.Distinct names body.content
  schema : ∀ media ∈ body.content, ∀ schema, media.2 = some schema → MadeOf names floats schema

/-- An operation as it is read. -/
structure Operation.Made (names : String → Prop) (floats : Float → Prop) (operation : Operation) : Prop where
  parameters : ∀ parameter ∈ operation.parameters, parameter.Made names floats
  body : ∀ body, operation.requestBody = some body → body.Made names floats

/-- A path as it is read. -/
structure PathItem.Made (names : String → Prop) (floats : Float → Prop) (item : PathItem) : Prop where
  operations : ∀ operation ∈ item.operations, operation.Made names floats
  parameters : ∀ parameter ∈ item.parameters, parameter.Made names floats

/-- A document as it is read. -/
structure Document.Made (names : String → Prop) (floats : Float → Prop) (document : Document) : Prop where
  paths : Keyed.Distinct names document.paths
  schemas : Keyed.Distinct names document.components.schemas
  parameters : Keyed.Distinct names document.components.parameters
  requestBodies : Keyed.Distinct names document.components.requestBodies
  schema : ∀ schema, document.Holds schema → MadeOf names floats schema
  content : ∀ body, document.HoldsBody body → Keyed.Distinct names body.content

open Yaml.Value (Gives gives_fields)

theorem gives_parameter : Gives names floats (Parameter.ofValue .lenient) (Parameter.Made names floats) := by
  intro value hv
  refine (gives_fields value hv).bind fun given hg => ?_
  refine (yields_any _).bind fun _ _ => (yields_any _).bind fun _ _ => (yields_any _).bind fun _ _ => ?_
  refine (yields_any _).bind fun _ _ => (yields_any _).bind fun _ _ => ?_
  exact ((gives_schema .lenient).optionalField (fun entry he => (hg entry he).2) "schema").bind
    fun _ hs => .pure hs

theorem gives_mediaType : Gives names floats (mediaType .lenient) fun schema? =>
    ∀ schema, schema? = some schema → MadeOf names floats schema := by
  intro value hv
  refine (gives_fields value hv).bind fun given hg => ?_
  exact (gives_schema .lenient).optionalField (fun entry he => (hg entry he).2) "schema"

theorem gives_requestBody :
    Gives names floats (RequestBody.ofValue .lenient) (RequestBody.Made names floats) := by
  intro value hv
  refine (gives_fields value hv).bind fun given hg => ?_
  have hwithin : ∀ entry ∈ given, entry.2.Within names floats := fun entry he => (hg entry he).2
  refine (yields_any _).bind fun _ _ => (yields_any _).bind fun _ _ => ?_
  refine (gives_mediaType.namedField hwithin "content").bind fun _ hc => ?_
  exact (yields_any _).bind fun _ _ => .pure ⟨hc.1, hc.2⟩

theorem gives_operation : Gives names floats Operation.ofValue (Operation.Made names floats) := by
  intro value hv
  refine (gives_fields value hv).bind fun given hg => ?_
  have hwithin : ∀ entry ∈ given, entry.2.Within names floats := fun entry he => (hg entry he).2
  refine (yields_any _).bind fun _ _ => (yields_any _).bind fun _ _ => ?_
  refine (gives_parameter.listField hwithin "parameters").bind fun _ hp => ?_
  exact (gives_requestBody.optionalField hwithin "requestBody").bind fun _ hb => .pure ⟨hp, hb⟩

theorem gives_pathItem : Gives names floats PathItem.ofValue (PathItem.Made names floats) := by
  intro value hv
  refine (gives_fields value hv).bind fun given hg => ?_
  have hwithin : ∀ entry ∈ given, entry.2.Within names floats := fun entry he => (hg entry he).2
  have hverb (name : String) := gives_operation.optionalField hwithin name
  refine (hverb "get").bind fun _ hget => (hverb "post").bind fun _ hpost =>
    (hverb "put").bind fun _ hput => ?_
  refine (hverb "delete").bind fun _ hdelete => (hverb "patch").bind fun _ hpatch => ?_
  refine (gives_parameter.listField hwithin "parameters").bind fun _ hp => .pure ⟨fun operation ho => ?_, hp⟩
  simp only [PathItem.operations, List.mem_append, Option.mem_toList] at ho
  rcases ho with (((ho | ho) | ho) | ho) | ho
  · exact hget operation ho
  · exact hpost operation ho
  · exact hput operation ho
  · exact hdelete operation ho
  · exact hpatch operation ho

namespace Document.Made
variable {document : Document} (h : document.Made names floats)
include h

theorem parameter {parameter : Parameter} (hp : document.HoldsParameter parameter) :
    parameter.Made names floats :=
  fun schema hs => h.schema schema (.parameter hp hs)

theorem body {body : RequestBody} (hb : document.HoldsBody body) : body.Made names floats where
  content := h.content body hb
  schema media hm schema hs := h.schema schema (.body hb (show (media.1, some schema) ∈ _ from hs ▸ hm))

theorem path {entry : String × PathItem} (he : entry ∈ document.paths) : entry.2.Made names floats where
  operations _ ho :=
    ⟨fun _ hp => h.parameter (.operation he ho hp), fun _ hb => h.body (.operation he ho hb)⟩
  parameters _ hp := h.parameter (.path he hp)

end Document.Made

/-- What the components of a document are as they are read. -/
structure Components.Made (names : String → Prop) (floats : Float → Prop)
    (components : Components) : Prop where
  schemas : PropertiesMade names floats components.schemas
  parameters : Keyed.Distinct names components.parameters ∧
    ∀ entry ∈ components.parameters, entry.2.Made names floats
  requestBodies : Keyed.Distinct names components.requestBodies ∧
    ∀ entry ∈ components.requestBodies, entry.2.Made names floats

theorem gives_components : Gives names floats Components.ofValue (Components.Made names floats) := by
  intro value hv
  refine (gives_fields value hv).bind fun given hg => ?_
  have hwithin : ∀ entry ∈ given, entry.2.Within names floats := fun entry he => (hg entry he).2
  refine ((gives_schema .lenient).namedField hwithin "schemas").bind fun _ hs => ?_
  refine (gives_parameter.namedField hwithin "parameters").bind fun _ hp => ?_
  refine (gives_requestBody.namedField hwithin "requestBodies").bind fun _ hb => ?_
  exact .pure ⟨hs, hp, hb⟩

theorem Document.made_of_parts {document : Document} (hd : Keyed.Distinct names document.paths)
    (hp : ∀ entry ∈ document.paths, entry.2.Made names floats) (hc : document.components.Made names floats) :
    document.Made names floats := by
  have hparameter : ∀ parameter, document.HoldsParameter parameter → parameter.Made names floats := by
    intro parameter h
    cases h with
    | path hm hq => exact (hp _ hm).parameters parameter hq
    | operation hm ho hq => exact ((hp _ hm).operations _ ho).parameters parameter hq
    | component hm => exact hc.parameters.2 _ hm
  have hbody : ∀ body, document.HoldsBody body → body.Made names floats := by
    intro body h
    cases h with
    | operation hm ho hq => exact ((hp _ hm).operations _ ho).body body hq
    | component hm => exact hc.requestBodies.2 _ hm
  refine ⟨hd, hc.schemas.1, hc.parameters.1, hc.requestBodies.1, fun schema h => ?_,
    fun body h => (hbody body h).content⟩
  induction h with
  | component hm => exact hc.schemas.2 _ hm
  | parameter hq hs => exact hparameter _ hq _ hs
  | body hb hm => exact (hbody _ hb).schema _ hm _ rfl
  | property _ hm ih =>
    cases ih with
    | intro _ properties => exact properties _ hm
  | items _ hi ih =>
    cases ih with
    | intro _ _ items => exact items _ hi
  | additional _ ha ih =>
    cases ih with
    | intro _ _ _ additional => exact additional _ (Schema.additionalSchema_eq_some.mp ha)
  | branch _ hm ih =>
    cases ih with
    | intro _ _ _ _ allOf oneOf anyOf not =>
      simp only [List.mem_append, Option.mem_toList] at hm
      rcases hm with ((hm | hm) | hm) | hm
      · exact allOf _ hm
      · exact oneOf _ hm
      · exact anyOf _ hm
      · exact not _ hm

/-- A document is made as it is read, whatever the value is. -/
theorem gives_document : Gives names floats Document.ofValue (Document.Made names floats) := by
  have hnone : Components.Made names floats {} :=
    ⟨⟨⟨List.nodup_nil, nofun⟩, nofun⟩, ⟨⟨List.nodup_nil, nofun⟩, nofun⟩, ⟨⟨List.nodup_nil, nofun⟩, nofun⟩⟩
  intro value hv
  refine (gives_fields value hv).bind fun given hg => ?_
  have hwithin : ∀ entry ∈ given, entry.2.Within names floats := fun entry he => (hg entry he).2
  refine (yields_any _).bind fun _ _ => (yields_any _).bind fun _ _ => ?_
  refine (gives_pathItem.namedField hwithin "paths").bind fun _ hp => ?_
  refine (gives_components.field hwithin "components" hnone).bind fun _ hc => ?_
  exact .pure (Document.made_of_parts hp.1 hp.2 hc)

end

end OpenApi

end CrdForge
