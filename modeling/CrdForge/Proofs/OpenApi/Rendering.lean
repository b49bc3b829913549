import CrdForge.Proofs.OpenApi.Made
import CrdForge.Proofs.Yaml.FromJson

/-! Documents are read from what is written for them.

A schema is written as the list of those of its fields that say something, and reading one of them takes
over what it says. What is written for a default or an example that is null is taken for none, and a
float that is not finite is written as null. -/
namespace CrdForge.OpenApi

open Json (array? given object? optional)
open Yaml (Value)
open Yaml.Value (ofJson)

/-! ### What is written -/

theorem schemaJson?_eq (schema : Option Schema) : schemaJson? schema = schema.map Schema.toJson := by
  cases schema <;> rfl

theorem schemasJson_eq (schemas : List Schema) : schemasJson schemas = schemas.map Schema.toJson := by
  induction schemas with
  | nil => rfl
  | cons schema rest ih => rw [schemasJson, ih, List.map_cons]

theorem propertiesJson_eq (properties : List (String × Schema)) :
    propertiesJson properties = properties.map fun (name, schema) => (name, schema.toJson) := by
  induction properties with
  | nil => rfl
  | cons property rest ih => rw [propertiesJson, ih, List.map_cons, propertyJson]

theorem additionalJson?_eq (additional : Option (Additional Schema)) :
    additionalJson? additional = additional.map additionalJson := by
  cases additional <;> rfl

namespace Schema

/-- What is written for a field. -/
def field? (schema : Schema) (name : String) : Option Json :=
  match name with
  | "$ref" => schema.reference.map .string
  | "type" => schema.type.map TypeNames.toJson
  | "format" => schema.format.map .string
  | "title" => schema.title.map .string
  | "description" => schema.description.map .string
  | "default" => schema.default
  | "example" => schema.sample
  | "enum" => array? schema.enumeration
  | "multipleOf" => schema.multipleOf.map Json.ofFloat
  | "required" => array? (schema.required.map .string)
  | "readOnly" => some (.bool schema.readOnly)
  | "items" => schema.items.map toJson
  | "properties" => object? (schema.properties.map fun (name, schema) => (name, schema.toJson))
  | "additionalProperties" => schema.additional.map additionalJson
  | "allOf" => array? (schema.allOf.map toJson)
  | "oneOf" => array? (schema.oneOf.map toJson)
  | "anyOf" => array? (schema.anyOf.map toJson)
  | "not" => schema.not.map toJson
  | _ => none

theorem toJson_eq (schema : Schema) : schema.toJson = .object (given fieldNames schema.field?) := by
  cases schema
  simp only [toJson, Json.listed_eq, Json.mapped_eq, schemaJson?_eq, schemasJson_eq, propertiesJson_eq,
    additionalJson?_eq, List.append_assoc, fieldNames, given, List.flatMap_cons,
    List.flatMap_nil, List.append_nil,
    field?]
  rfl

/-- What is read again: no name stands twice, JSON is sorted and not null in
place of nothing, and floats are finite. -/
structure Writable (schema : Schema) : Prop where
  properties : (Keyed.keys schema.properties).Nodup
  default : ∀ value, schema.default = some value → value.Tidy (fun _ => True) ∧ value ≠ .null
  sample : ∀ value, schema.sample = some value → value.Tidy (fun _ => True) ∧ value ≠ .null
  enumeration : ∀ value ∈ schema.enumeration, value.Tidy (fun _ => True)
  multipleOf : ∀ unit, schema.multipleOf = some unit → unit.isFinite = true

/-- The schema with what another one says of a field, if that says something. -/
def take (schema other : Schema) (name : String) : Schema :=
  let filled {α : Type} (items otherwise : List α) : List α := if items.isEmpty then otherwise else items
  match name with
  | "$ref" => { schema with reference := other.reference.or schema.reference }
  | "type" => { schema with type := other.type.or schema.type }
  | "format" => { schema with format := other.format.or schema.format }
  | "title" => { schema with title := other.title.or schema.title }
  | "description" => { schema with description := other.description.or schema.description }
  | "default" => { schema with default := other.default.or schema.default }
  | "example" => { schema with sample := other.sample.or schema.sample }
  | "enum" => { schema with enumeration := filled other.enumeration schema.enumeration }
  | "multipleOf" => { schema with multipleOf := other.multipleOf.or schema.multipleOf }
  | "required" => { schema with required := filled other.required schema.required }
  | "readOnly" => { schema with readOnly := other.readOnly }
  | "items" => { schema with items := other.items.or schema.items }
  | "properties" => { schema with properties := filled other.properties schema.properties }
  | "additionalProperties" => { schema with additional := other.additional.or schema.additional }
  | "allOf" => { schema with allOf := filled other.allOf schema.allOf }
  | "oneOf" => { schema with oneOf := filled other.oneOf schema.oneOf }
  | "anyOf" => { schema with anyOf := filled other.anyOf schema.anyOf }
  | "not" => { schema with not := other.not.or schema.not }
  | _ => schema

theorem foldl_take (schema : Schema) :
    fieldNames.foldl (fun read name => take read schema name) {} = schema := by
  have hfilled {α : Type} (items : List α) : (if items.isEmpty then [] else items) = items := by
    cases items <;> rfl
  cases schema
  simp only [fieldNames, List.foldl_cons, List.foldl_nil, take, Option.or_none, hfilled]

end Schema

/-! ### Nested schemas -/

/-- Whether a schema is read from what is written for it, in whatever way. -/
def Restored (schema : Schema) : Prop := ∀ reading, schemaOf reading (ofJson schema.toJson) = .ok schema

theorem schemasOf_ofJson {schemas : List Schema} (h : ∀ schema ∈ schemas, Restored schema)
    (reading : Reading) :
    schemasOf reading (ofJson (.array (schemas.map Schema.toJson))) = .ok schemas := by
  rw [ofJson, schemasOf, Yaml.Value.itemsOfJson_eq, schemasOfItems_eq, List.map_map]
  exact Run.mapM_ok_iff.mpr
    (List.forall₂_map_left_iff.mpr (List.forall₂_same.mpr fun schema hm => h schema hm reading))

theorem propertiesOfEntries_ofJson {properties : List (String × Schema)}
    (h : ∀ property ∈ properties, Restored property.2) (reading : Reading) (read : List (String × Schema)) :
    propertiesOfEntries reading read
        (Yaml.Value.entriesOfJson (properties.map fun (name, schema) => (name, schema.toJson))) =
      .ok (properties.foldl (fun read property => Keyed.put property.1 property.2 read) read) := by
  induction properties generalizing read with
  | nil => rfl
  | cons property rest ih =>
    have hfirst : propertyOfEntry reading (.string property.1, ofJson property.2.toJson) = .ok property := by
      rw [propertyOfEntry, h property (List.mem_cons_self ..) reading]
      rfl
    rw [List.map_cons, Yaml.Value.entriesOfJson, Yaml.Value.entryOfJson, propertiesOfEntries,
      Run.bind_of_ok hfirst]
    exact ih (fun property hp => h property (List.mem_cons_of_mem _ hp)) _

theorem propertiesOf_ofJson {properties : List (String × Schema)} (hd : (Keyed.keys properties).Nodup)
    (h : ∀ property ∈ properties, Restored property.2) (reading : Reading) :
    propertiesOf reading (ofJson (.object (properties.map fun (name, schema) => (name, schema.toJson)))) =
      .ok properties := by
  rw [ofJson, propertiesOf, propertiesOfEntries_ofJson h]
  exact congrArg Except.ok (Keyed.foldl_put_eq (show (Keyed.keys ([] ++ properties)).Nodup from hd))

/-! ### Fields -/

section
variable {α : Type} {read : Schema}

/-- A value that is kept, or else what there was before. -/
theorem elim_or {value kept : Option α} {step : α → Except Yaml.Misfit Schema} (put : Option α → Schema)
    (hkept : put kept = read) (h : ∀ a, value = some a → step a = .ok (put (some a))) :
    value.elim (.ok read) step = .ok (put (value.or kept)) := by
  cases value with
  | none => exact congrArg Except.ok hkept.symm
  | some a => exact h a rfl

variable {step : Json → Except Yaml.Misfit Schema}

/-- A field for a value that may be left out. -/
theorem elim_optional {value kept : Option α} {write : α → Json} (put : Option α → Schema)
    (hkept : put kept = read) (h : ∀ a, value = some a → step (write a) = .ok (put (some a))) :
    (value.map write).elim (.ok read) step = .ok (put (value.or kept)) :=
  (Option.elim_map ..).trans (elim_or put hkept h)

/-- A field for a list that may be left out. -/
theorem elim_list {items kept : List α} {values : List Json} (put : List α → Schema) (hkept : put kept = read)
    (he : values.isEmpty = items.isEmpty) (h : step (.array values) = .ok (put items)) :
    (array? values).elim (.ok read) step = .ok (put (if items.isEmpty then kept else items)) := by
  rw [array?, he]
  split
  · exact congrArg Except.ok hkept.symm
  · exact h

/-- Properties, which are left out when there are none. -/
theorem elim_properties {properties kept : List (String × Schema)} (put : List (String × Schema) → Schema)
    (hkept : put kept = read)
    (h : step (.object (properties.map fun (name, schema) => (name, schema.toJson))) = .ok (put properties)) :
    (object? (properties.map fun (name, schema) => (name, schema.toJson))).elim (.ok read) step =
      .ok (put (if properties.isEmpty then kept else properties)) := by
  rw [object?, List.isEmpty_map]
  split
  · exact congrArg Except.ok hkept.symm
  · exact h

end

theorem typeNames_ofJson (names : TypeNames) : typeNames (ofJson names.toJson) = .ok names := by
  cases names with
  | one name => rfl
  | many names =>
    rw [TypeNames.toJson, Json.strings, ofJson, typeNames, Yaml.Value.itemsOfJson_eq, List.map_map]
    refine (congrArg (TypeNames.many <$> ·) (?_ : _ = Except.ok names)).trans rfl
    exact Run.mapM_ok_iff.mpr (List.forall₂_map_left_iff.mpr (List.forall₂_same.mpr fun _ _ => rfl))

theorem plainList_ofJson {α : Type} {items : List α} {write : α → Json} {read : Value → Except Yaml.Misfit α}
    (reading : Reading) (h : ∀ item ∈ items, read (ofJson (write item)) = .ok item) :
    plainList reading read (ofJson (.array (items.map write))) = .ok items := by
  have hnull : (ofJson (.array (items.map write))).isNull = false := rfl
  rw [plainList, hnull, Bool.and_false, if_neg Bool.false_ne_true, Yaml.Value.list_ofJson h]

/-- What is written for a schema has no tags. -/
theorem additional_ofJson {schema : Schema} (h : Restored schema) {nested : Nested}
    (hn : nested.strictSchema () = schemaOf .strict (ofJson schema.toJson)) :
    additional (ofJson schema.toJson) nested = .ok (.schema schema) := by
  have htag := Yaml.Value.hasTag_ofJson schema.toJson
  unfold additional
  split
  · next hb =>
    rw [Schema.toJson_eq] at hb
    cases hb
  · rw [htag, if_neg Bool.false_ne_true, hn, h]
    rfl

section
variable {schema : Schema} {reading : Reading}

/-- Reading what is written for a field takes over what is said there. -/
theorem schemaOfEntry_field? (h : schema.Writable)
    (properties : ∀ property ∈ schema.properties, Restored property.2)
    (items : ∀ nested, schema.items = some nested → Restored nested)
    (additional : ∀ nested, schema.additional = some (.schema nested) → Restored nested)
    (allOf : ∀ branch ∈ schema.allOf, Restored branch) (oneOf : ∀ branch ∈ schema.oneOf, Restored branch)
    (anyOf : ∀ branch ∈ schema.anyOf, Restored branch)
    (not : ∀ nested, schema.not = some nested → Restored nested) {name : String}
    (hname : name ∈ Schema.fieldNames) (read : Schema) :
    ((schema.field? name).elim (.ok read) fun value =>
      schemaOfEntry reading read name (.string name, ofJson value)) =
      .ok (read.take schema name) := by
  have htype (type : TypeNames) : (ofJson type.toJson).optional typeNames = .ok (some type) :=
    Yaml.Value.optional_ofJson (by cases type <;> nofun) (typeNames_ofJson type)
  have hjson {value : Json} (hv : value.Tidy (fun _ => True) ∧ value ≠ .null) :
      (ofJson value).optional Value.json = .ok (some value) :=
    Yaml.Value.optional_ofJson hv.2 (Yaml.Value.json_ofJson_of_tidy hv.1)
  have hvalues : plainList reading Value.json (ofJson (.array schema.enumeration)) =
      .ok schema.enumeration := by
    conv_lhs => rw [← List.map_id schema.enumeration]
    exact plainList_ofJson reading fun value hm => Yaml.Value.json_ofJson_of_tidy (h.enumeration value hm)
  have hnull (nested : Schema) : (ofJson nested.toJson).isNull = false :=
    Yaml.Value.isNull_ofJson (Schema.toJson_eq nested ▸ nofun)
  have hnested {nested : Schema} (hr : Restored nested) :
      (if (ofJson nested.toJson).isNull = true then .ok none
        else some <$> schemaOf reading (ofJson nested.toJson)) =
        .ok (some nested) := by
    rw [hnull, if_neg Bool.false_ne_true, hr]
    rfl
  have hadditional {nested : Schema} (hr : Restored nested) (parts : Nested)
      (hp : parts.strictSchema () = schemaOf .strict (ofJson nested.toJson)) :
      (if (ofJson nested.toJson).isNull = true then .ok none else
        some <$> OpenApi.additional (ofJson nested.toJson) parts) = .ok (some (.schema nested)) := by
    rw [hnull, if_neg Bool.false_ne_true, additional_ofJson hr hp]
    rfl
  simp only [Schema.fieldNames, List.mem_cons, List.not_mem_nil, or_false] at hname
  rcases hname with
    rfl | rfl | rfl | rfl | rfl | rfl | rfl | rfl | rfl | rfl | rfl | rfl | rfl | rfl | rfl | rfl |
    rfl | rfl <;> simp only [Schema.field?, Schema.take]
  -- A field is either left out, or what was written for it is read and put in its place.
  · exact elim_optional (fun reference => { read with reference }) (by cases read; rfl) fun _ _ => rfl
  · exact elim_optional (fun type => { read with type }) (by cases read; rfl) fun type _ =>
      Run.bind_of_ok (htype type) _
  · exact elim_optional (fun format => { read with format }) (by cases read; rfl) fun _ _ => rfl
  · exact elim_optional (fun title => { read with title }) (by cases read; rfl) fun _ _ => rfl
  · exact elim_optional (fun description => { read with description }) (by cases read; rfl) fun _ _ => rfl
  · exact elim_or (fun default => { read with default }) (by cases read; rfl) fun value hd =>
      Run.bind_of_ok (hjson (h.default value hd)) _
  · exact elim_or (fun sample => { read with sample }) (by cases read; rfl) fun value he =>
      Run.bind_of_ok (hjson (h.sample value he)) _
  · exact elim_list (fun enumeration => { read with enumeration }) (by cases read; rfl) rfl
      (Run.bind_of_ok hvalues _)
  · refine elim_optional (fun multipleOf => { read with multipleOf }) (by cases read; rfl) fun unit hu => ?_
    rw [Json.ofFloat, if_pos (h.multipleOf unit hu)]
    rfl
  · exact elim_list (fun required => { read with required }) (by cases read; rfl) (List.isEmpty_map ..)
      (Run.bind_of_ok (plainList_ofJson reading fun _ _ => rfl) _)
  · rfl
  · exact elim_optional (fun items => { read with items }) (by cases read; rfl) fun nested hi =>
      Run.bind_of_ok (hnested (items nested hi)) _
  · exact elim_properties (fun properties => { read with properties }) (by cases read; rfl)
      (Run.bind_of_ok (propertiesOf_ofJson h.properties properties reading) _)
  · refine elim_optional (fun additional => { read with additional }) (by cases read; rfl) fun found ha => ?_
    cases found with
    | flag allowed => rfl
    | schema nested => exact Run.bind_of_ok (hadditional (additional nested ha) _ rfl) _
  · exact elim_list (fun allOf => { read with allOf }) (by cases read; rfl) (List.isEmpty_map ..)
      (Run.bind_of_ok (schemasOf_ofJson allOf reading) _)
  · exact elim_list (fun oneOf => { read with oneOf }) (by cases read; rfl) (List.isEmpty_map ..)
      (Run.bind_of_ok (schemasOf_ofJson oneOf reading) _)
  · exact elim_list (fun anyOf => { read with anyOf }) (by cases read; rfl) (List.isEmpty_map ..)
      (Run.bind_of_ok (schemasOf_ofJson anyOf reading) _)
  · exact elim_optional (fun excluded => { read with not := excluded }) (by cases read; rfl) fun nested hn =>
      Run.bind_of_ok (hnested (not nested hn)) _

/-- Fields that are written one after another are all taken over. -/
theorem schemaOfEntries_given {step : Schema → String → Schema} {field? : String → Option Json}
    {names : List String} (hnames : names.Nodup) {given : List String} (hg : ∀ name ∈ names, name ∉ given)
    (hstep : ∀ name ∈ names, ∀ read, ((field? name).elim (.ok read) fun value =>
      schemaOfEntry reading read name (.string name, ofJson value)) = .ok (step read name)) (read : Schema) :
    schemaOfEntries reading given read (Yaml.Value.entriesOfJson (Json.given names field?)) =
      .ok (names.foldl step read) := by
  induction names generalizing given read with
  | nil => rfl
  | cons name rest ih =>
    obtain ⟨hname, hrest⟩ := List.nodup_cons.mp hnames
    have hfirst := hstep name (List.mem_cons_self ..) read
    have hlater : ∀ other ∈ rest, ∀ read, _ := fun other ho => hstep other (List.mem_cons_of_mem _ ho)
    rw [Json.given, List.flatMap_cons, ← Json.given]
    cases hf : field? name with
    | none =>
      rw [hf] at hfirst
      rw [List.foldl_cons, ← Except.ok.inj hfirst]
      exact ih hrest (fun other ho => hg other (List.mem_cons_of_mem _ ho)) hlater read
    | some value =>
      rw [hf] at hfirst
      have hfresh : given.contains name = false := by
        rw [Bool.eq_false_iff, Ne, List.contains_iff_mem]
        exact hg name (List.mem_cons_self ..)
      have hkey : fieldName reading (.string name) = .ok name := by cases reading <;> rfl
      rw [Json.optional, List.singleton_append, Yaml.Value.entriesOfJson,
        Yaml.Value.entryOfJson, schemaOfEntries, Run.bind_of_ok hkey]
      simp only [hfresh, Bool.false_and, if_neg Bool.false_ne_true]
      refine (Run.bind_of_ok hfirst _).trans (ih hrest (fun other ho hm => ?_) hlater _)
      rcases List.mem_cons.mp hm with rfl | hm
      · exact hname ho
      · exact hg other (List.mem_cons_of_mem _ ho) hm

end

/-- A schema is read from what is written for it. -/
theorem restored_of_writable {schema : Schema} (h : schema.Everywhere Schema.Writable) : Restored schema := by
  induction h with
  | @intro schema self _ _ _ _ _ _ _ properties items additional allOf oneOf anyOf not =>
    intro reading
    -- Whatever is nested is restored already, so all fields are taken over, and these are the whole schema.
    rw [Schema.toJson_eq, ofJson, schemaOf, schemaOfEntries_given (by decide) (fun _ _ => List.not_mem_nil)
      fun name hn => schemaOfEntry_field? self properties items additional allOf oneOf anyOf not hn,
      Schema.foldl_take]

/-! ### Everything else -/

section
open Yaml.Value (fields_ofJson field_text field_text? field_flag field_optional field_list
  field_named field_value)

theorem schema_ne_null (schema : Schema) : schema.toJson ≠ .null := by
  rw [Schema.toJson_eq]
  exact nofun

theorem Parameter.ofValue_toJson {parameter : Parameter}
    (h : ∀ schema, parameter.schema = some schema → Restored schema) :
    ofValue .lenient (ofJson parameter.toJson) = .ok parameter := by
  have hschema : ∀ schema, parameter.schema = some schema → _ := fun schema hs =>
    And.intro (schema_ne_null schema) (h schema hs .lenient)
  refine (Run.bind_of_ok (fields_ofJson _) _).trans ?_
  refine (Run.bind_of_ok (field_text? parameter.reference (by simp)) _).trans ?_
  refine (Run.bind_of_ok (field_text parameter.name (by simp)) _).trans ?_
  refine (Run.bind_of_ok (field_text parameter.location (by simp)) _).trans ?_
  refine (Run.bind_of_ok (field_text? parameter.description (by simp)) _).trans ?_
  refine (Run.bind_of_ok (field_flag parameter.required (by simp)) _).trans ?_
  exact Run.bind_of_ok (field_optional parameter.schema (by simp) hschema) _

theorem mediaType_ofJson {schema : Option Schema} (h : ∀ given, schema = some given → Restored given) :
    mediaType .lenient (ofJson (mediaTypeJson schema)) = .ok schema := by
  refine (Run.bind_of_ok (fields_ofJson _) _).trans ?_
  exact field_optional schema (by simp) fun given hs => ⟨schema_ne_null given, h given hs .lenient⟩

theorem RequestBody.ofValue_toJson {body : RequestBody} (hd : (Keyed.keys body.content).Nodup)
    (h : ∀ media ∈ body.content, ∀ schema, media.2 = some schema → Restored schema) :
    ofValue .lenient (ofJson body.toJson) = .ok body := by
  refine (Run.bind_of_ok (fields_ofJson _) _).trans ?_
  refine (Run.bind_of_ok (field_text? body.reference (by simp)) _).trans ?_
  refine (Run.bind_of_ok (field_text? body.description (by simp)) _).trans ?_
  refine (Run.bind_of_ok (field_named body.content (by simp) hd fun media hm =>
    mediaType_ofJson (h media hm)) _).trans ?_
  exact Run.bind_of_ok (field_flag body.required (by simp)) _

theorem Operation.ofValue_toJson {operation : Operation}
    (hp : ∀ parameter ∈ operation.parameters,
      Parameter.ofValue .lenient (ofJson parameter.toJson) = .ok parameter)
    (hb : ∀ body, operation.requestBody = some body →
      RequestBody.ofValue .lenient (ofJson body.toJson) = .ok body) :
    ofValue (ofJson operation.toJson) = .ok operation := by
  have hbody : ∀ body, operation.requestBody = some body → body.toJson ≠ .null ∧ _ := fun body hs =>
    ⟨nofun, hb body hs⟩
  refine (Run.bind_of_ok (fields_ofJson _) _).trans ?_
  refine (Run.bind_of_ok (field_text? operation.operationId (by simp)) _).trans ?_
  refine (Run.bind_of_ok (field_text? operation.summary (by simp)) _).trans ?_
  refine (Run.bind_of_ok (field_list operation.parameters (by simp) hp) _).trans ?_
  exact Run.bind_of_ok (field_optional operation.requestBody (by simp) hbody) _

theorem PathItem.ofValue_toJson {item : PathItem}
    (ho : ∀ operation ∈ item.operations, Operation.ofValue (ofJson operation.toJson) = .ok operation)
    (hp : ∀ parameter ∈ item.parameters,
      Parameter.ofValue .lenient (ofJson parameter.toJson) = .ok parameter) :
    ofValue (ofJson item.toJson) = .ok item := by
  have hverb {verb : Option Operation}
    (hv : ∀ operation, verb = some operation → operation ∈ item.operations) :
      ∀ operation, verb = some operation → operation.toJson ≠ .null ∧ _ := fun operation hs =>
    ⟨nofun, ho operation (hv operation hs)⟩
  refine (Run.bind_of_ok (fields_ofJson _) _).trans ?_
  refine (Run.bind_of_ok (field_optional item.get (by simp) (hverb fun _ hs => by simp [operations, hs]))
    _).trans ?_
  refine (Run.bind_of_ok (field_optional item.post (by simp) (hverb fun _ hs => by simp [operations, hs]))
    _).trans ?_
  refine (Run.bind_of_ok (field_optional item.put (by simp) (hverb fun _ hs => by simp [operations, hs]))
    _).trans ?_
  refine (Run.bind_of_ok
    (field_optional item.delete (by simp) (hverb fun _ hs => by simp [operations, hs])) _).trans ?_
  refine (Run.bind_of_ok
    (field_optional item.patch (by simp) (hverb fun _ hs => by simp [operations, hs])) _).trans ?_
  exact Run.bind_of_ok (field_list item.parameters (by simp) hp) _

theorem Info.ofValue_ofJson (info : Info) :
    ofValue (ofJson (.object [("title", .string info.title), ("version", .string info.version)])) =
      .ok info := by
  refine (Run.bind_of_ok (fields_ofJson _) _).trans ?_
  refine (Run.bind_of_ok (field_text info.title (by simp)) _).trans ?_
  exact Run.bind_of_ok (field_text info.version (by simp)) _

/-- A document is read from what is written for it if its schemas are. -/
theorem Document.ofValue_toJson {names : String → Prop} {floats : Float → Prop} {document : Document}
    (h : document.Made names floats) (hs : ∀ schema, document.Holds schema → Restored schema) :
    ofValue (ofJson document.toJson) = .ok document := by
  have hparameter : ∀ parameter, document.HoldsParameter parameter →
      Parameter.ofValue .lenient (ofJson parameter.toJson) = .ok parameter := fun parameter hp =>
    parameter.ofValue_toJson fun schema hschema => hs schema (.parameter hp hschema)
  have hbody : ∀ body, document.HoldsBody body →
      RequestBody.ofValue .lenient (ofJson body.toJson) = .ok body :=
    fun body hb => body.ofValue_toJson (h.content body hb).nodup fun media hm schema hschema =>
      hs schema (.body hb (show (media.1, some schema) ∈ _ from hschema ▸ hm))
  have hpath : ∀ entry ∈ document.paths,
    PathItem.ofValue (ofJson entry.2.toJson) = .ok entry.2 := fun entry he =>
    entry.2.ofValue_toJson (fun operation ho => operation.ofValue_toJson
      (fun parameter hp => hparameter parameter (.operation he ho hp))
      fun body hb => hbody body (.operation he ho hb)) fun parameter hp => hparameter parameter (.path he hp)
  have hcomponents : Components.ofValue (ofJson (.object [
      ("schemas", namedJson Schema.toJson document.components.schemas),
      ("parameters", namedJson Parameter.toJson document.components.parameters),
      ("requestBodies", namedJson RequestBody.toJson document.components.requestBodies)])) =
        .ok document.components := by
    refine (Run.bind_of_ok (fields_ofJson _) _).trans ?_
    refine (Run.bind_of_ok (field_named document.components.schemas (by simp) h.schemas.nodup
      fun entry he => hs entry.2 (.component he) .lenient) _).trans ?_
    refine (Run.bind_of_ok (field_named document.components.parameters (by simp) h.parameters.nodup
      fun entry he => hparameter entry.2 (.component he)) _).trans ?_
    exact Run.bind_of_ok (field_named document.components.requestBodies (by simp) h.requestBodies.nodup
      fun entry he => hbody entry.2 (.component he)) _
  refine (Run.bind_of_ok (fields_ofJson _) _).trans ?_
  refine (Run.bind_of_ok (field_text document.version (by simp)) _).trans ?_
  refine (Run.bind_of_ok (field_value _ (by simp) document.info.ofValue_ofJson) _).trans ?_
  refine (Run.bind_of_ok (field_named document.paths (by simp) h.paths.nodup hpath) _).trans ?_
  exact Run.bind_of_ok (field_value _ (by simp) hcomponents) _

end

end CrdForge.OpenApi
