import CrdForge.Crd.Decode
import CrdForge.Proofs.Crd.Nesting
import CrdForge.Proofs.Json.Entries
import CrdForge.Proofs.Json.Keywords

/-! Schemas are read from what is written for them.

Of a schema everything is written but the names that nodes have of their own. -/
namespace CrdForge.Crd

open Json (array? given object? optional)

/-! ### Schemas without names of their own -/

mutual
/-- The schema in which no node has a name of its own. -/
def Schema.withoutIds : Schema → Schema
  | ⟨_, type, format, title, description, default, sample, enumeration, multipleOf, required,
      items, properties, additional, allOf, oneOf, anyOf, not, preserveUnknown, listType,
      listMapKeys, rules⟩ =>
    ⟨none, type, format, title, description, default, sample, enumeration, multipleOf, required,
      schemaWithoutIds? items, propertiesWithoutIds properties, additionalWithoutIds? additional,
      schemasWithoutIds allOf, schemasWithoutIds oneOf, schemasWithoutIds anyOf, schemaWithoutIds? not,
      preserveUnknown, listType, listMapKeys, rules⟩
termination_by structural x => x

def schemaWithoutIds? : Option Schema → Option Schema
  | none => none
  | some schema => some schema.withoutIds
termination_by structural x => x

def schemasWithoutIds : List Schema → List Schema
  | [] => []
  | schema :: rest => schema.withoutIds :: schemasWithoutIds rest
termination_by structural x => x

def propertiesWithoutIds : List (String × Schema) → List (String × Schema)
  | [] => []
  | property :: rest => propertyWithoutIds property :: propertiesWithoutIds rest
termination_by structural x => x

def propertyWithoutIds : String × Schema → String × Schema
  | (name, schema) => (name, schema.withoutIds)
termination_by structural x => x

def additionalWithoutIds? : Option (Additional Schema) → Option (Additional Schema)
  | none => none
  | some additional => some (additionalWithoutIds additional)
termination_by structural x => x

def additionalWithoutIds : Additional Schema → Additional Schema
  | .flag allowed => .flag allowed
  | .schema schema => .schema schema.withoutIds
termination_by structural x => x
end

theorem schemaWithoutIds?_eq (schema : Option Schema) :
    schemaWithoutIds? schema = schema.map Schema.withoutIds := by
  cases schema <;> rfl

theorem schemasWithoutIds_eq (schemas : List Schema) :
    schemasWithoutIds schemas = schemas.map Schema.withoutIds := by
  induction schemas with
  | nil => rfl
  | cons schema rest ih => rw [schemasWithoutIds, ih, List.map_cons]

theorem propertiesWithoutIds_eq (properties : List (String × Schema)) : propertiesWithoutIds properties =
    properties.map fun (name, schema) => (name, schema.withoutIds) := by
  induction properties with
  | nil => rfl
  | cons property rest ih => rw [propertiesWithoutIds, ih, List.map_cons, propertyWithoutIds]

theorem additionalWithoutIds?_eq (additional : Option (Additional Schema)) :
    additionalWithoutIds? additional = additional.map (·.map Schema.withoutIds) := by
  rcases additional with _ | _ | _ <;> rfl

theorem Schema.withoutIds_eq (schema : Schema) : schema.withoutIds = { schema with
    id := none
    items := schema.items.map withoutIds
    properties := schema.properties.map fun (name, schema) => (name, schema.withoutIds)
    additional := schema.additional.map (·.map withoutIds)
    allOf := schema.allOf.map withoutIds
    oneOf := schema.oneOf.map withoutIds
    anyOf := schema.anyOf.map withoutIds
    not := schema.not.map withoutIds } := by
  cases schema
  simp only [withoutIds, schemaWithoutIds?_eq, schemasWithoutIds_eq, propertiesWithoutIds_eq,
    additionalWithoutIds?_eq]

namespace Schema

theorem sizeOf_excluded {schema node : Schema} (h : schema.not = some node) :
    sizeOf node < sizeOf schema := by
  cases schema
  cases h
  simp only [Schema.mk.sizeOf_spec, Option.some.sizeOf_spec]
  omega

theorem sizeOf_nested {schema node : Schema} (h : node ∈ schema.nested) : sizeOf node < sizeOf schema := by
  simp only [nested, branches, List.mem_append, List.mem_map, Option.mem_toList] at h
  rcases h with (⟨⟨name, property⟩, hm, rfl⟩ | hi) | (hb | he) | ha
  · exact sizeOf_property hm
  · exact sizeOf_items hi
  · exact sizeOf_branch (List.mem_append.mpr (hb.imp_left List.mem_append.mpr))
  · exact sizeOf_excluded he
  · refine sizeOf_additional ?_
    rw [additionalSchema?] at ha
    split at ha
    · next h => exact h.trans (congrArg _ (congrArg _ (Option.some.inj ha)))
    · cases ha

end Schema

/-! ### What is written -/

theorem schemaJson?_eq (schema : Option Schema) : schemaJson? schema = schema.map Schema.toJson := by
  cases schema <;> rfl

theorem schemasJson_eq (schemas : List Schema) : schemasJson schemas = schemas.map Schema.toJson := by
  induction schemas with
  | nil => rfl
  | cons schema rest ih => rw [schemasJson, ih, List.map_cons]

theorem propertiesJson_eq (properties : List (String × Schema)) :
    propertiesJson properties = properties.map fun (name, schema) => (name, schema.toJson) := by
  induction properties with
  | nil => rfl
  | cons property rest ih => rw [propertiesJson, ih, List.map_cons, propertyJson]

theorem additionalJson?_eq (additional : Option (Additional Schema)) :
    additionalJson? additional = additional.map additionalJson := by
  cases additional <;> rfl

namespace Schema

/-- What is written for a keyword. -/
def entry? (schema : Schema) (name : String) : Option Json :=
  match name with
  | "type" => schema.type.map .string
  | "format" => schema.format.map .string
  | "title" => schema.title.map .string
  | "description" => schema.description.map .string
  | "default" => schema.default
  | "example" => schema.sample
  | "enum" => array? schema.enumeration
  | "multipleOf" => schema.multipleOf.map Json.ofFloat
  | "required" => array? (schema.required.map .string)
  | "items" => schema.items.map toJson
  | "properties" => object? (schema.properties.map fun (name, schema) => (name, schema.toJson))
  | "additionalProperties" => schema.additional.map additionalJson
  | "allOf" => array? (schema.allOf.map toJson)
  | "oneOf" => array? (schema.oneOf.map toJson)
  | "anyOf" => array? (schema.anyOf.map toJson)
  | "not" => schema.not.map toJson
  | "x-kubernetes-preserve-unknown-fields" => schema.preserveUnknown.map .bool
  | "x-kubernetes-list-type" => schema.listType.map .string
  | "x-kubernetes-list-map-keys" => array? (schema.listMapKeys.map .string)
  | "x-kubernetes-validations" => array? (schema.rules.map Rule.toJson)
  | _ => none

theorem toJson_eq (schema : Schema) : schema.toJson = .object (given entryNames schema.entry?) := by
  cases schema
  simp only [toJson, Json.listed_eq, Json.mapped_eq, schemaJson?_eq, schemasJson_eq, propertiesJson_eq,
    additionalJson?_eq, List.append_assoc, entryNames, given, List.flatMap_cons,
    List.flatMap_nil, List.append_nil,
    entry?]

/-- The names that nodes have of their own are not written. -/
theorem toJson_withoutIds (schema : Schema) : schema.withoutIds.toJson = schema.toJson := by
  have hn : ∀ node ∈ schema.nested, node.withoutIds.toJson = node.toJson :=
    fun node hm => toJson_withoutIds node
  have hbranches {branches : List Schema} (hb : ∀ node ∈ branches, node ∈ schema.nested) :
      (branches.map withoutIds).map toJson = branches.map toJson := by
    rw [List.map_map]
    exact List.map_congr_left fun node hm => hn node (hb node hm)
  rw [toJson_eq, toJson_eq]
  refine congrArg (fun entry? => Json.object (given entryNames entry?)) (funext fun name => ?_)
  rw [withoutIds_eq]
  unfold entry?
  split <;> try rfl
  · rw [Option.map_map]
    exact Option.map_congr fun node hi => hn node (mem_nested_items hi)
  · rw [List.map_map]
    refine congrArg object? (List.map_congr_left fun property hp => ?_)
    exact congrArg (Prod.mk property.1) (hn property.2 (mem_nested_property hp))
  · rcases ha : schema.additional with _ | _ | node
    · rfl
    · rfl
    · exact congrArg some (hn node (mem_nested_branch (mem_branches_additional ha)))
  · exact congrArg array? (hbranches fun node hm => by simp [nested, branches, hm])
  · exact congrArg array? (hbranches fun node hm => by simp [nested, branches, hm])
  · exact congrArg array? (hbranches fun node hm => by simp [nested, branches, hm])
  · rw [Option.map_map]
    exact Option.map_congr fun node he => hn node (by simp [nested, branches, Option.mem_def.mp he])
termination_by sizeOf schema
decreasing_by exact sizeOf_nested hm

/-- The keywords in order. -/
def entriesInOrder : List String := Keyed.ascending entryNames

theorem sorted_toJson (schema : Schema) :
    schema.toJson.sorted = .object
      (given entriesInOrder fun name => (schema.entry? name).map Json.sorted) := by
  rw [toJson_eq]
  exact Json.sorted_object_given (by decide +kernel) (fun name => Keyed.mem_ascending) _

/-! ### What is read -/

/-- What can be told from how a node is written: its properties and the entries of values are sorted, no
value is null, and no number is infinite. -/
structure Readable (schema : Schema) : Prop where
  properties : Keyed.Sorted schema.properties
  default : ∀ value, schema.default = some value → value.sorted = value ∧ value ≠ .null
  sample : ∀ value, schema.sample = some value → value.sorted = value ∧ value ≠ .null
  enumeration : ∀ value ∈ schema.enumeration, value.sorted = value
  multipleOf : ∀ unit, schema.multipleOf = some unit → unit.isFinite = true

/-- The schema with what another one says of a keyword, if that says something. -/
def take (schema other : Schema) (name : String) : Schema :=
  let filled {α : Type} (items otherwise : List α) : List α := if items.isEmpty then otherwise else items
  match name with
  | "type" => { schema with type := other.type.or schema.type }
  | "format" => { schema with format := other.format.or schema.format }
  | "title" => { schema with title := other.title.or schema.title }
  | "description" => { schema with description := other.description.or schema.description }
  | "default" => { schema with default := other.default.or schema.default }
  | "example" => { schema with sample := other.sample.or schema.sample }
  | "enum" => { schema with enumeration := filled other.enumeration schema.enumeration }
  | "multipleOf" => { schema with multipleOf := other.multipleOf.or schema.multipleOf }
  | "required" => { schema with required := filled other.required schema.required }
  | "items" => { schema with items := other.items.or schema.items }
  | "properties" => { schema with properties := filled other.properties schema.properties }
  | "additionalProperties" => { schema with additional := other.additional.or schema.additional }
  | "allOf" => { schema with allOf := filled other.allOf schema.allOf }
  | "oneOf" => { schema with oneOf := filled other.oneOf schema.oneOf }
  | "anyOf" => { schema with anyOf := filled other.anyOf schema.anyOf }
  | "not" => { schema with not := other.not.or schema.not }
  | "x-kubernetes-preserve-unknown-fields" =>
    { schema with preserveUnknown := other.preserveUnknown.or schema.preserveUnknown }
  | "x-kubernetes-list-type" => { schema with listType := other.listType.or schema.listType }
  | "x-kubernetes-list-map-keys" => { schema with listMapKeys := filled other.listMapKeys schema.listMapKeys }
  | "x-kubernetes-validations" => { schema with rules := filled other.rules schema.rules }
  | _ => schema

variable {schema other : Schema} {name : String}

theorem foldl_take (schema : Schema) :
    entriesInOrder.foldl (fun read name => take read schema name) {} = { schema with id := none } := by
  have horder : entriesInOrder = ["additionalProperties", "allOf", "anyOf", "default", "description", "enum",
    "example", "format", "items", "multipleOf", "not", "oneOf", "properties", "required", "title", "type",
    "x-kubernetes-list-map-keys", "x-kubernetes-list-type", "x-kubernetes-preserve-unknown-fields",
    "x-kubernetes-validations"] := by decide +kernel
  have hfilled {α : Type} (items : List α) : (if items.isEmpty then [] else items) = items := by
    cases items <;> rfl
  simp only [horder, List.foldl_cons, List.foldl_nil, take, Option.or_none, hfilled]

end Schema

/-! ### Nested schemas -/

/-- Whether a schema is read from what is written for it. -/
def Restored (schema : Schema) : Prop := schemaOf? schema.toJson.sorted = some schema.withoutIds

theorem schemasOf?_array (values : List Json) :
    schemasOf? (.array values) = Json.list? schemaOf? (.array values) := by
  show schemasOfItems? values = values.mapM schemaOf?
  induction values with
  | nil => rfl
  | cons value rest ih =>
    rw [schemasOfItems?, ih, List.mapM_cons]

theorem propertiesOfEntries?_eq {properties : List (String × Schema)}
    (h : ∀ property ∈ properties, Restored property.2) (read : List (String × Schema)) :
    propertiesOfEntries? read (properties.map fun (name, schema) => (name, schema.toJson.sorted)) =
      some ((properties.map fun (name, schema) => (name, schema.withoutIds)).foldl
        (fun read entry => Keyed.insert entry.1 entry.2 read) read) := by
  induction properties generalizing read with
  | nil => rfl
  | cons property rest ih =>
    have hfirst : schemaOf? property.2.toJson.sorted = some property.2.withoutIds :=
      h property (List.mem_cons_self ..)
    rw [List.map_cons, propertiesOfEntries?, propertyOfEntry?, hfirst]
    exact ih (fun property hp => h property (List.mem_cons_of_mem _ hp)) _

/-- Properties that are sorted already. -/
theorem propertiesOf?_eq {properties : List (String × Schema)} (hs : Keyed.Sorted properties)
    (h : ∀ property ∈ properties, Restored property.2) :
    propertiesOf? (Json.object (properties.map fun (name, schema) => (name, schema.toJson))).sorted =
      some (properties.map fun (name, schema) => (name, schema.withoutIds)) := by
  rw [Json.sorted_object (hs.map _), List.map_map]
  exact (propertiesOfEntries?_eq h []).trans (congrArg some (hs.map Schema.withoutIds).sort_eq)

/-! ### Entries -/

theorem Rule.ofJson?_toJson (rule : Rule) : ofJson? rule.toJson.sorted = some rule := by
  have hmessage : rule.toJson.sorted.entry "message" "" Json.text? = some rule.message := by
    by_cases hm : rule.message = ""
    · rw [hm]
      exact Json.entry_of_missing (by simp [hm])
    · exact Json.entry_text (by simp [hm])
  rw [ofJson?, toJson, Json.withNames_sorted]
  refine Option.bind_eq_some_iff.mpr ⟨rule.rule, Json.entry_text (by split <;> rfl), ?_⟩
  exact Option.bind_eq_some_iff.mpr ⟨rule.message, hmessage, rfl⟩

theorem schemaOfEntries?_append (schema : Schema) (entries more : List (String × Json)) :
    schemaOfEntries? schema (entries ++ more) =
      (schemaOfEntries? schema entries).bind fun schema => schemaOfEntries? schema more := by
  induction entries generalizing schema with
  | nil => rfl
  | cons entry rest ih =>
    rw [List.cons_append, schemaOfEntries?, schemaOfEntries?, Option.bind_eq_bind, Option.bind_assoc]
    exact congrArg _ (funext ih)

section
variable {α β : Type} {schema : Schema} {name : String}

theorem schemaOfEntries?_given (schema : Schema) (name : String) (value : Json) :
    schemaOfEntries? schema (optional name (some value)) = schemaOfEntry? schema (name, value) := by
  rw [Json.optional, schemaOfEntries?]
  exact Option.bind_fun_some _

/-- An entry for a value that may be left out, and of which not everything is written. -/
theorem schemaOfEntries?_map {value : Option α} {kept : Option β} {write : α → Json} {change : α → β}
    (put : Option β → Schema) (hkept : put kept = schema)
    (h : ∀ a, value = some a → schemaOfEntry? schema (name, (write a).sorted) =
      some (put (some (change a)))) :
    schemaOfEntries? schema (optional name ((value.map write).map Json.sorted)) =
      some (put ((value.map change).or kept)) := by
  cases value with
  | none => exact congrArg some hkept.symm
  | some a => exact (schemaOfEntries?_given ..).trans (h a rfl)

/-- An entry for a value that may be left out. -/
theorem schemaOfEntries?_optional {value kept : Option α} {write : α → Json} (put : Option α → Schema)
    (hkept : put kept = schema)
    (h : ∀ a, value = some a → schemaOfEntry? schema (name, (write a).sorted) = some (put (some a))) :
    schemaOfEntries? schema (optional name ((value.map write).map Json.sorted)) =
      some (put (value.or kept)) := by
  rw [schemaOfEntries?_map put hkept h, Option.map_id']

/-- An entry for a value that is kept as it is. -/
theorem schemaOfEntries?_json {value kept : Option Json} (put : Option Json → Schema)
    (hkept : put kept = schema)
    (hput : ∀ given, given ≠ .null → schemaOfEntry? schema (name, given) = some (put (some given.sorted)))
    (h : ∀ given, value = some given → given.sorted = given ∧ given ≠ .null) :
    schemaOfEntries? schema (optional name (value.map Json.sorted)) = some (put (value.or kept)) := by
  cases value with
  | none => exact congrArg some hkept.symm
  | some given =>
    obtain ⟨hs, hne⟩ := h given rfl
    rw [Option.map_some, schemaOfEntries?_given, hs, hput given hne, hs]
    rfl

/-- An entry for a list that may be left out. -/
theorem schemaOfEntries?_list {values : List Json} {items kept : List α} (read : Json → Option (List α))
    (put : List α → Schema) (hkept : put kept = schema)
    (hput : ∀ values, schemaOfEntry? schema (name, .array values) =
      (read (.array values)).bind fun items => some (put items))
    (he : items.isEmpty = values.isEmpty) (hr : read (Json.array values).sorted = some items) :
    schemaOfEntries? schema (optional name ((array? values).map Json.sorted)) =
      some (put (if items.isEmpty then kept else items)) := by
  rw [array?, he]
  split
  · exact congrArg some hkept.symm
  · rw [Option.map_some, schemaOfEntries?_given, Json.sorted, hput, ← Json.sorted, hr]
    rfl

/-- An entry for properties, which are left out when there are none. -/
theorem schemaOfEntries?_properties {properties read kept : List (String × Schema)}
    (put : List (String × Schema) → Schema) (hkept : put kept = schema)
    (hput : ∀ entries, schemaOfEntry? schema (name, .object entries) =
      (propertiesOf? (.object entries)).bind fun properties => some (put properties))
    (he : read.isEmpty = properties.isEmpty)
    (hr : propertiesOf? (Json.object (properties.map fun (name, schema) => (name, schema.toJson))).sorted =
      some read) :
    schemaOfEntries? schema (optional name ((object? (properties.map fun (name, schema) =>
      (name, schema.toJson))).map Json.sorted)) = some (put (if read.isEmpty then kept else read)) := by
  rw [object?, List.isEmpty_map, he]
  split
  · exact congrArg some hkept.symm
  · rw [Option.map_some, schemaOfEntries?_given, Json.sorted, hput, ← Json.sorted, hr]
    rfl

/-- What is written for a schema is read as that schema, but for the names of nodes. -/
theorem schemaOfEntry?_node {node : Schema} (set : Schema → Schema)
    (hset : ∀ entries, schemaOfEntry? schema (name, .object entries) =
      (schemaOf? (.object entries)).bind fun node => some (set node))
    (h : Restored node) : schemaOfEntry? schema (name, node.toJson.sorted) = some (set node.withoutIds) := by
  rw [Restored, Schema.sorted_toJson] at h
  rw [Schema.sorted_toJson, hset, h]
  rfl

/-- An entry for a schema that may be left out. -/
theorem schemaOfEntries?_schema {nested kept : Option Schema} (put : Option Schema → Schema)
    (hkept : put kept = schema)
    (hput : ∀ entries, schemaOfEntry? schema (name, .object entries) =
      (schemaOf? (.object entries)).bind fun node => some (put (some node)))
    (hn : ∀ node, nested = some node → Restored node) :
    schemaOfEntries? schema (optional name ((nested.map Schema.toJson).map Json.sorted)) =
      some (put ((nested.map Schema.withoutIds).or kept)) :=
  schemaOfEntries?_map put hkept fun node hi =>
    schemaOfEntry?_node (fun node => put (some node)) hput (hn node hi)

end

/-! ### Keywords -/

/-- Reading what is written for a keyword takes over what is said there. -/
theorem schemaOfEntries?_entry? {schema : Schema} {name : String} (h : schema.Readable)
    (hn : ∀ node ∈ schema.nested, Restored node) (hname : name ∈ Schema.entryNames) (read : Schema) :
    schemaOfEntries? read (optional name ((schema.entry? name).map Json.sorted)) =
      some (read.take schema.withoutIds name) := by
  have htexts (texts : List String) :
      Json.list? Json.text? (Json.array (texts.map .string)).sorted = some texts :=
    Json.list?_sorted fun _ _ => rfl
  have hvalues : Json.list? (fun item => some item.sorted) (Json.array schema.enumeration).sorted =
      some schema.enumeration := by
    rw [Json.sorted_array h.enumeration]
    exact Json.list?_of_forall₂ (List.forall₂_same.mpr fun value hm => congrArg some (h.enumeration value hm))
  have hbranches {branches : List Schema} (hb : ∀ node ∈ branches, node ∈ schema.nested) :
      schemasOf? (Json.array (branches.map Schema.toJson)).sorted =
        some (branches.map Schema.withoutIds) := by
    rw [Json.sorted_array_map, schemasOf?_array]
    exact Json.list?_of_forall₂ (List.forall₂_map_left_iff.mpr (List.forall₂_map_right_iff.mpr
      (List.forall₂_same.mpr fun node hm => hn node (hb node hm))))
  rw [Schema.withoutIds_eq]
  simp only [Schema.entryNames, List.mem_cons, List.not_mem_nil, or_false] at hname
  rcases hname with
    rfl | rfl | rfl | rfl | rfl | rfl | rfl | rfl | rfl | rfl | rfl | rfl | rfl | rfl | rfl | rfl |
    rfl | rfl | rfl | rfl <;> simp only [Schema.entry?, Schema.take]
  · exact schemaOfEntries?_optional (fun type => { read with type }) (by cases read; rfl) fun _ _ => rfl
  · exact schemaOfEntries?_optional (fun format => { read with format }) (by cases read; rfl) fun _ _ => rfl
  · exact schemaOfEntries?_optional (fun title => { read with title }) (by cases read; rfl) fun _ _ => rfl
  · exact schemaOfEntries?_optional (fun description => { read with description }) (by cases read; rfl)
      fun _ _ => rfl
  · exact schemaOfEntries?_json (fun default => { read with default }) (by cases read; rfl)
      (fun given hne => by cases given <;> trivial) h.default
  · exact schemaOfEntries?_json (fun sample => { read with sample }) (by cases read; rfl)
      (fun given hne => by cases given <;> trivial) h.sample
  · exact schemaOfEntries?_list _ (fun enumeration => { read with enumeration }) (by cases read; rfl)
      (fun _ => rfl) rfl hvalues
  · refine schemaOfEntries?_optional (fun multipleOf => { read with multipleOf }) (by cases read; rfl)
      fun unit hm => ?_
    rw [Json.ofFloat, if_pos (h.multipleOf unit hm)]
    rfl
  · exact schemaOfEntries?_list _ (fun required => { read with required }) (by cases read; rfl) (fun _ => rfl)
      (List.isEmpty_map ..).symm (htexts _)
  · exact schemaOfEntries?_schema (fun items => { read with items }) (by cases read; rfl) (fun _ => rfl)
      fun node hi => hn node (Schema.mem_nested_items hi)
  · have hr := propertiesOf?_eq h.properties fun property hp => hn property.2 (Schema.mem_nested_property hp)
    exact schemaOfEntries?_properties (fun properties => { read with properties }) (by cases read; rfl)
      (fun _ => rfl) (List.isEmpty_map ..) hr
  · refine schemaOfEntries?_map (fun additional => { read with additional }) (by cases read; rfl)
      fun found ha => ?_
    cases found with
    | flag allowed => rfl
    | schema node =>
      have hnode : Restored node := hn node (Schema.mem_nested_branch (Schema.mem_branches_additional ha))
      exact schemaOfEntry?_node (fun node => { read with additional := some (.schema node) })
        (fun _ => rfl) hnode
  · exact schemaOfEntries?_list _ (fun allOf => { read with allOf }) (by cases read; rfl)
      (fun _ => rfl) (by simp)
      (hbranches fun node hm => by simp [Schema.nested, Schema.branches, hm])
  · exact schemaOfEntries?_list _ (fun oneOf => { read with oneOf }) (by cases read; rfl)
      (fun _ => rfl) (by simp)
      (hbranches fun node hm => by simp [Schema.nested, Schema.branches, hm])
  · exact schemaOfEntries?_list _ (fun anyOf => { read with anyOf }) (by cases read; rfl)
      (fun _ => rfl) (by simp)
      (hbranches fun node hm => by simp [Schema.nested, Schema.branches, hm])
  · exact schemaOfEntries?_schema (fun excluded => { read with not := excluded }) (by cases read; rfl)
      (fun _ => rfl) fun node hi => hn node (by simp [Schema.nested, Schema.branches, hi])
  · exact schemaOfEntries?_optional
      (fun preserveUnknown => { read with preserveUnknown }) (by cases read; rfl)
      fun _ _ => rfl
  · exact schemaOfEntries?_optional
      (fun listType => { read with listType }) (by cases read; rfl) fun _ _ => rfl
  · exact schemaOfEntries?_list _ (fun listMapKeys => { read with listMapKeys }) (by cases read; rfl)
      (fun _ => rfl) (List.isEmpty_map ..).symm (htexts _)
  · exact schemaOfEntries?_list _ (fun rules => { read with rules }) (by cases read; rfl) (fun _ => rfl)
      (List.isEmpty_map ..).symm (Json.list?_sorted fun rule _ => Rule.ofJson?_toJson rule)

theorem schemaOfEntries?_given_all {schema : Schema} (h : schema.Readable)
    (hn : ∀ node ∈ schema.nested, Restored node) {names : List String}
    (hnames : ∀ name ∈ names, name ∈ Schema.entryNames) (read : Schema) :
    schemaOfEntries? read (given names fun name => (schema.entry? name).map Json.sorted) =
      some (names.foldl (fun read name => read.take schema.withoutIds name) read) := by
  induction names generalizing read with
  | nil => rfl
  | cons name rest ih =>
    rw [given, List.flatMap_cons, ← given, schemaOfEntries?_append,
      schemaOfEntries?_entry? h hn (hnames name (List.mem_cons_self ..))]
    exact ih (fun name hm => hnames name (List.mem_cons_of_mem _ hm)) _

/-- A schema is read from what is written for it, but for the names that nodes have of their own. -/
theorem schemaOf?_toJson (schema : Schema) (h : schema.Everywhere Schema.Readable) : Restored schema := by
  have hn : ∀ node ∈ schema.nested, Restored node := fun node hm => schemaOf?_toJson node (h.below hm)
  have hnames : ∀ name ∈ Schema.entriesInOrder, name ∈ Schema.entryNames := fun _ => Keyed.mem_ascending.mp
  rw [Restored, Schema.sorted_toJson]
  show schemaOfEntries? {} _ = _
  rw [schemaOfEntries?_given_all h.self hn hnames, Schema.foldl_take, Schema.withoutIds_eq]
termination_by sizeOf schema
decreasing_by exact Schema.sizeOf_nested hm

end CrdForge.Crd
