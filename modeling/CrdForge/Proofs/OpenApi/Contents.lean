import CrdForge.Proofs.OpenApi.Rendering

/-! What stands in what is written for a document.

Names of entries are the names in maps of the document, and beside these the fixed names of fields. No
name stands twice in an object, and floats are finite. -/
namespace CrdForge

namespace Json
variable {names : String → Prop} {floats : Float → Prop}

/-- The fields that have a value. -/
def present (fields : List (String × Option Json)) : List (String × Json) :=
  fields.flatMap fun field => optional field.1 field.2

theorem keys_present_sublist (fields : List (String × Option Json)) :
    (Keyed.keys (present fields)).Sublist (Keyed.keys fields) := by
  induction fields with
  | nil => exact .slnil
  | cons field rest ih =>
    obtain ⟨name, _ | value⟩ := field
    · exact .cons name ih
    · exact .cons_cons name ih

theorem within_present {fields : List (String × Option Json)} (hd : (Keyed.keys fields).Nodup)
    (hn : ∀ field ∈ fields, names field.1)
    (hv : ∀ field ∈ fields, ∀ value, field.2 = some value → value.Within names floats) :
    (object (present fields)).Within names floats := by
  have hmem : ∀ entry ∈ present fields, ∃ field ∈ fields, field.1 = entry.1 ∧ field.2 = some entry.2 := by
    intro entry he
    obtain ⟨⟨name, _ | value⟩, hf, ho⟩ := List.mem_flatMap.mp he
    · cases ho
    · obtain rfl := List.mem_singleton.mp ho
      exact ⟨_, hf, rfl, rfl⟩
  refine .object ⟨hd.sublist (keys_present_sublist fields), fun entry he => ?_⟩ fun entry he => ?_
  · obtain ⟨field, hf, hname, -⟩ := hmem entry he
    exact hname ▸ hn field hf
  · obtain ⟨field, hf, -, hvalue⟩ := hmem entry he
    exact hv field hf entry.2 hvalue

theorem within_given {listed : List String} {field? : String → Option Json} (hd : listed.Nodup)
    (hn : ∀ name ∈ listed, names name)
    (hv : ∀ name ∈ listed, ∀ value, field? name = some value → value.Within names floats) :
    (object (given listed field?)).Within names floats := by
  have hgiven : given listed field? = present (listed.map fun name => (name, field? name)) := by
    rw [present, List.flatMap_map]
    rfl
  rw [hgiven]
  refine within_present ?_ (List.forall_mem_map.mpr hn) (List.forall_mem_map.mpr hv)
  rwa [Keyed.keys, List.map_map, show (Prod.fst ∘ fun name => (name, field? name)) = id from rfl, List.map_id]

theorem within_array? {items : List Json} (h : ∀ item ∈ items, item.Within names floats) :
    ∀ value, array? items = some value → value.Within names floats := by
  intro value hv
  rw [array?] at hv
  split at hv
  · cases hv
  · exact Option.some.inj hv ▸ .array h

theorem within_map {α : Type} {given : Option α} {write : α → Json}
    (h : ∀ a, given = some a → (write a).Within names floats) :
    ∀ value, given.map write = some value → value.Within names floats := by
  intro value hv
  obtain ⟨a, ha, rfl⟩ := Option.map_eq_some_iff.mp hv
  exact h a ha

theorem within_text? (text : Option String) :
    ∀ value, text.map Json.string = some value → value.Within names floats :=
  within_map fun text _ => .string text

theorem within_some {value : Json} (h : value.Within names floats) :
    ∀ given, some value = some given → given.Within names floats := fun _ hg => Option.some.inj hg ▸ h

/-- A map whose entries have other names than there are fields. -/
theorem within_map_entries {α : Type} {entries : List (String × α)} {write : α → Json}
    (hd : Keyed.Distinct names entries) (h : ∀ entry ∈ entries, (write entry.2).Within names floats) :
    (object (entries.map fun (name, a) => (name, write a))).Within names floats := by
  refine .object ⟨?_, List.forall_mem_map.mpr hd.named⟩ (List.forall_mem_map.mpr h)
  rw [Keyed.keys, List.map_map]
  exact hd.nodup

end Json

namespace OpenApi

open Json (present within_present within_given within_array? within_map within_text? within_some
  within_map_entries)

/-- The fixed names of fields. -/
def fixedNames : List String :=
  Schema.fieldNames ++ ["name", "in", "schema", "content", "operationId", "summary",
    "parameters", "requestBody", "get", "post", "put", "delete", "patch", "openapi", "info", "version",
    "paths", "components", "schemas",
    "requestBodies"]

section
variable {names : String → Prop} {floats : Float → Prop}

theorem TypeNames.within_toJson (type : TypeNames) : type.toJson.Within names floats := by
  cases type with
  | one name => exact .string name
  | many listed => exact .array (List.forall_mem_map.mpr fun name _ => .string name)

theorem within_ofFloat (value : Float) : (Json.ofFloat value).Within names (·.isFinite = true) := by
  rw [Json.ofFloat]
  split
  · next hf => exact .float hf
  · exact .null

end

section
variable {names : String → Prop} {floats : Float → Prop} (hn : ∀ name ∈ fixedNames, names name)
include hn

theorem Schema.within_toJson {schema : Schema} (h : MadeOf names floats schema) :
    schema.toJson.Within names (·.isFinite = true) := by
  induction h with
  | @intro schema self _ _ _ _ _ _ _ properties items additional allOf oneOf anyOf not =>
    have hbranches {branches : List Schema}
        (hb : ∀ branch ∈ branches, branch.toJson.Within names (·.isFinite = true)) :=
      within_array? (List.forall_mem_map.mpr hb)
    rw [toJson_eq]
    refine within_given (by decide) (fun name hm => hn name (List.mem_append_left _ hm)) fun name hm => ?_
    simp only [fieldNames, List.mem_cons, List.not_mem_nil, or_false] at hm
    rcases hm with
      rfl | rfl | rfl | rfl | rfl | rfl | rfl | rfl | rfl | rfl | rfl | rfl | rfl | rfl | rfl | rfl |
      rfl | rfl <;> simp only [field?]
    · exact within_text? _
    · exact within_map fun type _ => type.within_toJson
    · exact within_text? _
    · exact within_text? _
    · exact within_text? _
    · exact fun value hd => (self.default value hd).1.within
    · exact fun value he => (self.sample value he).1.within
    · exact within_array? fun value hm => (self.enumeration value hm).within
    · exact within_map fun unit _ => within_ofFloat unit
    · exact within_array? (List.forall_mem_map.mpr fun name _ => .string name)
    · exact within_some (.bool schema.readOnly)
    · exact within_map items
    · intro value hv
      rw [Json.object?] at hv
      split at hv
      · cases hv
      · exact Option.some.inj hv ▸ within_map_entries self.properties properties
    · refine within_map fun found ha => ?_
      cases found with
      | flag allowed => exact .bool allowed
      | schema nested => exact additional nested ha
    · exact hbranches allOf
    · exact hbranches oneOf
    · exact hbranches anyOf
    · exact within_map not

/-- A structure whose fields have fixed names. -/
theorem within_fields {fields : List (String × Option Json)} (hd : (Keyed.keys fields).Nodup)
    (hf : ∀ name ∈ Keyed.keys fields, name ∈ fixedNames)
    (hv : ∀ field ∈ fields, ∀ value, field.2 = some value → value.Within names floats) :
    (Json.object (present fields)).Within names floats :=
  within_present hd (fun _ hm => hn _ (hf _ (List.mem_map_of_mem hm))) hv

theorem Parameter.within_toJson {parameter : Parameter} (h : parameter.Made names floats) :
    parameter.toJson.Within names (·.isFinite = true) := by
  have hpresent : parameter.toJson = .object (present [
      ("$ref", parameter.reference.map .string),
      ("name", some (.string parameter.name)),
      ("in", some (.string parameter.location)),
      ("description", parameter.description.map .string),
      ("required", some (.bool parameter.required)),
      ("schema", parameter.schema.map Schema.toJson)]) := by
    simp [toJson, present, Json.optional]
  rw [hpresent]
  refine within_fields hn (by simp [Keyed.keys]) (by simp [Keyed.keys, fixedNames, Schema.fieldNames]) ?_
  simp only [List.forall_mem_cons]
  exact ⟨within_text? _, within_some (.string _), within_some (.string _), within_text? _,
    within_some (.bool _), within_map fun schema hs => schema.within_toJson hn (h schema hs),
    List.forall_mem_nil _⟩

theorem within_mediaTypeJson {schema : Option Schema}
    (h : ∀ given, schema = some given → MadeOf names floats given) :
    (mediaTypeJson schema).Within names (·.isFinite = true) := by
  have hpresent : mediaTypeJson schema = .object (present [("schema", schema.map Schema.toJson)]) := by
    simp [mediaTypeJson, present]
  rw [hpresent]
  refine within_fields hn (by simp [Keyed.keys]) (by simp [Keyed.keys, fixedNames, Schema.fieldNames]) ?_
  simp only [List.forall_mem_cons]
  exact ⟨within_map fun given hs => given.within_toJson hn (h given hs), List.forall_mem_nil _⟩

theorem RequestBody.within_toJson {body : RequestBody} (h : body.Made names floats) :
    body.toJson.Within names (·.isFinite = true) := by
  have hpresent : body.toJson = .object (present [
      ("$ref", body.reference.map .string),
      ("description", body.description.map .string),
      ("content", some (namedJson mediaTypeJson body.content)),
      ("required", some (.bool body.required))]) := by
    simp [toJson, present, Json.optional]
  have hcontent : (namedJson mediaTypeJson body.content).Within names (·.isFinite = true) :=
    within_map_entries h.content fun media hm => within_mediaTypeJson hn (h.schema media hm)
  rw [hpresent]
  refine within_fields hn (by simp [Keyed.keys]) (by simp [Keyed.keys, fixedNames, Schema.fieldNames]) ?_
  simp only [List.forall_mem_cons]
  exact ⟨within_text? _, within_text? _, within_some hcontent, within_some (.bool _), List.forall_mem_nil _⟩

theorem Operation.within_toJson {operation : Operation} (h : operation.Made names floats) :
    operation.toJson.Within names (·.isFinite = true) := by
  have hpresent : operation.toJson = .object (present [
      ("operationId", operation.operationId.map .string),
      ("summary", operation.summary.map .string),
      ("parameters", Json.array? (operation.parameters.map Parameter.toJson)),
      ("requestBody", operation.requestBody.map RequestBody.toJson)]) := by
    simp [toJson, present, Json.listed_eq]
  have hparameters := List.forall_mem_map.mpr fun (parameter : Parameter) hp =>
    parameter.within_toJson hn (h.parameters parameter hp)
  rw [hpresent]
  refine within_fields hn (by simp [Keyed.keys]) (by simp [Keyed.keys, fixedNames, Schema.fieldNames]) ?_
  simp only [List.forall_mem_cons]
  exact ⟨within_text? _, within_text? _, within_array? hparameters,
    within_map fun body hb => body.within_toJson hn (h.body body hb), List.forall_mem_nil _⟩

theorem PathItem.within_toJson {item : PathItem} (h : item.Made names floats) :
    item.toJson.Within names (·.isFinite = true) := by
  have hpresent : item.toJson = .object (present [
      ("get", item.get.map Operation.toJson),
      ("post", item.post.map Operation.toJson),
      ("put", item.put.map Operation.toJson),
      ("delete", item.delete.map Operation.toJson),
      ("patch", item.patch.map Operation.toJson),
      ("parameters", Json.array? (item.parameters.map Parameter.toJson))]) := by
    simp [toJson, present, Json.listed_eq]
  have hverb {verb : Option Operation}
    (hv : ∀ operation, verb = some operation → operation ∈ item.operations) :
      ∀ value, verb.map Operation.toJson = some value → value.Within names (·.isFinite = true) :=
    within_map fun operation ho => operation.within_toJson hn (h.operations operation (hv operation ho))
  have hparameters := List.forall_mem_map.mpr fun (parameter : Parameter) hp =>
    parameter.within_toJson hn (h.parameters parameter hp)
  rw [hpresent]
  refine within_fields hn (by simp [Keyed.keys]) (by simp [Keyed.keys, fixedNames, Schema.fieldNames]) ?_
  simp only [List.forall_mem_cons]
  refine ⟨hverb fun _ hs => ?_, hverb fun _ hs => ?_, hverb fun _ hs => ?_, hverb fun _ hs => ?_,
    hverb fun _ hs => ?_, within_array? hparameters, List.forall_mem_nil _⟩ <;> simp [operations, hs]

theorem within_infoJson (info : Info) :
    (Json.object [("title", .string info.title), ("version", .string info.version)]).Within names floats := by
  refine .object ⟨by simp [Keyed.keys], ?_⟩ ?_
  · simp only [List.forall_mem_cons]
    exact ⟨hn "title" (by decide), hn "version" (by decide), List.forall_mem_nil _⟩
  · simp only [List.forall_mem_cons]
    exact ⟨.string _, .string _, List.forall_mem_nil _⟩

/-- What is written for a document has the names of its maps, and finite floats. -/
theorem Document.within_toJson {document : Document} (h : document.Made names floats) :
    document.toJson.Within names (·.isFinite = true) := by
  have hpath : ∀ entry ∈ document.paths, entry.2.toJson.Within names (·.isFinite = true) := fun entry he =>
    entry.2.within_toJson hn (h.path he)
  have hparameter : ∀ entry ∈ document.components.parameters,
      entry.2.toJson.Within names (·.isFinite = true) :=
    fun entry he => entry.2.within_toJson hn (h.parameter (.component he))
  have hbody : ∀ entry ∈ document.components.requestBodies, entry.2.toJson.Within names (·.isFinite = true) :=
    fun entry he => entry.2.within_toJson hn (h.body (.component he))
  have hschema : ∀ entry ∈ document.components.schemas, entry.2.toJson.Within names (·.isFinite = true) :=
    fun entry he => entry.2.within_toJson hn (h.schema entry.2 (.component he))
  refine .object ⟨by simp [Keyed.keys], ?_⟩ ?_
  · simp only [List.forall_mem_cons]
    exact ⟨hn "openapi" (by decide), hn "info" (by decide), hn "paths" (by decide),
      hn "components" (by decide), List.forall_mem_nil _⟩
  · simp only [List.forall_mem_cons]
    refine ⟨.string _, within_infoJson hn document.info, within_map_entries h.paths hpath,
      .object ⟨?_, ?_⟩ ?_, List.forall_mem_nil _⟩
    · simp [Keyed.keys]
    · simp only [List.forall_mem_cons]
      exact ⟨hn "schemas" (by decide), hn "parameters" (by decide), hn "requestBodies" (by decide),
        List.forall_mem_nil _⟩
    · simp only [List.forall_mem_cons]
      exact ⟨within_map_entries h.schemas hschema, within_map_entries h.parameters hparameter,
        within_map_entries h.requestBodies hbody, List.forall_mem_nil _⟩

end

end OpenApi

end CrdForge
