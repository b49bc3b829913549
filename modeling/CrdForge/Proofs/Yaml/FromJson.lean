import CrdForge.OpenApi.Encode
import CrdForge.Proofs.Yaml.Within

/-! Values that JSON is written as, and what is read from them.

A structure is written with some of its fields left out. A field that is
written is read from what was written for it, and one that is left out takes
its default, so a structure is restored when its fields are. -/
namespace CrdForge.Yaml.Value

/-! ### Values of JSON -/

mutual
/-- The value that JSON is written as. -/
def ofJson : Json → Value
  | .null => .null
  | .bool value => .bool value
  | .number value => .number value
  | .string value => .string value
  | .array items => .sequence (itemsOfJson items)
  | .object entries => .mapping (entriesOfJson entries)
termination_by structural x => x

def itemsOfJson : List Json → List Value
  | [] => []
  | item :: rest => ofJson item :: itemsOfJson rest
termination_by structural x => x

def entriesOfJson : List (String × Json) → List (Value × Value)
  | [] => []
  | entry :: rest => entryOfJson entry :: entriesOfJson rest
termination_by structural x => x

def entryOfJson : String × Json → Value × Value
  | (name, value) => (.string name, ofJson value)
termination_by structural x => x
end

theorem itemsOfJson_eq (items : List Json) : itemsOfJson items = items.map ofJson := by
  induction items with
  | nil => rfl
  | cons item rest ih => rw [itemsOfJson, ih, List.map_cons]

theorem entriesOfJson_eq (entries : List (String × Json)) :
    entriesOfJson entries = entries.map fun entry => (.string entry.1, ofJson entry.2) := by
  induction entries with
  | nil => rfl
  | cons entry rest ih => rw [entriesOfJson, ih, List.map_cons, entryOfJson]

section
variable {names : String → Prop} {floats : Float → Prop} {value : Json}

theorem within_ofJson (h : value.Within names floats) : (ofJson value).Within names floats := by
  induction h with
  | null => exact .null
  | bool value => exact .bool value
  | int value => exact .int value
  | float hx => exact .float hx
  | string value => exact .string value
  | array _ ih =>
    rw [ofJson, itemsOfJson_eq]
    exact .sequence (List.forall_mem_map.mpr ih)
  | object hd _ ih =>
    rw [ofJson, entriesOfJson_eq]
    refine .mapping (List.forall_mem_map.mpr fun entry he name hname => ?_) (List.forall_mem_map.mpr ih)
    exact Except.ok.inj hname ▸ hd.named entry he

/-- JSON is read from itself with its entries sorted. -/
theorem json_ofJson (h : value.Within names (·.isFinite = true)) :
    (ofJson value).json = .ok value.sorted := by
  induction h with
  | null => rfl
  | bool value => rfl
  | int value => rfl
  | float hx => exact congrArg Except.ok (if_pos hx)
  | string value => rfl
  | @array items _ ih =>
    have hitems : (items.map ofJson).mapM json = .ok (items.map Json.sorted) :=
      Run.mapM_ok_iff.mpr
        (List.forall₂_map_left_iff.mpr (List.forall₂_map_right_iff.mpr (List.forall₂_same.mpr ih)))
    rw [ofJson, json, itemsOfJson_eq, itemsJson_eq, hitems, Json.sorted, Json.sortedItems_eq]
    rfl
  | @object entries _ _ ih =>
    have hentries : (entriesOfJson entries).mapM entryJson =
        .ok (entries.map fun (name, value) => (name, value.sorted)) := by
      rw [entriesOfJson_eq]
      refine Run.mapM_ok_iff.mpr (List.forall₂_map_left_iff.mpr (List.forall₂_map_right_iff.mpr
        (List.forall₂_same.mpr fun entry he => ?_)))
      rw [entryJson, ih entry he]
      rfl
    rw [ofJson, json, entriesJson_eq, hentries, Json.sorted, Json.sortedEntries_eq]
    rfl

theorem json_ofJson_of_tidy (h : value.Tidy names) : (ofJson value).json = .ok value := by
  rw [json_ofJson h.within, h.sorted]

theorem isNull_ofJson (h : value ≠ .null) : (ofJson value).isNull = false := by
  cases value with
  | null => exact absurd rfl h
  | _ => rfl

end

mutual
theorem hasTag_ofJson (value : Json) : (ofJson value).hasTag = false := by
  cases value with
  | array items => exact itemsHaveTag_ofJson items
  | object entries => exact entriesHaveTag_ofJson entries
  | _ => rfl

theorem itemsHaveTag_ofJson (items : List Json) : itemsHaveTag (itemsOfJson items) = false := by
  cases items with
  | nil => rfl
  | cons item rest =>
    rw [itemsOfJson, itemsHaveTag, hasTag_ofJson item, itemsHaveTag_ofJson rest, Bool.false_or]

theorem entriesHaveTag_ofJson (entries : List (String × Json)) :
    entriesHaveTag (entriesOfJson entries) = false := by
  cases entries with
  | nil => rfl
  | cons entry rest =>
    rw [entriesOfJson, entryOfJson, entriesHaveTag, entryHasTag, hasTag_ofJson entry.2,
      entriesHaveTag_ofJson rest]
    rfl
end

/-! ### Fields of structures -/

section
variable {α : Type} {entries : List (String × Json)} {name : String} {otherwise : α}
  {read : Value → Except Misfit α} {write : α → Json}

/-- The fields that an object is read as. -/
def fieldsOf (entries : List (String × Json)) : List (String × Value) :=
  entries.map fun (name, value) => (name, ofJson value)

theorem fields_ofJson (entries : List (String × Json)) :
    fields (ofJson (.object entries)) = .ok (fieldsOf entries) := by
  rw [ofJson, entriesOfJson_eq]
  refine Run.mapM_ok_iff.mpr ?_
  exact List.forall₂_map_left_iff.mpr (List.forall₂_map_right_iff.mpr (List.forall₂_same.mpr fun _ _ => rfl))

/-- A field that is written is read, and one that is not takes its default. -/
theorem field_fieldsOf (value : Option Json) (h : entries.filter (·.1 == name) = Json.optional name value) :
    field (fieldsOf entries) name otherwise read =
      value.elim (.ok otherwise) fun value => read (ofJson value) := by
  have hfilter : (fieldsOf entries).filter (·.1 == name) = fieldsOf (Json.optional name value) := by
    rw [← h, fieldsOf, List.filter_map]
    rfl
  rw [field, hfilter]
  cases value <;> rfl

/-- A field that is always written. -/
theorem field_value (value : Json) {a : α} (h : entries.filter (·.1 == name) = [(name, value)])
    (hr : read (ofJson value) = .ok a) : field (fieldsOf entries) name otherwise read = .ok a :=
  (field_fieldsOf (some value) h).trans hr

theorem field_text (text : String) {otherwise : String}
    (h : entries.filter (·.1 == name) = [(name, .string text)]) :
    field (fieldsOf entries) name otherwise Value.text = .ok text := field_fieldsOf (some (.string text)) h

theorem field_flag (flag : Bool) {otherwise : Bool}
    (h : entries.filter (·.1 == name) = [(name, .bool flag)]) :
    field (fieldsOf entries) name otherwise Value.flag = .ok flag := field_fieldsOf (some (.bool flag)) h

theorem optional_ofJson {value : Json} {a : α} (hne : value ≠ .null) (hr : read (ofJson value) = .ok a) :
    optional read (ofJson value) = .ok (some a) := by
  rw [optional, isNull_ofJson hne, if_neg Bool.false_ne_true, hr]
  rfl

/-- A field that is left out when there is nothing to write. -/
theorem field_optional (given : Option α)
    (h : entries.filter (·.1 == name) = Json.optional name (given.map write))
    (hr : ∀ a, given = some a → write a ≠ .null ∧ read (ofJson (write a)) = .ok a) :
    field (fieldsOf entries) name none (optional read) = .ok given := by
  rw [field_fieldsOf _ h]
  cases given with
  | none => rfl
  | some a => exact optional_ofJson (hr a rfl).1 (hr a rfl).2

theorem field_text? (text : Option String)
    (h : entries.filter (·.1 == name) = Json.optional name (text.map .string)) :
    field (fieldsOf entries) name none (optional Value.text) = .ok text :=
  field_optional text h fun _ _ => ⟨nofun, rfl⟩

theorem list_ofJson {items : List α} (hr : ∀ item ∈ items, read (ofJson (write item)) = .ok item) :
    list read (ofJson (.array (items.map write))) = .ok items := by
  rw [ofJson, itemsOfJson_eq, List.map_map]
  exact Run.mapM_ok_iff.mpr (List.forall₂_map_left_iff.mpr (List.forall₂_same.mpr hr))

/-- A field for a list that is left out when it is empty. -/
theorem field_list (items : List α) (h : entries.filter (·.1 == name) = Json.listed name (items.map write))
    (hr : ∀ item ∈ items, read (ofJson (write item)) = .ok item) :
    field (fieldsOf entries) name [] (list read) = .ok items := by
  rw [Json.listed_eq] at h
  rw [field_fieldsOf _ h]
  cases items with
  | nil => rfl
  | cons first rest => exact list_ofJson hr

theorem named_ofJson {named : List (String × α)} (hd : (Keyed.keys named).Nodup)
    (hr : ∀ entry ∈ named, read (ofJson (write entry.2)) = .ok entry.2) :
    Value.named read (ofJson (.object (named.map fun (name, a) => (name, write a)))) = .ok named := by
  rw [Value.named, Run.bind_of_ok (fields_ofJson _), fieldsOf, List.map_map]
  refine (Run.bind_of_ok (Run.mapM_ok_iff.mpr (List.forall₂_map_left_iff.mpr
    (List.forall₂_same.mpr fun entry he => ?_))) _).trans ?_
  · show (read (ofJson (write entry.2))).bind _ = _
    rw [hr entry he]
    rfl
  · exact congrArg Except.ok (Keyed.foldl_put_eq (show (Keyed.keys ([] ++ named)).Nodup from hd))

/-- A field for named values, which is always written. -/
theorem field_named (named : List (String × α))
    (h : entries.filter (·.1 == name) = [(name, OpenApi.namedJson write named)])
    (hd : (Keyed.keys named).Nodup) (hr : ∀ entry ∈ named, read (ofJson (write entry.2)) = .ok entry.2) :
    field (fieldsOf entries) name [] (Value.named read) = .ok named :=
  field_value (OpenApi.namedJson write named) h (named_ofJson hd hr)

end

end CrdForge.Yaml.Value
