import CrdForge.Proofs.Conversion.Results
import CrdForge.Proofs.Crd.Inspection
import CrdForge.Proofs.OpenApi.WellFormed

/-! What an inspection finds in converted schemas.

Each node of a converted schema is a conversion itself or says nothing that is inspected, so what holds of one
conversion holds of all that it nests. The one thing that a well-formed document does not bring along is the
items of an array: they are left out where schemas nest too deep, or by the filters, and the array stays. -/
namespace CrdForge.Conversion

open Crd.Schema (Fine KnownFormat Regular Throughout)

/-! ### Order -/

theorem propertyShapes_sorted {shape : Shape} {path : List String}
    {properties : List (String × OpenApi.Schema)} {found : Properties} (h : Keyed.Sorted found.properties) :
    Keyed.Sorted (propertyShapes shape path found properties).properties := by
  induction properties generalizing found with
  | nil => exact h
  | cons property rest ih =>
    obtain ⟨key, schema⟩ := property
    rw [propertyShapes]
    split
    · exact ih (h.insert _ _)
    · exact ih h

theorem optionShapes_sorted {shape : Shape} {path : List String} {branches : List OpenApi.Schema}
    {bare : Crd.Schema} (h : Keyed.Sorted bare.properties) :
    Keyed.Sorted (optionShapes shape path bare branches).properties := by
  induction branches generalizing bare with
  | nil => exact h
  | cons branch rest ih =>
    rw [optionShapes]
    split
    · exact ih h
    · split
      · exact ih (h.insert _ _)
      · exact ih h

/-! ### Arrays without items -/

/-- Whether some array is kept while its items, which the document has, are left out: because they nest
too deep, or because a plugin leaves them out. -/
def Emptied (setting : Setting) : Prop :=
  ∃ depth path schema source items inner, (shapeWithin setting (depth + 1) schema path).isSome = true ∧
    setting.document.resolve schema = some source ∧ source.typeName = some "array" ∧
      source.items = some items ∧
    setting.document.resolve items = some inner ∧
    (depth = 0 ∨ keeps (setting.site inner (rooted path ++ [Path.wildcard])) PropertyPlugin.all = false)

/-- A schema that leads somewhere has no conversion only where it nests too deep or a plugin leaves it out. -/
theorem shapeWithin_none {setting : Setting} (hp : setting.plugins = PropertyPlugin.all) {depth : Nat}
    {schema inner : OpenApi.Schema} {path : List String} (h : shapeWithin setting depth schema path = none)
    (hr : setting.document.resolve schema = some inner) :
    depth = 0 ∨ keeps (setting.site inner (rooted path)) PropertyPlugin.all = false := by
  cases depth with
  | zero => exact .inl rfl
  | succ depth =>
    right
    rw [shapeWithin, hr, Option.bind_some, sourceShape] at h
    have ho : outcome (setting.site inner (rooted path)) setting.plugins
      (partShapes (shapeWithin setting depth) (rooted path) inner).1 = none := Option.map_eq_none_iff.mp h
    rw [hp] at ho
    rw [← outcome_isSome _ _ (partShapes (shapeWithin setting depth) (rooted path) inner).1, ho]
    rfl

/-! ### Parts -/

theorem secret_fine (emptied : Prop) {leaf name : String} {listed : Crd.Schema}
    (hm : (name, listed) ∈ (secretReference leaf none).properties) : listed.Throughout (Fine emptied) := by
  rcases Keyed.mem_insert hm with he | hm
  · cases he
    have ht : ({ Crd.Schema.string "Key of the secret data containing the sensitive field value." with
      default := some (.string (".data." ++ leaf)) } : Crd.Schema).IsScalar :=
        ⟨⟨_, rfl, by decide⟩, Crd.Schema.knownFormat_none rfl, rfl, rfl, rfl, rfl, rfl, rfl⟩
    exact ht.fine _
  · rcases Keyed.mem_insert hm with he | hm
    · cases he
      exact (Crd.Schema.string_isScalar _).fine _
    · cases hm

/-- Conversions of what a document holds, all nodes of which are fine. -/
def AllFine (setting : Setting) (shape : Shape) : Prop :=
  ∀ schema path result, setting.document.Holds schema → shape schema path = some result →
    result.Throughout (Fine (Emptied setting))

namespace AllFine
variable {setting : Setting} {shape : Shape} {path : List String} {source : OpenApi.Schema}
  (h : AllFine setting shape)
include h

/-- Converted branches have formats that are known, and properties that are fine. -/
theorem branches {sources : List OpenApi.Schema} (hs : ∀ source ∈ sources, setting.document.Holds source)
    {branch : Crd.Schema} (hb : branch ∈ branchShapes shape path sources) :
    branch.KnownFormat ∧ ∀ name property, (name, property) ∈ branch.properties →
      property.Throughout (Fine (Emptied setting)) := by
  obtain ⟨source, hm, hc⟩ := mem_branchShapes hb
  have hf := h source path branch (hs source hm) hc
  exact ⟨hf.self.regular.format, fun _ _ hm => hf.below.properties _ _ hm⟩

theorem properties (hh : setting.document.Holds source) {name : String} {listed : Crd.Schema}
    (hm : (name, listed) ∈ (propertyShapes shape path {} source.properties).properties) :
    listed.Throughout (Fine (Emptied setting)) := by
  have hs : Keyed.Sorted ({} : Properties).properties := .nil
  have hl := (propertyShapes_sorted hs).lookup_of_mem hm
  rcases propertyShapes_lookup hl with hl | ⟨key, schema, converted, hs, hc, -, rfl⟩
  · cases hl
  · have hf := h schema _ converted (hh.property hs) hc
    obtain ⟨⟨ht, hformat, hb, hr, hrules⟩, ha, hw⟩ := hf.self
    exact .of_below ⟨⟨ht, hformat, hb, hr, hrules⟩, ha, hw⟩ (hf.below.change rfl rfl rfl rfl)

theorem options (hh : ∀ branch ∈ source.oneOf, setting.document.Holds branch) {bare : Crd.Schema}
    (hbare : bare.properties = []) {name : String} {listed : Crd.Schema}
    (hm : (name, listed) ∈ Keyed.insert "type" (discriminator (optionNames source.oneOf))
      (optionShapes shape path bare source.oneOf).properties) :
      listed.Throughout (Fine (Emptied setting)) := by
  rcases Keyed.mem_insert hm with he | hm
  · cases he
    have ht : (discriminator (optionNames source.oneOf)).IsScalar :=
      ⟨⟨_, rfl, by decide⟩, Crd.Schema.knownFormat_none rfl, rfl, rfl, rfl, rfl, rfl, rfl⟩
    exact ht.fine _
  · have hs : Keyed.Sorted bare.properties := hbare ▸ .nil
    rcases optionShapes_lookup ((optionShapes_sorted hs).lookup_of_mem hm) with hl | ⟨branch, _, hb, _, _, hc⟩
    · rw [hbare] at hl
      cases hl
    · exact h branch _ listed (hh branch hb) hc

end AllFine

/-! ### Whole schemas -/

section
variable {setting : Setting} {shape : Shape} {path : List String} {source : OpenApi.Schema}
  {result : Crd.Schema}

/-- The nodes that a reference to a secret nests. -/
theorem Hidden.fine {leaf : String} (h : Hidden shape path source leaf result) (hall : AllFine setting shape)
    (hh : setting.document.Holds source) : result.Throughout (Fine (Emptied setting)) := by
  have hcomposed : ∀ branch ∈ result.composed, branch ∈ branchShapes shape path source.oneOf := by
    intro branch hb
    rw [Crd.Schema.composed, h.allOf, h.oneOf, h.anyOf] at hb
    split at hb
    · simpa using hb
    · simp at hb
  have hones : ∀ branch ∈ source.oneOf, setting.document.Holds branch :=
    fun branch hb => hh.branch (by simp [hb])
  refine .of_below ⟨⟨?_, ?_, ?_, h.required, ?_⟩, .inr h.additional, .inl fun ht => ?_⟩ ⟨?_, ?_, ?_, ?_⟩
  · rw [h.type]
    rfl
  · intro format hf
    rw [h.format] at hf
    cases hf
  · exact fun branch hb => (hall.branches hones (hcomposed branch hb)).1
  · simp [h.rules]
  · rw [Crd.Schema.typeName, h.type] at ht
    simp at ht
  · intro name property hm
    rw [h.properties] at hm
    exact secret_fine _ hm
  · simp [h.items]
  · simp [h.additional]
  · exact fun branch hb => (hall.branches hones (hcomposed branch hb)).2

/-- The nodes that a schema keeps in any case. -/
theorem Kept.fine (h : Kept shape path source result) (hall : AllFine setting shape)
    (hh : setting.document.Holds source) (htype : result.type.isSome = true) (hapart : result.Apart)
    (hwhole : result.Whole ∨ Emptied setting)
    (honeOf : ∀ branch ∈ result.oneOf, branch ∈ branchShapes shape path source.oneOf)
    (hproperties : ∀ name property, (name, property) ∈ result.properties →
      property.Throughout (Fine (Emptied setting)))
    (hadditional : ∀ additional, result.additional = some (.schema additional) →
      additional.Throughout (Fine (Emptied setting))) : result.Throughout (Fine (Emptied setting)) := by
  have hbranch : ∀ branch ∈ result.composed, branch.KnownFormat ∧ ∀ name property,
      (name, property) ∈ branch.properties → property.Throughout (Fine (Emptied setting)) := by
    intro branch hb
    simp only [Crd.Schema.composed, List.mem_append] at hb
    rcases hb with (hb | hb) | hb
    · rw [h.allOf] at hb
      exact hall.branches (fun source hs => hh.branch (by simp [hs])) hb
    · exact hall.branches (fun source hs => hh.branch (by simp [hs])) (honeOf branch hb)
    · rw [h.anyOf] at hb
      exact hall.branches (fun source hs => hh.branch (by simp [hs])) hb
  refine .of_below ⟨⟨htype, h.format, fun branch hb => (hbranch branch hb).1, h.required, ?_⟩, hapart, hwhole⟩
    ⟨hproperties, ?_, hadditional, fun branch hb => (hbranch branch hb).2⟩
  · simp [h.rules]
  · intro items hi
    rw [h.items] at hi
    obtain ⟨inner, hs, hc⟩ := Option.bind_eq_some_iff.mp hi
    exact hall inner _ items (hh.items hs) hc

/-- The nodes that a union nests whose branches become properties. -/
theorem Tagged.fine (h : Tagged shape path source result) (hall : AllFine setting shape)
    (hh : setting.document.Holds source) : result.Throughout (Fine (Emptied setting)) := by
  obtain ⟨bare, hbare, hproperties⟩ := h.properties
  refine h.toKept.fine hall hh ?_ (.inr h.additional) (.inl fun ht => ?_) ?_ ?_ ?_
  · rw [h.type]
    rfl
  · rw [Crd.Schema.typeName, h.type] at ht
    simp at ht
  · simp [h.oneOf]
  · intro name property hm
    rw [hproperties] at hm
    exact hall.options (fun branch hb => hh.branch (by simp [hb])) hbare hm
  · simp [h.additional]

/-- The nodes that any other schema nests, of which only an array can be emptied. -/
theorem Plain.fine (h : Plain shape path source result) (hall : AllFine setting shape)
    (hh : setting.document.Holds source) (hapart : source.properties = [] ∨ source.additionalSchema = none)
    (hwhole : source.typeName = some "array" → result.items.isSome = true ∨ Emptied setting) :
    result.Throughout (Fine (Emptied setting)) := by
  refine h.toKept.fine hall hh ?_ ?_ ?_ (fun branch hb => h.oneOf ▸ hb) ?_ ?_
  · rw [h.type]
    rfl
  · rcases hapart with hn | hn
    · left
      rw [h.properties, hn]
      rfl
    · right
      rw [h.additional, hn]
      rfl
  · by_cases harray : source.typeName = some "array"
    · exact (hwhole harray).imp_left fun hi _ => hi
    · refine .inl fun ht => ?_
      rw [Crd.Schema.typeName, h.type, Option.getD_some] at ht
      cases hs : source.typeName with
      | none => simp [hs] at ht
      | some name => simp_all
  · intro name property hm
    rw [h.properties] at hm
    exact hall.properties hh hm
  · intro additional ha
    rw [h.additional, additionalShape] at ha
    obtain ⟨inner, hs, hc⟩ := Option.map_eq_some_iff.mp ha
    split at hc
    · next converted hi =>
      cases hc
      exact hall inner _ _ (hh.additional hs) hi
    · cases hc

end

/-- **All nodes of what a well-formed document is converted to are fine.** -/
theorem shape_fine {setting : Setting} (hp : setting.plugins = PropertyPlugin.all)
    (hw : setting.document.WellFormed) (depth : Nat) : AllFine setting (shapeWithin setting depth) := by
  induction depth with
  | zero => exact fun _ _ _ _ h => nomatch h
  | succ depth ih =>
    intro schema path result hh h
    obtain ⟨source, hr, -, hcase⟩ := shape_cases hp h
    have hsource := OpenApi.Document.holds_of_resolve hh hr
    rcases hcase with ⟨leaf, -, hidden⟩ | ⟨-, ⟨-, tagged⟩ | ⟨-, plain⟩⟩
    · exact hidden.fine ih hsource
    · exact tagged.fine ih hsource
    · refine plain.fine ih hsource (hw source hsource).apart fun harray => ?_
      obtain ⟨items, hi⟩ := Option.isSome_iff_exists.mp ((hw source hsource).items harray)
      rw [plain.items, itemsShape, hi, Option.bind_some]
      cases hc : shapeWithin setting depth items (rooted path ++ [Path.wildcard]) with
      | some converted => exact .inl rfl
      | none =>
        obtain ⟨inner, hinner⟩ := Option.isSome_iff_exists.mp (hw items (hsource.items hi)).resolves
        have hleft := shapeWithin_none hp hc hinner
        rw [rooted_append] at hleft
        exact .inr ⟨depth, path, schema, source, items, inner, Option.isSome_iff_exists.mpr ⟨result, h⟩, hr,
          harray, hi, hinner, hleft⟩

end CrdForge.Conversion
