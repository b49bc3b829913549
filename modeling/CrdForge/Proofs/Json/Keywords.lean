import CrdForge.Json
import CrdForge.OpenApi.Document
import CrdForge.Proofs.Keyed
import Mathlib.Algebra.Group.Nat.Defs
import Mathlib.Data.List.Forall2
import Mathlib.Data.Rat.Defs

/-! What the keywords of a schema say of a JSON value.

A schema is read keyword by keyword: a value that is not of the kind that a keyword is about is allowed
by it, and nested schemas are given by the values that they accept. Keywords that say less allow more
(`Weaker.allow`), and those that say the same allow the same (`Alike.allow_eq`), which is all that is
needed to compare two schemas whose nested schemas were compared before. -/
namespace CrdForge

/-! ### Values -/

/-- The exact value of a number, if it is finite. -/
def Number.rational? : Number → Option ℚ
  | .int value => some value
  | .float value =>
    let magnitude := Decimal.Binary.ofBits value.toBits
    let exact : ℚ := magnitude.mantissa * 2 ^ magnitude.exponent
    if value.isFinite then some (if value.toBits.toNat / 2 ^ 63 = 1 then -exact else exact) else none

namespace Json

/-- Whether a value is of the type of a name. -/
def HasType (name : String) : Json → Prop
  | .null => name = "null"
  | .bool _ => name = "boolean"
  | .number n => name = "number" ∨ name = "integer" ∧ ∃ value : ℤ, n.rational? = some (value : ℚ)
  | .string _ => name = "string"
  | .array _ => name = "array"
  | .object _ => name = "object"

/-- Whether a value is an integral multiple of a number, if it is a number. -/
def IsMultiple (unit : Float) : Json → Prop
  | .number n => ∃ value step, n.rational? = some value ∧ (Number.float unit).rational? = some step ∧
    ∃ count : ℤ, value = count * step
  | _ => True

/-- Values that are equal but for the order of entries and the way in which numbers are written. -/
inductive Same : Json → Json → Prop
  | null : Same .null .null
  | bool (value : Bool) : Same (.bool value) (.bool value)
  | number {first second : Number} {value : ℚ} : first.rational? = some value →
    second.rational? = some value →
    Same (.number first) (.number second)
  | string (value : String) : Same (.string value) (.string value)
  | array {first second : List Json} : List.Forall₂ Same first second → Same (.array first) (.array second)
  | object {first second : List (String × Json)} :
    (∀ key, Option.Rel Same (first.lookup key) (second.lookup key)) → Same (.object first) (.object second)

/-- The items of an array. -/
def elements : Json → List Json
  | .array items => items
  | _ => []

/-- Whether an entry is there, if the value is an object. -/
def HasEntry (name : String) : Json → Prop
  | .object entries => Keyed.has name entries = true
  | _ => True

end Json

/-! ### Keywords -/

/-- What is said of properties that are not listed, after a change of the schema for them. -/
def Additional.map {α β : Type} (change : α → β) : Additional α → Additional β
  | .flag allowed => .flag allowed
  | .schema nested => .schema (change nested)

/-- What a schema says, with the values that nested schemas accept in place of these. -/
structure Keywords where
  types : Option (List String) := none
  format : Option String := none
  /-- No values stand for any. -/
  enumeration : List Json := []
  multipleOf : Option Float := none
  required : List String := []
  items : Option (Json → Prop) := none
  properties : List (String × (Json → Prop)) := []
  additional : Option (Additional (Json → Prop)) := none
  allOf : List (Json → Prop) := []
  /-- No branches say nothing. -/
  anyOf : List (Json → Prop) := []
  /-- No branches say nothing. -/
  oneOf : List (Json → Prop) := []
  not : Option (Json → Prop) := none

namespace Keywords

/-- Whether the value of a property that is not listed is allowed. -/
def AllowsUnlisted (keywords : Keywords) (value : Json) : Prop :=
  match keywords.additional with
  | none => True
  | some (.flag allowed) => allowed = true
  | some (.schema accepts) => accepts value

/-- Whether a value is allowed by all keywords, given which values are of a format. -/
structure Allow (formats : String → Json → Prop) (keywords : Keywords) (value : Json) : Prop where
  types : ∀ names, keywords.types = some names → ∃ name ∈ names, value.HasType name
  format : ∀ format, keywords.format = some format → formats format value
  enumeration : keywords.enumeration = [] ∨ ∃ known ∈ keywords.enumeration, known.Same value
  multipleOf : ∀ unit, keywords.multipleOf = some unit → value.IsMultiple unit
  required : ∀ name ∈ keywords.required, value.HasEntry name
  items : ∀ accepts, keywords.items = some accepts → ∀ part ∈ value.elements, accepts part
  properties : ∀ name accepts, (name, accepts) ∈ keywords.properties → ∀ part, value.get? name = some part →
    accepts part
  additional : ∀ name part, value.get? name = some part → Keyed.has name keywords.properties = false →
    keywords.AllowsUnlisted part
  allOf : ∀ accepts ∈ keywords.allOf, accepts value
  anyOf : keywords.anyOf = [] ∨ ∃ accepts ∈ keywords.anyOf, accepts value
  oneOf : keywords.oneOf = [] ∨ ∃! index : Fin keywords.oneOf.length, keywords.oneOf.get index value
  not : ∀ accepts, keywords.not = some accepts → ¬ accepts value

/-! ### Weaker keywords -/

/-- Whether all values that are accepted in one way are accepted in another. -/
abbrev Within (strict loose : Json → Prop) : Prop := ∀ value, strict value → loose value

/-- Keywords that say no more than others. Of a choice between branches all
have a counterpart, or none is left. -/
structure Weaker (weak strong : Keywords) : Prop where
  types : weak.types = strong.types
  format : weak.format = none ∨ weak.format = strong.format
  enumeration : weak.enumeration = strong.enumeration
  multipleOf : weak.multipleOf = strong.multipleOf
  required : ∀ name ∈ weak.required, name ∈ strong.required
  items : ∀ loose, weak.items = some loose → ∃ strict, strong.items = some strict ∧ Within strict loose
  properties : ∀ name loose, (name, loose) ∈ weak.properties → ∃ strict, (name, strict) ∈ strong.properties ∧
    Within strict loose
  additional : (∀ part, weak.AllowsUnlisted part) ∨
    (∀ name, Keyed.has name strong.properties = true → Keyed.has name weak.properties = true) ∧
      Within strong.AllowsUnlisted weak.AllowsUnlisted
  allOf : ∀ loose ∈ weak.allOf, ∃ strict ∈ strong.allOf, Within strict loose
  anyOf : weak.anyOf = [] ∨
    strong.anyOf ≠ [] ∧ ∀ strict ∈ strong.anyOf, ∃ loose ∈ weak.anyOf, Within strict loose
  oneOf : weak.oneOf = []
  not : weak.not = none

/-- **What keywords allow is allowed by weaker ones.** -/
theorem Weaker.allow {weak strong : Keywords} (h : weak.Weaker strong) {formats : String → Json → Prop}
    {value : Json} (ha : strong.Allow formats value) : weak.Allow formats value where
  types names hn := ha.types names (h.types ▸ hn)
  format format hf := by
    rcases h.format with hn | he
    · rw [hn] at hf
      cases hf
    · exact ha.format format (he ▸ hf)
  enumeration := by
    rw [h.enumeration]
    exact ha.enumeration
  multipleOf unit hu := ha.multipleOf unit (h.multipleOf ▸ hu)
  required name hn := ha.required name (h.required name hn)
  items loose hl part hp := by
    obtain ⟨strict, hs, hw⟩ := h.items loose hl
    exact hw part (ha.items strict hs part hp)
  properties name loose hl part hp := by
    obtain ⟨strict, hs, hw⟩ := h.properties name loose hl
    exact hw part (ha.properties name strict hs part hp)
  additional name part hp hn := by
    rcases h.additional with hall | ⟨hlisted, hw⟩
    · exact hall part
    · refine hw part (ha.additional name part hp ?_)
      cases hs : Keyed.has name strong.properties with
      | false => rfl
      | true => rw [hlisted name hs] at hn; cases hn
  allOf loose hl := by
    obtain ⟨strict, hs, hw⟩ := h.allOf loose hl
    exact hw value (ha.allOf strict hs)
  anyOf := by
    rcases h.anyOf with hn | ⟨hne, hall⟩
    · exact .inl hn
    · obtain ⟨strict, hs, hv⟩ := ha.anyOf.resolve_left hne
      obtain ⟨loose, hl, hw⟩ := hall strict hs
      exact .inr ⟨loose, hl, hw value hv⟩
  oneOf := .inl h.oneOf
  not accepts hn := by
    rw [h.not] at hn
    cases hn

/-! ### Keywords that say the same -/

/-- Keywords that say the same, in whatever order they require and list properties. -/
structure Alike (first second : Keywords) : Prop where
  types : first.types = second.types
  format : first.format = second.format
  enumeration : first.enumeration = second.enumeration
  multipleOf : first.multipleOf = second.multipleOf
  required : ∀ name, name ∈ first.required ↔ name ∈ second.required
  items : first.items = second.items
  properties : ∀ property, property ∈ first.properties ↔ property ∈ second.properties
  additional : first.AllowsUnlisted = second.AllowsUnlisted
  allOf : first.allOf = second.allOf
  anyOf : first.anyOf = second.anyOf
  oneOf : first.oneOf = second.oneOf
  not : first.not = second.not

namespace Alike
variable {first second : Keywords} (h : first.Alike second)
include h

theorem symm : second.Alike first where
  types := h.types.symm
  format := h.format.symm
  enumeration := h.enumeration.symm
  multipleOf := h.multipleOf.symm
  required name := (h.required name).symm
  items := h.items.symm
  properties property := (h.properties property).symm
  additional := h.additional.symm
  allOf := h.allOf.symm
  anyOf := h.anyOf.symm
  oneOf := h.oneOf.symm
  not := h.not.symm

theorem has {name : String} (hn : Keyed.has name first.properties = true) :
    Keyed.has name second.properties = true := by
  obtain ⟨accepts, ha⟩ := Keyed.has_iff.mp hn
  exact Keyed.has_of_mem ((h.properties _).mp (Keyed.mem_of_lookup ha))

theorem allow {formats : String → Json → Prop} {value : Json} (ha : first.Allow formats value) :
    second.Allow formats value where
  types := h.types ▸ ha.types
  format := h.format ▸ ha.format
  enumeration := h.enumeration ▸ ha.enumeration
  multipleOf := h.multipleOf ▸ ha.multipleOf
  required name hn := ha.required name ((h.required name).mpr hn)
  items := h.items ▸ ha.items
  properties name accepts hm := ha.properties name accepts ((h.properties _).mpr hm)
  additional name part hp hn := by
    rw [← h.additional]
    refine ha.additional name part hp (Bool.eq_false_iff.mpr fun hf => ?_)
    rw [h.has hf] at hn
    cases hn
  allOf := h.allOf ▸ ha.allOf
  anyOf := h.anyOf ▸ ha.anyOf
  oneOf := h.oneOf ▸ ha.oneOf
  not := h.not ▸ ha.not

/-- **Keywords that say the same allow the same values.** -/
theorem allow_eq (formats : String → Json → Prop) : first.Allow formats = second.Allow formats :=
  funext fun _ => propext ⟨h.allow, h.symm.allow⟩

end Alike

end Keywords

end CrdForge
