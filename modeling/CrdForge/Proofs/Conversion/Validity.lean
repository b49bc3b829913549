import CrdForge.Proofs.Conversion.Fineness
import CrdForge.Proofs.Json.Keywords
import Mathlib.Order.FixedPoints

/-! Conversions reject nothing that the API accepts.

Both kinds of schemas are read by the same keywords (`Keywords.Allow`). A schema of the API may nest
itself through references, so what it accepts is the greatest predicate that agrees with its keywords: a
value is accepted unless some keyword that is reached rejects it. The schema of a resource is a tree, and
is read by recursion.

A conversion without plugins makes keywords weaker at every node (`bareShape_weaker`): formats, items and
required properties may go, and at the depth bound all that is nested goes at once, so that no branch of
a choice is lost alone and no property becomes an unlisted one. -/
namespace CrdForge

/-! ### Schemas of the API -/

namespace OpenApi

/-- The names that a value may be of the type of. -/
def TypeNames.names : TypeNames → List String
  | .one name => [name]
  | .many names => names

theorem Schema.typeName_of_single {source : Schema} {name : String}
    (h : source.type.map TypeNames.names = some [name]) : source.typeName = some name := by
  rw [typeName]
  obtain ⟨_ | names, ht, he⟩ := Option.map_eq_some_iff.mp h
  · rw [ht, ← List.head_eq_of_cons_eq he]
  · rw [ht]
    exact congrArg List.head? he

/-- What a schema says that uses neither `oneOf` nor `not`. -/
def Schema.keywords (accepts : Schema → Json → Prop) (source : Schema) : Keywords where
  types := source.type.map TypeNames.names
  format := source.format
  enumeration := source.enumeration
  multipleOf := source.multipleOf
  required := source.required
  items := source.items.map accepts
  properties := source.properties.map fun (name, property) => (name, accepts property)
  additional := source.additional.map (Additional.map accepts)
  allOf := source.allOf.map accepts
  anyOf := source.anyOf.map accepts

/-- The schemas that a schema nests. -/
def Schema.nested (source : Schema) : List Schema :=
  source.items.toList ++ source.properties.map (·.2) ++ source.additionalSchema.toList ++ source.allOf ++
    source.anyOf ++ source.oneOf ++ source.not.toList

namespace Schema
variable {source other : Schema}

theorem mem_nested_of_items (h : source.items = some other) : other ∈ source.nested := by simp [nested, h]

theorem mem_nested_of_property {property : String × Schema} (h : property ∈ source.properties) :
    property.2 ∈ source.nested := by simp [nested, List.mem_map_of_mem h]

theorem mem_nested_of_additional (h : source.additionalSchema = some other) : other ∈ source.nested := by
  simp [nested, h]

theorem mem_nested_of_not (h : source.not = some other) : other ∈ source.nested := by simp [nested, h]

theorem allOf_subset_nested : source.allOf ⊆ source.nested := fun branch h => by simp [nested, h]

theorem anyOf_subset_nested : source.anyOf ⊆ source.nested := fun branch h => by simp [nested, h]

theorem oneOf_subset_nested : source.oneOf ⊆ source.nested := fun branch h => by simp [nested, h]

end Schema

/-- Readings that accept less make keywords that say more. -/
theorem Schema.keywords_weaker {loose strict : Schema → Json → Prop} (source : Schema)
    (h : ∀ nested, Keywords.Within (strict nested) (loose nested)) :
    (source.keywords loose).Weaker (source.keywords strict) where
  types := rfl
  format := .inr rfl
  enumeration := rfl
  multipleOf := rfl
  required _ hn := hn
  items part hp := by
    obtain ⟨items, hi, rfl⟩ := Option.map_eq_some_iff.mp hp
    exact ⟨strict items, Option.map_eq_some_iff.mpr ⟨items, hi, rfl⟩, h items⟩
  properties name part hp := by
    obtain ⟨⟨key, property⟩, hm, he⟩ := List.mem_map.mp hp
    cases he
    exact ⟨strict property, List.mem_map.mpr ⟨(name, property), hm, rfl⟩, h property⟩
  additional := by
    refine .inr ⟨fun name hn => ?_, fun part hp => ?_⟩
    · rw [Keyed.has, keywords, Keyed.lookup_map, Option.isSome_map] at hn ⊢
      exact hn
    · rw [Keywords.AllowsUnlisted, keywords] at hp ⊢
      cases ha : source.additional with
      | none => trivial
      | some additional =>
        rw [ha] at hp
        cases additional with
        | flag allowed => exact hp
        | schema nested => exact h nested part hp
  allOf part hp := by
    obtain ⟨branch, hb, rfl⟩ := List.mem_map.mp hp
    exact ⟨strict branch, List.mem_map_of_mem hb, h branch⟩
  anyOf := by
    by_cases hn : source.anyOf = []
    · exact .inl (by rw [keywords, hn]; rfl)
    · refine .inr ⟨fun he => hn (List.map_eq_nil_iff.mp he), fun part hp => ?_⟩
      obtain ⟨branch, hb, rfl⟩ := List.mem_map.mp hp
      exact ⟨loose branch, List.mem_map_of_mem hb, h branch⟩
  oneOf := rfl
  not := rfl

namespace Document

/-- Whether a schema of a document accepts a value by its own keywords, given which values are of a
format and what nested schemas accept. The schema may be a reference. -/
def acceptance (document : Document) (formats : String → Json → Prop) :
    (Schema → Json → Prop) →o Schema → Json → Prop where
  toFun accepts schema value :=
    ∃ source, document.resolve schema = some source ∧ (source.keywords accepts).Allow formats value
  monotone' _ _ h _ _ := fun ⟨source, hr, ha⟩ =>
    ⟨source, hr, (source.keywords_weaker fun nested value => h nested value).allow ha⟩

/-- Whether a schema of a document accepts a value, given which values are of a format. References are
followed wherever schemas nest, as often as the schemas do. -/
def Accepts (document : Document) (formats : String → Json → Prop) : Schema → Json → Prop :=
  (document.acceptance formats).gfp

/-- What nested schemas accept is what they accept on their own. -/
theorem accepts_iff {document : Document} {formats : String → Json → Prop} {schema : Schema} {value : Json} :
    document.Accepts formats schema value ↔ ∃ source, document.resolve schema = some source ∧
      (source.keywords (document.Accepts formats)).Allow formats value :=
  iff_of_eq (congrFun₂ (document.acceptance formats).map_gfp schema value).symm

/-- A schema that another one comes to nest, with references followed. -/
inductive Reaches (document : Document) : Schema → Schema → Prop
  | here (schema : Schema) : Reaches document schema schema
  | nested {schema source nested other : Schema} :
    document.resolve schema = some source → nested ∈ source.nested → Reaches document nested other →
      Reaches document schema other

/-- Whether a schema has a single type, and neither a choice of exactly one branch nor an excluded one. -/
structure Plain (source : Schema) : Prop where
  type : ∃ name, source.type.map TypeNames.names = some [name]
  oneOf : source.oneOf = []
  not : source.not = none

/-- Whether every schema that is reached leads to a plain one. -/
def PlainBelow (document : Document) (schema : Schema) : Prop :=
  ∀ other, document.Reaches schema other → ∃ source, document.resolve other = some source ∧ Plain source

theorem PlainBelow.nested {document : Document} {schema source nested : Schema}
    (h : document.PlainBelow schema) (hr : document.resolve schema = some source)
    (hn : nested ∈ source.nested) : document.PlainBelow nested :=
  fun other ho => h other (.nested hr hn ho)

end Document

end OpenApi

/-! ### Schemas of resources -/

namespace Crd

/-- What a schema says. -/
def Schema.keywords (accepts : Schema → Json → Prop) (schema : Schema) : Keywords where
  types := schema.type.map ([·])
  format := schema.format
  enumeration := schema.enumeration
  multipleOf := schema.multipleOf
  required := schema.required
  items := schema.items.map accepts
  properties := schema.properties.map fun (name, property) => (name, accepts property)
  additional := schema.additional.map (Additional.map accepts)
  allOf := schema.allOf.map accepts
  anyOf := schema.anyOf.map accepts
  oneOf := schema.oneOf.map accepts
  not := schema.not.map accepts

section
variable (formats : String → Json → Prop)

mutual
/-- Whether a schema accepts a value, given which values are of a format. -/
def Schema.Accepts : Schema → Json → Prop
  | ⟨_, type, format, _, _, _, _, enumeration, multipleOf, required, items, properties,
      additional, allOf, oneOf, anyOf, not, _, _, _, _⟩ =>
    Keywords.Allow formats {
      types := type.map ([·])
      format := format
      enumeration := enumeration
      multipleOf := multipleOf
      required := required
      items := accepts? items
      properties := acceptsProperties properties
      additional := acceptsAdditional? additional
      allOf := acceptsEach allOf
      anyOf := acceptsEach anyOf
      oneOf := acceptsEach oneOf
      not := accepts? not }
termination_by structural x => x

def accepts? : Option Schema → Option (Json → Prop)
  | none => none
  | some schema => some schema.Accepts
termination_by structural x => x

def acceptsEach : List Schema → List (Json → Prop)
  | [] => []
  | schema :: rest => schema.Accepts :: acceptsEach rest
termination_by structural x => x

def acceptsProperties : List (String × Schema) → List (String × (Json → Prop))
  | [] => []
  | property :: rest => acceptsProperty property :: acceptsProperties rest
termination_by structural x => x

def acceptsProperty : String × Schema → String × (Json → Prop)
  | (name, schema) => (name, schema.Accepts)
termination_by structural x => x

def acceptsAdditional? : Option (Additional Schema) → Option (Additional (Json → Prop))
  | none => none
  | some additional => some (acceptsAdditional additional)
termination_by structural x => x

def acceptsAdditional : Additional Schema → Additional (Json → Prop)
  | .flag allowed => .flag allowed
  | .schema schema => .schema schema.Accepts
termination_by structural x => x
end

theorem accepts?_eq (schema : Option Schema) :
    accepts? formats schema = schema.map (Schema.Accepts formats) := by
  cases schema <;> rfl

theorem acceptsEach_eq (schemas : List Schema) :
    acceptsEach formats schemas = schemas.map (Schema.Accepts formats) := by
  induction schemas with
  | nil => rfl
  | cons schema rest ih => rw [acceptsEach, ih, List.map_cons]

theorem acceptsProperties_eq (properties : List (String × Schema)) :
    acceptsProperties formats properties =
      properties.map fun (name, property) => (name, property.Accepts formats) := by
  induction properties with
  | nil => rfl
  | cons property rest ih => rw [acceptsProperties, ih, List.map_cons, acceptsProperty]

theorem acceptsAdditional?_eq (additional : Option (Additional Schema)) :
    acceptsAdditional? formats additional = additional.map (Additional.map (Schema.Accepts formats)) := by
  rcases additional with _ | _ | _ <;> rfl

theorem Schema.accepts_eq (schema : Schema) :
    schema.Accepts formats = (schema.keywords (Schema.Accepts formats)).Allow formats := by
  cases schema
  simp only [Schema.Accepts, keywords, accepts?_eq, acceptsEach_eq, acceptsProperties_eq,
    acceptsAdditional?_eq]

end

end Crd

/-! ### Conversions without plugins -/

namespace Conversion

open Keywords (Within)
open OpenApi (Document)
open OpenApi.Schema (mem_nested_of_items mem_nested_of_property mem_nested_of_additional
  allOf_subset_nested anyOf_subset_nested)

section
variable {document : Document} {formats : String → Json → Prop} {setting : Setting} {shape : Shape}
  {path : List String} {source : OpenApi.Schema}

/-- Whether whatever a schema is converted to accepts all that the schema
accepts, and asks for no other name. -/
def Loosens (document : Document) (formats : String → Json → Prop) (shape : Shape) (schema : OpenApi.Schema) :
    Prop :=
  ∀ path result, shape schema path = some result →
    result.id = none ∧ Within (document.Accepts formats schema) (result.Accepts formats)

/-- Whether all schemas that a schema nests have conversions, or none of them. -/
def Together (shape : Shape) (source : OpenApi.Schema) : Prop :=
  (∀ nested ∈ source.nested, ∀ path, shape nested path = none) ∨
    ∀ nested ∈ source.nested, ∀ path, (shape nested path).isSome = true

/-! #### Properties -/

/-- No property is renamed if no conversion asks for it. -/
theorem propertyShapes_renames {properties : List (String × OpenApi.Schema)} {found : Properties}
    (h : ∀ key schema converted, (key, schema) ∈ properties → shape schema (path ++ [key]) = some converted →
      converted.id = none) : (propertyShapes shape path found properties).renames = found.renames := by
  induction properties generalizing found with
  | nil => rfl
  | cons property rest ih =>
    obtain ⟨key, schema⟩ := property
    have hrest := fun key schema converted hm => h key schema converted (List.mem_cons_of_mem _ hm)
    rw [propertyShapes]
    split
    · next converted hc =>
      rw [ih hrest, Properties.list, h key schema converted (List.mem_cons_self ..) hc]
      rfl
    · exact ih hrest

/-! #### Single nodes -/

/-- What becomes of a source with neither plugins nor a choice of exactly one branch. -/
def bareShape (shape : Shape) (path : List String) (source : OpenApi.Schema) : Crd.Schema :=
  reconcileRequired (partShapes shape path source).2 (settle source (partShapes shape path source).1)

theorem sourceShape_bare (hp : setting.plugins = []) (ho : source.oneOf = []) :
    sourceShape setting shape path source = some (bareShape shape path source) := by
  have hu : isUnion source = false := by rw [isUnion, ho]; rfl
  have hsame (schema : Crd.Schema) : unionShape shape path source schema = schema := by
    simp [unionShape, isTagged, hu]
  rw [sourceShape, hp]
  exact congrArg (some <| reconcileRequired _ ·) (hsame _)

/-- A schema that converts a schema of a plain source has its type, and only one. -/
theorem bareShape_types (hs : Document.Plain source) :
    (bareShape shape path source).type.map ([·]) = source.type.map OpenApi.TypeNames.names := by
  obtain ⟨name, hn⟩ := hs.type
  rw [hn]
  show some [source.typeName.getD "object"] = some [name]
  rw [OpenApi.Schema.typeName_of_single hn, Option.getD_some]

theorem bareShape_format :
    (bareShape shape path source).format = none ∨ (bareShape shape path source).format = source.format := by
  show source.format.filter _ = none ∨ source.format.filter _ = source.format
  cases source.format with
  | none => exact .inl rfl
  | some format =>
    rw [Option.filter_some]
    split
    · exact .inr rfl
    · exact .inl rfl

section
variable (hl : ∀ nested ∈ source.nested, Loosens document formats shape nested)
include hl

/-- Nothing is renamed, so what is required is required in the source. -/
theorem bareShape_required {name : String} (hn : name ∈ (bareShape shape path source).required) :
    name ∈ source.required := by
  have hr : (propertyShapes shape path {} source.properties).renames = [] :=
    propertyShapes_renames fun key schema converted hm hc =>
      (hl schema (mem_nested_of_property hm) _ converted hc).1
  rw [bareShape, reconcileRequired, Keyed.mem_distinct] at hn
  obtain ⟨key, hk, rfl⟩ := List.mem_map.mp (List.mem_filter.mp hn).1
  rw [partShapes, hr, List.lookup_nil, Option.getD_none]
  exact hk

/-- A property that is listed is the conversion of the one that the source lists under the same name. -/
theorem bareShape_properties {name : String} {listed : Crd.Schema}
    (hm : (name, listed) ∈ (bareShape shape path source).properties) :
    ∃ property, (name, property) ∈ source.properties ∧
      Within (document.Accepts formats property) (listed.Accepts formats) := by
  have hsorted : Keyed.Sorted (propertyShapes shape path {} source.properties).properties :=
    propertyShapes_sorted .nil
  rcases propertyShapes_lookup (hsorted.lookup_of_mem hm) with
    hf | ⟨key, property, converted, hp, hc, hk, hd⟩
  · cases hf
  · obtain ⟨hid, hw⟩ := hl property (mem_nested_of_property hp) _ converted hc
    obtain rfl : listed = converted := hd.trans (unnamed_eq hid)
    obtain rfl : name = key := by rw [hk, hid, Option.getD_none]
    exact ⟨property, hp, hw⟩

/-- If all that is nested has a conversion, all properties stay listed. -/
theorem has_bareShape (hall : ∀ nested ∈ source.nested, ∀ path, (shape nested path).isSome = true)
    {name : String} (h : Keyed.has name source.properties = true) :
    Keyed.has name (bareShape shape path source).properties = true := by
  obtain ⟨property, hp⟩ := Keyed.has_iff.mp h
  have hm := Keyed.mem_of_lookup hp
  have hn : property ∈ source.nested := mem_nested_of_property hm
  obtain ⟨converted, hc⟩ := Option.isSome_iff_exists.mp (hall property hn (path ++ [name]))
  have hlisted : Keyed.has (converted.id.getD name) (bareShape shape path source).properties = true :=
    has_propertyShapes.mpr (.inr ⟨(name, property), hm, converted, hc, rfl⟩)
  rwa [(hl property hn _ converted hc).1, Option.getD_none] at hlisted

/-- Properties that are not listed in the conversion are not listed in the
source, or anything goes for them. -/
theorem bareShape_additional (path : List String) (ht : Together shape source) :
    (∀ part, ((bareShape shape path source).keywords (Crd.Schema.Accepts formats)).AllowsUnlisted part) ∨
      (∀ name, Keyed.has name source.properties = true →
          Keyed.has name (bareShape shape path source).properties = true) ∧
        Within (source.keywords (document.Accepts formats)).AllowsUnlisted
          ((bareShape shape path source).keywords (Crd.Schema.Accepts formats)).AllowsUnlisted := by
  have hadditional : ((bareShape shape path source).keywords (Crd.Schema.Accepts formats)).additional =
    (additionalShape shape path source.additionalSchema).map
      (Additional.map (Crd.Schema.Accepts formats)) := rfl
  unfold Keywords.AllowsUnlisted
  rw [hadditional]
  cases ha : source.additionalSchema with
  | none => exact .inl fun _ => trivial
  | some nested =>
    have hn : nested ∈ source.nested := mem_nested_of_additional ha
    have hs : source.additional = some (.schema nested) := by
      rw [OpenApi.Schema.additionalSchema] at ha
      split at ha
      · next hs => rw [hs, Option.some.inj ha]
      · cases ha
    rcases ht with hnone | hall
    · left
      rw [additionalShape, Option.map_some, hnone nested hn]
      exact fun _ => rfl
    · obtain ⟨result, hc⟩ := Option.isSome_iff_exists.mp (hall nested hn path)
      refine .inr ⟨fun _ hp => has_bareShape hl hall hp, fun part hp => ?_⟩
      rw [OpenApi.Schema.keywords, hs] at hp
      rw [additionalShape, Option.map_some, hc]
      exact (hl nested hn path result hc).2 part hp

/-- A branch that is kept is made of one of the source that accepts no more. -/
theorem branchShapes_within {branches : List OpenApi.Schema} (hsub : branches ⊆ source.nested)
    {result : Crd.Schema} (hr : result ∈ branchShapes shape path branches) :
    ∃ branch ∈ branches, Within (document.Accepts formats branch) (result.Accepts formats) := by
  obtain ⟨branch, hb, hc⟩ := List.mem_filterMap.mp hr
  exact ⟨branch, hb, (hl branch (hsub hb) path result hc).2⟩

/-- A choice is left out, or each of its branches has a counterpart that accepts no less. -/
theorem bareShape_anyOf (path : List String) (ht : Together shape source) :
    (bareShape shape path source).anyOf = [] ∨ source.anyOf ≠ [] ∧
      ∀ branch ∈ source.anyOf, ∃ result ∈ (bareShape shape path source).anyOf,
        Within (document.Accepts formats branch) (result.Accepts formats) := by
  show branchShapes shape path source.anyOf = [] ∨ source.anyOf ≠ [] ∧
    ∀ branch ∈ source.anyOf, ∃ result ∈ branchShapes shape path source.anyOf, _
  by_cases hempty : source.anyOf = []
  · left
    rw [hempty]
    rfl
  rcases ht with hnone | hall
  · exact .inl (List.filterMap_eq_nil_iff.mpr fun branch hb => hnone branch (anyOf_subset_nested hb) path)
  · refine .inr ⟨hempty, fun branch hb => ?_⟩
    obtain ⟨result, hc⟩ := Option.isSome_iff_exists.mp (hall branch (anyOf_subset_nested hb) path)
    exact ⟨result, List.mem_filterMap.mpr ⟨branch, hb, hc⟩,
      (hl branch (anyOf_subset_nested hb) path result hc).2⟩

/-- **A conversion makes the keywords of a plain schema weaker**, if it does so with what the schema nests. -/
theorem bareShape_weaker (path : List String) (hs : Document.Plain source) (ht : Together shape source) :
    ((bareShape shape path source).keywords (Crd.Schema.Accepts formats)).Weaker
      (source.keywords (document.Accepts formats)) where
  types := bareShape_types hs
  format := bareShape_format
  enumeration := rfl
  multipleOf := rfl
  required _ hn := bareShape_required hl hn
  items loose hi := by
    obtain ⟨result, hc, rfl⟩ := Option.map_eq_some_iff.mp hi
    have hshape : itemsShape shape path source.items = some result := hc
    obtain ⟨items, hm, hc⟩ := Option.bind_eq_some_iff.mp hshape
    exact ⟨document.Accepts formats items, Option.map_eq_some_iff.mpr ⟨items, hm, rfl⟩,
      (hl items (mem_nested_of_items hm) _ result hc).2⟩
  properties name loose hm := by
    obtain ⟨⟨_, listed⟩, hlisted, he⟩ := List.mem_map.mp hm
    cases he
    obtain ⟨property, hp, hw⟩ := bareShape_properties hl hlisted
    exact ⟨document.Accepts formats property, List.mem_map.mpr ⟨(name, property), hp, rfl⟩, hw⟩
  additional := by
    rcases bareShape_additional hl path ht with hall | ⟨hlisted, hw⟩
    · exact .inl hall
    · refine .inr ⟨fun name hn => ?_, hw⟩
      rw [Keyed.has, OpenApi.Schema.keywords, Keyed.lookup_map, Option.isSome_map] at hn
      rw [Keyed.has, Crd.Schema.keywords, Keyed.lookup_map, Option.isSome_map]
      exact hlisted name hn
  allOf loose hm := by
    obtain ⟨result, hr, rfl⟩ := List.mem_map.mp hm
    obtain ⟨branch, hb, hw⟩ := branchShapes_within hl allOf_subset_nested hr
    exact ⟨document.Accepts formats branch, List.mem_map_of_mem hb, hw⟩
  anyOf := by
    rcases bareShape_anyOf hl path ht with hnone | ⟨hsome, hall⟩
    · exact .inl (List.map_eq_nil_iff.mpr hnone)
    · refine .inr ⟨mt List.map_eq_nil_iff.mp hsome, fun strict hm => ?_⟩
      obtain ⟨branch, hb, rfl⟩ := List.mem_map.mp hm
      obtain ⟨result, hr, hw⟩ := hall branch hb
      exact ⟨result.Accepts formats, List.mem_map_of_mem hr, hw⟩
  oneOf := by
    show List.map _ (if isUnion source then [] else branchShapes shape path source.oneOf) = []
    rw [hs.oneOf, branchShapes, List.filterMap_nil, ite_self, List.map_nil]
  not := by
    show Option.map _ (optionShape shape path source.not) = none
    rw [hs.not]
    rfl

end

/-! #### Whole schemas -/

theorem shapeWithin_bare (hp : setting.plugins = []) {schema : OpenApi.Schema}
    (hr : setting.document.resolve schema = some source) (hs : Document.Plain source) (depth : Nat) :
    shapeWithin setting (depth + 1) schema path =
      some (bareShape (shapeWithin setting depth) (rooted path) source) := by
  rw [shapeWithin, hr, Option.bind_some, sourceShape_bare hp hs.oneOf]

/-- Below the depth bound nothing has a conversion, above it everything has. -/
theorem shapeWithin_together (hp : setting.plugins = [])
    (hb : ∀ nested ∈ source.nested, setting.document.PlainBelow nested) (depth : Nat) :
    Together (shapeWithin setting depth) source := by
  cases depth with
  | zero => exact .inl fun _ _ _ => rfl
  | succ depth =>
    right
    intro nested hn path
    obtain ⟨inner, hr, hs⟩ := hb nested hn nested (.here nested)
    rw [shapeWithin_bare hp hr hs]
    rfl

theorem shapeWithin_loosens (hp : setting.plugins = []) (formats : String → Json → Prop) (depth : Nat)
    {schema : OpenApi.Schema} (hb : setting.document.PlainBelow schema) :
    Loosens setting.document formats (shapeWithin setting depth) schema := by
  induction depth generalizing schema with
  | zero =>
    intro path result h
    cases h
  | succ depth ih =>
    intro path result h
    obtain ⟨source, hr, hs⟩ := hb schema (.here schema)
    have hnested : ∀ nested ∈ source.nested, setting.document.PlainBelow nested :=
      fun nested hn => hb.nested hr hn
    rw [shapeWithin_bare hp hr hs] at h
    obtain rfl := Option.some.inj h
    refine ⟨rfl, fun value ha => ?_⟩
    rw [OpenApi.Document.accepts_iff] at ha
    obtain ⟨source', hr', ha⟩ := ha
    rw [hr] at hr'
    obtain rfl := Option.some.inj hr'
    rw [Crd.Schema.accepts_eq]
    have hloosens : ∀ nested ∈ source.nested,
        Loosens setting.document formats (shapeWithin setting depth) nested :=
      fun nested hn => ih (hnested nested hn)
    exact (bareShape_weaker hloosens (rooted path) hs (shapeWithin_together hp hnested depth)).allow ha

end

/-- **Without plugins, a schema that is plain wherever it leads has a conversion unless it nests too deep
already, and the conversion accepts all that the schema accepts**, whatever values are of a format. -/
theorem convert_accepts {document : Document} (filters : Config.Filters) {schema : OpenApi.Schema}
    (h : document.PlainBelow schema) (node : Extension.NodeId) (path : List String) (depth : Nat)
    (tree : Extension.Tree) :
    ((convert ⟨document, filters, []⟩ ⟨some schema, node, path⟩ depth tree).1.isSome = true ↔
        depth < maxDepth) ∧
      ∀ result, (convert ⟨document, filters, []⟩ ⟨some schema, node, path⟩ depth tree).1 = some result →
        ∀ formats value, document.Accepts formats schema value → result.Accepts formats value := by
  have hshape : (convert ⟨document, filters, []⟩ ⟨some schema, node, path⟩ depth tree).1 =
      shapeWithin ⟨document, filters, []⟩ (maxDepth - depth) schema path := convertWithin_fst _ _ _ _
  rw [hshape]
  constructor
  · cases hd : maxDepth - depth with
    | zero =>
      have hle : ¬ depth < maxDepth := by omega
      exact iff_of_false Bool.false_ne_true hle
    | succ above =>
      obtain ⟨source, hr, hs⟩ := h schema (.here schema)
      have hlt : depth < maxDepth := by omega
      refine iff_of_true ?_ hlt
      rw [shapeWithin_bare rfl hr hs]
      rfl
  · intro result hr formats
    exact (shapeWithin_loosens rfl formats _ h path result hr).2

/-! #### Folders in folders -/

/-- A reference to a folder. -/
def folderReference : OpenApi.Schema where
  reference := some "#/components/schemas/Folder"

def folderName : OpenApi.Schema where
  type := some (.one "string")

/-- What has a name, and a folder inside if there is one. -/
def folder : OpenApi.Schema where
  type := some (.one "object")
  required := ["name"]
  properties := [("inside", folderReference), ("name", folderName)]
  additional := some (.flag false)

def folders : Document where
  components := { schemas := [("Folder", folder)] }

/-- That many folders in each other, and one more. -/
def nestedFolders : Nat → Json
  | 0 => .object [("name", .string "last")]
  | depth + 1 => .object [("inside", nestedFolders depth), ("name", .string "next")]

theorem folders_resolve : folders.resolve folderReference = some folder := rfl

theorem folders_plain : folders.PlainBelow folderReference := by
  have hplace (schema other : OpenApi.Schema) (h : folders.Reaches schema other)
      (hs : schema = folderReference ∨ schema = folderName) : other = folderReference ∨
        other = folderName := by
    induction h with
    | here => exact hs
    | nested hr hn _ ih =>
      refine ih ?_
      rcases hs with rfl | rfl
      · obtain rfl := Option.some.inj (folders_resolve.symm.trans hr)
        simpa [OpenApi.Schema.nested, OpenApi.Schema.additionalSchema, folder] using hn
      · obtain rfl := Option.some.inj (show some folderName = some _ from hr)
        simp [OpenApi.Schema.nested, OpenApi.Schema.additionalSchema, folderName] at hn
  intro other ho
  rcases hplace folderReference other ho (.inl rfl) with rfl | rfl
  · exact ⟨folder, folders_resolve, ⟨"object", rfl⟩, rfl, rfl⟩
  · exact ⟨folderName, rfl, ⟨"string", rfl⟩, rfl, rfl⟩

theorem folderName_accepts (formats : String → Json → Prop) (text : String) :
    folders.Accepts formats folderName (.string text) := by
  rw [OpenApi.Document.accepts_iff]
  refine ⟨folderName, rfl, ?_⟩
  constructor <;> simp [OpenApi.Schema.keywords, folderName, OpenApi.TypeNames.names, Json.HasType, Json.get?,
    Json.elements]

theorem folder_accepts {formats : String → Json → Prop} {entries : List (String × Json)} (text : String)
    (hname : entries.lookup "name" = some (.string text))
    (hinside : ∀ part, entries.lookup "inside" = some part → folders.Accepts formats folderReference part)
    (honly : ∀ name part, entries.lookup name = some part → name = "inside" ∨ name = "name") :
    folders.Accepts formats folderReference (.object entries) := by
  rw [OpenApi.Document.accepts_iff]
  refine ⟨folder, folders_resolve, ?_⟩
  constructor
  case required =>
    intro name hn
    obtain rfl := List.mem_singleton.mp hn
    exact Keyed.has_iff.mpr ⟨_, hname⟩
  case properties =>
    intro name accepts hm part hp
    simp only [OpenApi.Schema.keywords, folder, List.map_cons, List.map_nil, List.mem_cons, Prod.mk.injEq,
      List.not_mem_nil, or_false] at hm
    rcases hm with ⟨rfl, rfl⟩ | ⟨rfl, rfl⟩
    · exact hinside part hp
    · obtain rfl := Option.some.inj (hname.symm.trans hp)
      exact folderName_accepts formats text
  case additional =>
    intro name part hp hn
    rcases honly name part hp with rfl | rfl <;> cases hn
  all_goals simp [OpenApi.Schema.keywords, folder, OpenApi.TypeNames.names, Json.HasType, Json.elements]

theorem folders_accept (formats : String → Json → Prop) (depth : Nat) :
    folders.Accepts formats folderReference (nestedFolders depth) := by
  induction depth with
  | zero =>
    refine folder_accepts "last" rfl (fun part hp => nomatch hp) fun name part hp => ?_
    rw [Keyed.lookup_cons] at hp
    split at hp
    · next hn => exact .inr hn
    · cases hp
  | succ depth ih =>
    refine folder_accepts "next" rfl (fun part hp => Option.some.inj hp ▸ ih) fun name part hp => ?_
    rw [Keyed.lookup_cons, Keyed.lookup_cons] at hp
    split at hp
    · next hn => exact .inl hn
    · split at hp
      · next hn => exact .inr hn
      · cases hp

/-- More folders nest in each other than a conversion follows. -/
theorem deep_folders_accepted :
    folders.PlainBelow folderReference ∧
      ∃ result, (convert ⟨folders, {}, []⟩ ⟨some folderReference, Extension.Tree.root, []⟩ 0 .empty).1 =
        some result ∧ ∀ formats, result.Accepts formats (nestedFolders (maxDepth + 2)) := by
  obtain ⟨hsome, haccepts⟩ := convert_accepts {} folders_plain Extension.Tree.root [] 0 .empty
  obtain ⟨result, hr⟩ := Option.isSome_iff_exists.mp (hsome.mpr (by decide))
  exact ⟨folders_plain, result, hr, fun formats => haccepts result hr formats _ (folders_accept formats _)⟩

end Conversion

end CrdForge
