import CrdForge.Proofs.Conversion.Filtering
import CrdForge.Proofs.Conversion.Readings

/-! What becomes of a choice of exactly one branch.

A branch that accepts more after its conversion may take away what another one accepted alone, so a
choice is kept if its branches accept after their conversion exactly what they accepted before. They do
so without plugins if each schema in them is one of which nothing is lost (`shapeWithin_retains`). Then
exactly one branch accepts what the choice accepted (`convert_oneOf`). Whatever else is lost makes a
choice one that is lost too (`choices_confused`). -/
namespace CrdForge

/-! ### Schemas of which nothing is lost -/

namespace OpenApi.Document

/-- Whether a conversion keeps all that a schema says by itself. -/
structure Lossless (source : Schema) : Prop where
  /-- There is a single type. -/
  type : ∃ name, source.type.map TypeNames.names = some [name]
  format : ∀ format, source.format = some format → format ∈ Crd.supportedFormats
  /-- What is required is listed. -/
  required : ∀ name ∈ source.required, Keyed.has name source.properties = true
  distinct : (Keyed.keys source.properties).Nodup
  /-- What is not listed is not forbidden. -/
  additional : source.additional ≠ some (.flag false)
  /-- A choice between references does not become an object with a property for each. -/
  union : Conversion.isUnion source = true → source.properties ≠ [] ∨ source.additionalSchema ≠ none

/-- Whether a conversion keeps all that a schema says, with no more schemas
nested in each other than that many. -/
abbrev KeptWithin (document : Document) : Nat → Schema → Prop := document.AllWithin Lossless

end OpenApi.Document

namespace Conversion

open OpenApi (Document)
open OpenApi.Schema (mem_nested_of_items mem_nested_of_property mem_nested_of_additional
  mem_nested_of_not allOf_subset_nested anyOf_subset_nested oneOf_subset_nested)

section
variable {document : Document} {formats : String → Json → Prop} {accepts : OpenApi.Schema → Json → Prop}
  {setting : Setting} {shape : Shape} {path : List String} {source : OpenApi.Schema}

/-- Whether whatever a schema is converted to accepts what the schema accepts, and asks for no other name. -/
def Retains (accepts : OpenApi.Schema → Json → Prop) (formats : String → Json → Prop) (shape : Shape)
    (schema : OpenApi.Schema) : Prop :=
  ∀ path, ∃ result, shape schema path = some result ∧ result.id = none ∧
    result.Accepts formats = accepts schema

theorem Retains.of_converted {schema : OpenApi.Schema} {converted : Crd.Schema}
    (h : Retains accepts formats shape schema) (hc : shape schema path = some converted) :
    converted.id = none ∧ converted.Accepts formats = accepts schema := by
  obtain ⟨result, hr, hresult⟩ := h path
  obtain rfl := Option.some.inj (hr.symm.trans hc)
  exact hresult

/-! #### Single nodes -/

/-- What becomes of a source without plugins, unless it is a choice between
references that becomes an object. -/
def keptShape (shape : Shape) (path : List String) (source : OpenApi.Schema) : Crd.Schema :=
  reconcileRequired (partShapes shape path source).2
    { settle source (partShapes shape path source).1 with oneOf := branchShapes shape path source.oneOf }

theorem sourceShape_kept (hp : setting.plugins = [])
    (hu : isTagged source (partShapes shape path source).1 = false) :
    sourceShape setting shape path source = some (keptShape shape path source) := by
  have hunion : unionShape shape path source (settle source (partShapes shape path source).1) =
      { settle source (partShapes shape path source).1 with
        oneOf := branchShapes shape path source.oneOf } := by
    have htagged : isTagged source (settle source (partShapes shape path source).1) = false := hu
    rw [unionShape, if_neg (Bool.eq_false_iff.mp htagged)]
    split
    · rfl
    · next hplain => simp [partShapes, settle, hplain]
  rw [sourceShape, hp]
  exact congrArg (some <| reconcileRequired _ ·) hunion

theorem map_branchShapes {β : Type} {f : Crd.Schema → β} {g : OpenApi.Schema → β}
    {branches : List OpenApi.Schema}
    (h : ∀ branch ∈ branches, ∃ result, shape branch path = some result ∧ f result = g branch) :
    (branchShapes shape path branches).map f = branches.map g := by
  induction branches with
  | nil => rfl
  | cons branch rest ih =>
    obtain ⟨result, hr, he⟩ := h branch (List.mem_cons_self ..)
    rw [branchShapes, List.filterMap_cons_some (f := (shape · path)) hr, List.map_cons, List.map_cons, he]
    exact congrArg _ (ih fun other ho => h other (List.mem_cons_of_mem _ ho))

theorem Retains.option {schema : Option OpenApi.Schema}
    (h : ∀ nested, schema = some nested → Retains accepts formats shape nested) (path : List String) :
    (schema.bind (shape · path)).map (Crd.Schema.Accepts formats) = schema.map accepts := by
  cases schema with
  | none => rfl
  | some nested =>
    obtain ⟨result, hr, -, ha⟩ := h nested rfl path
    rw [Option.bind_some, hr, Option.map_some, Option.map_some, ha]

theorem Retains.branches {branches : List OpenApi.Schema}
    (h : ∀ branch ∈ branches, Retains accepts formats shape branch) (path : List String) :
    (branchShapes shape path branches).map (Crd.Schema.Accepts formats) = branches.map accepts :=
  map_branchShapes fun branch hb =>
    let ⟨result, hr, _, ha⟩ := h branch hb path
    ⟨result, hr, ha⟩

/-! #### Properties -/

section
variable (h : ∀ property ∈ source.properties, Retains accepts formats shape property.2)
include h

theorem Retains.renames (path : List String) :
    (propertyShapes shape path {} source.properties).renames = [] :=
  propertyShapes_renames fun key schema _ hm hc => ((h (key, schema) hm).of_converted hc).1

theorem Retains.has_property (path : List String) {name : String} :
    Keyed.has name (propertyShapes shape path {} source.properties).properties = true ↔
      Keyed.has name source.properties = true := by
  rw [has_propertyShapes]
  constructor
  · rintro (hn | ⟨property, hm, converted, hc, rfl⟩)
    · cases hn
    · rw [((h property hm).of_converted hc).1, Option.getD_none]
      exact Keyed.has_of_mem hm
  · intro hn
    obtain ⟨schema, hl⟩ := Keyed.has_iff.mp hn
    have hm := Keyed.mem_of_lookup hl
    obtain ⟨result, hr, hid, -⟩ := h (name, schema) hm (path ++ [name])
    exact .inr ⟨(name, schema), hm, result, hr, by rw [hid, Option.getD_none]⟩

/-- What is listed under a name accepts what the property of that name accepts. -/
theorem Retains.property {path : List String} {name : String} {listed : Crd.Schema}
    (hl : (propertyShapes shape path {} source.properties).properties.lookup name = some listed) :
    ∃ schema, (name, schema) ∈ source.properties ∧ listed.Accepts formats = accepts schema := by
  rcases propertyShapes_lookup hl with hn | ⟨key, schema, converted, hm, hc, rfl, rfl⟩
  · cases hn
  · obtain ⟨hid, ha⟩ := (h (key, schema) hm).of_converted hc
    rw [hid, Option.getD_none, unnamed_eq hid]
    exact ⟨schema, hm, ha⟩

theorem Retains.mem_properties (hd : (Keyed.keys source.properties).Nodup) {path : List String}
    {property : String × (Json → Prop)} :
    property ∈ (propertyShapes shape path {} source.properties).properties.map
        (fun (name, listed) => (name, listed.Accepts formats)) ↔
      property ∈ source.properties.map fun (name, schema) => (name, accepts schema) := by
  have hs : Keyed.Sorted (propertyShapes shape path {} source.properties).properties :=
    propertyShapes_sorted .nil
  constructor
  · intro hm
    obtain ⟨⟨name, listed⟩, hl, rfl⟩ := List.mem_map.mp hm
    obtain ⟨schema, hm, ha⟩ := Retains.property h (hs.lookup_of_mem hl)
    exact List.mem_map.mpr ⟨(name, schema), hm, congrArg (name, ·) ha.symm⟩
  · intro hm
    obtain ⟨⟨name, schema⟩, hp, rfl⟩ := List.mem_map.mp hm
    obtain ⟨listed, hl⟩ := Keyed.has_iff.mp ((Retains.has_property h path).mpr (Keyed.has_of_mem hp))
    obtain ⟨schema', hm, ha⟩ := Retains.property h hl
    obtain rfl : schema = schema' :=
      Option.some.inj ((Keyed.lookup_of_mem hd hp).symm.trans (Keyed.lookup_of_mem hd hm))
    exact List.mem_map.mpr ⟨(name, listed), Keyed.mem_of_lookup hl, congrArg (name, ·) ha⟩

theorem Retains.mem_required (hr : ∀ name ∈ source.required, Keyed.has name source.properties = true)
    {path : List String} {name : String} :
    name ∈ (keptShape shape path source).required ↔ name ∈ source.required := by
  have hkept : (keptShape shape path source).required = Keyed.distinct ((source.required.map fun key =>
      ((propertyShapes shape path {} source.properties).renames.lookup key).getD key).filter fun key =>
        Keyed.has key (propertyShapes shape path {} source.properties).properties) := rfl
  rw [hkept, Keyed.mem_distinct, List.mem_filter, Retains.has_property h path, Retains.renames h path]
  simp only [List.lookup_nil, Option.getD_none, List.map_id']
  exact and_iff_left_of_imp (hr name)

end

theorem Retains.allowsUnlisted (hl : source.additional ≠ some (.flag false))
    (h : ∀ nested, source.additionalSchema = some nested → Retains accepts formats shape nested)
    (path : List String) :
    ((keptShape shape path source).keywords (Crd.Schema.Accepts formats)).AllowsUnlisted =
      (source.reading accepts).AllowsUnlisted := by
  have hadditional : ((keptShape shape path source).keywords (Crd.Schema.Accepts formats)).additional =
    (additionalShape shape path source.additionalSchema).map
      (Additional.map (Crd.Schema.Accepts formats)) := rfl
  have hsource : (source.reading accepts).additional = source.additional.map (Additional.map accepts) := rfl
  funext part
  unfold Keywords.AllowsUnlisted
  rw [hadditional, hsource]
  rw [OpenApi.Schema.additionalSchema] at h ⊢
  rcases ha : source.additional with _ | _ | nested
  · rfl
  · next allowed =>
    cases allowed with
    | false => exact absurd ha hl
    | true => simp [additionalShape, Additional.map]
  · obtain ⟨result, hr, -, hsame⟩ := h nested (by rw [ha]) path
    simp [additionalShape, hr, Additional.map, hsame]

/-- **Without plugins, nothing that a schema says by itself is lost.** -/
theorem keptShape_alike (path : List String) (hl : Document.Lossless source)
    (h : ∀ nested ∈ source.nested, Retains accepts formats shape nested) :
    ((keptShape shape path source).keywords (Crd.Schema.Accepts formats)).Alike (source.reading accepts) where
  types := by
    obtain ⟨name, hn⟩ := hl.type
    show some [source.typeName.getD "object"] = source.type.map OpenApi.TypeNames.names
    rw [hn, OpenApi.Schema.typeName_of_single hn, Option.getD_some]
  format := by
    show source.format.filter Crd.supportedFormats.contains = source.format
    cases hf : source.format with
    | none => rfl
    | some format => rw [Option.filter_some, if_pos (List.contains_iff_mem.mpr (hl.format format hf))]
  enumeration := rfl
  multipleOf := rfl
  required name := Retains.mem_required (fun property hp =>
    h property.2 (mem_nested_of_property hp)) hl.required
  items := Retains.option (fun nested hi => h nested (mem_nested_of_items hi)) _
  properties property := Retains.mem_properties (fun property hp =>
    h property.2 (mem_nested_of_property hp)) hl.distinct
  additional :=
    Retains.allowsUnlisted hl.additional
      (fun nested ha => h nested (mem_nested_of_additional ha)) path
  allOf := Retains.branches (fun branch hb => h branch (allOf_subset_nested hb)) path
  anyOf := Retains.branches (fun branch hb => h branch (anyOf_subset_nested hb)) path
  oneOf := Retains.branches (fun branch hb => h branch (oneOf_subset_nested hb)) path
  not := Retains.option (fun nested hi => h nested (mem_nested_of_not hi)) path

theorem Retains.not_tagged (hl : Document.Lossless source)
    (h : ∀ property ∈ source.properties, Retains accepts formats shape property.2) (path : List String) :
    isTagged source (partShapes shape path source).1 = false := by
  rw [Bool.eq_false_iff]
  intro ht
  rw [isTagged, Bool.and_eq_true, Bool.and_eq_true, List.isEmpty_iff, Option.isNone_iff_eq_none] at ht
  obtain ⟨⟨hu, hproperties⟩, hadditional⟩ := ht
  rcases hl.union hu with hn | hn
  · obtain ⟨⟨name, schema⟩, hm⟩ := List.exists_mem_of_ne_nil _ hn
    have hlisted := (Retains.has_property h path).mpr (Keyed.has_of_mem hm)
    have hnone : (propertyShapes shape path {} source.properties).properties = [] := hproperties
    rw [hnone] at hlisted
    cases hlisted
  · exact hn (Option.map_eq_none_iff.mp hadditional)

/-! #### Whole schemas -/

/-- **A schema of which nothing is lost accepts after its conversion what it accepted before.** -/
theorem shapeWithin_retains (hp : setting.plugins = []) {depth : Nat} {schema : OpenApi.Schema}
    (hk : setting.document.KeptWithin depth schema) (hr : setting.document.ReadBy formats accepts schema) :
    Retains accepts formats (shapeWithin setting depth) schema := by
  induction depth generalizing schema with
  | zero => cases hk
  | succ depth ih =>
    obtain ⟨source, hsource, hl, hnested⟩ := hk
    have hretains : ∀ nested ∈ source.nested, Retains accepts formats (shapeWithin setting depth) nested :=
      fun nested hn => ih (hnested nested hn) (hr.nested hsource hn)
    have htagged := Retains.not_tagged hl fun property hm =>
      hretains property.2 (mem_nested_of_property hm)
    intro path
    refine ⟨keptShape (shapeWithin setting depth) (rooted path) source, ?_, rfl, ?_⟩
    · rw [shapeWithin, hsource, Option.bind_some, sourceShape_kept hp (htagged _)]
    · rw [Crd.Schema.accepts_eq, hr.accepts_eq hsource]
      exact (keptShape_alike (rooted path) hl hretains).allow_eq formats

/-! #### Choices -/

theorem exists_shapeWithin (hp : setting.plugins = []) {branch : OpenApi.Schema}
    (hb : (setting.document.resolve branch).isSome = true) {depth : Nat} (hd : 0 < depth)
    (path : List String) :
    ∃ result, shapeWithin setting depth branch path = some result := by
  obtain ⟨source, hs⟩ := Option.isSome_iff_exists.mp hb
  obtain ⟨depth, rfl⟩ := Nat.exists_eq_succ_of_ne_zero hd.ne'
  exact Option.isSome_iff_exists.mp (isSome_shapeWithin.mpr ⟨source, hs, by rw [hp]; rfl⟩)

/-- What a plain branch accepts is accepted by its conversion. -/
theorem exists_accepts (hp : setting.plugins = []) {branch : OpenApi.Schema}
    (hb : setting.document.PlainBelow branch)
    (hr : setting.document.ReadBy formats accepts branch) {value : Json} (ha : accepts branch value)
    {depth : Nat} (hd : 0 < depth) (path : List String) :
    ∃ result, shapeWithin setting depth branch path = some result ∧
      result.Accepts formats value = accepts branch value := by
  obtain ⟨source, hs, -⟩ := hb branch (.here branch)
  obtain ⟨result, hresult⟩ := exists_shapeWithin hp (Option.isSome_iff_exists.mpr ⟨source, hs⟩) hd path
  have hv := (shapeWithin_loosens hp formats depth hb path result hresult).2 value
    (hr.within_accepts hb value ha)
  exact ⟨result, hresult, propext (iff_of_true hv ha)⟩

/-- The conversion of a choice has the conversions of the branches. -/
theorem convert_choice (filters : Config.Filters) {schema : OpenApi.Schema}
    (hs : document.resolve schema = some source) (hu : isUnion source = false) {depth : Nat}
    (hd : depth < maxDepth) (node : Extension.NodeId) (path : List String) (tree : Extension.Tree) :
    (convert ⟨document, filters, []⟩ ⟨some schema, node, path⟩ depth tree).1 =
      some (keptShape (shapeWithin ⟨document, filters, []⟩ (maxDepth - (depth + 1)))
        (rooted path) source) := by
  have hshape : (convert ⟨document, filters, []⟩ ⟨some schema, node, path⟩ depth tree).1 =
      shapeWithin ⟨document, filters, []⟩ (maxDepth - depth) schema path := convertWithin_fst _ _ _ _
  have hsucc : maxDepth - depth = maxDepth - (depth + 1) + 1 := by omega
  rw [hshape, hsucc, shapeWithin, hs, Option.bind_some, sourceShape_kept rfl]
  rw [isTagged, hu, Bool.false_and, Bool.false_and]

/-- **A choice of exactly one branch stays one**, if nothing of its branches
is lost; of the branch that accepts a value something may be lost, as long
as it is plain. In any case such a branch still accepts it. -/
theorem convert_oneOf {document : Document} (filters : Config.Filters) {schema source : OpenApi.Schema}
    (hs : document.resolve schema = some source) (ho : source.oneOf ≠ []) (hu : isUnion source = false)
    (hb : ∀ branch ∈ source.oneOf, (document.resolve branch).isSome = true) {depth : Nat}
    (hd : depth + 1 < maxDepth) (node : Extension.NodeId) (path : List String) (tree : Extension.Tree) :
    ∃ result, (convert ⟨document, filters, []⟩ ⟨some schema, node, path⟩ depth tree).1 = some result ∧
      result.oneOf.length = source.oneOf.length ∧
      ∀ formats accepts value, document.ReadBy formats accepts schema → accepts schema value →
        ((∀ branch ∈ source.oneOf, accepts branch value →
            document.KeptWithin (maxDepth - (depth + 1)) branch ∨ document.PlainBelow branch) →
          ∃ branch ∈ result.oneOf, branch.Accepts formats value) ∧
        ((∀ branch ∈ source.oneOf, document.KeptWithin (maxDepth - (depth + 1)) branch ∨
            accepts branch value ∧ document.PlainBelow branch) →
          ∃! index : Fin result.oneOf.length, (result.oneOf.get index).Accepts formats value) := by
  have hpos : 0 < maxDepth - (depth + 1) := Nat.sub_pos_of_lt hd
  refine ⟨_, convert_choice filters hs hu (Nat.lt_of_succ_lt hd) node path tree, ?_,
    fun formats accepts value hr ha => ?_⟩
  · have hunit := map_branchShapes (f := fun _ => ()) (g := fun _ => ())
      fun branch hm => (exists_shapeWithin (show (⟨document, filters, []⟩ : Setting).plugins = [] from rfl)
        (hb branch hm) hpos (rooted path)).imp fun _ h => ⟨h, rfl⟩
    have hlength := congrArg List.length hunit
    rwa [List.length_map, List.length_map] at hlength
  · -- a branch that is kept accepts the value or not as its conversion does, and so does a plain one that
    -- accepts it
    have hsame (branch) (hm : branch ∈ source.oneOf)
      (hk : document.KeptWithin (maxDepth - (depth + 1)) branch ∨
        accepts branch value ∧ document.PlainBelow branch) :
        ∃ converted,
          shapeWithin ⟨document, filters, []⟩ (maxDepth - (depth + 1)) branch (rooted path) = some converted ∧
          converted.Accepts formats value = accepts branch value := by
      have hn : branch ∈ source.nested := oneOf_subset_nested hm
      have hread := hr.nested hs hn
      rcases hk with hk | ⟨hv, hp⟩
      · obtain ⟨converted, hc, -, hsame⟩ :=
          shapeWithin_retains (show (⟨document, filters, []⟩ : Setting).plugins = [] from rfl) hk
            hread (rooted path)
        exact ⟨converted, hc, congrFun hsame value⟩
      · exact exists_accepts (show (⟨document, filters, []⟩ : Setting).plugins = [] from rfl)
          hp hread hv hpos _
    have hone := hr.existsUnique_branch hs ho ha
    constructor
    · intro hall
      obtain ⟨index, hindex, -⟩ := hone
      have hm := source.oneOf.get_mem index
      obtain ⟨converted, hc, he⟩ := hsame _ hm ((hall _ hm hindex).imp_right fun hp => ⟨hindex, hp⟩)
      exact ⟨converted, List.mem_filterMap.mpr ⟨_, hm, hc⟩, he.mpr hindex⟩
    · intro hall
      have hmap := map_branchShapes (f := fun branch => branch.Accepts formats value)
        (g := fun branch => accepts branch value) fun branch hm => hsame branch hm (hall branch hm)
      exact existsUnique_get hmap.symm hone

end

/-! #### Choices between two branches -/

/-- A choice between two branches. -/
def choiceOf (type : String) (first second : OpenApi.Schema) : OpenApi.Schema where
  type := some (.one type)
  oneOf := [first, second]

/-- A schema that says nothing but its types. -/
def ofTypes (types : Option OpenApi.TypeNames) : OpenApi.Schema where
  type := types

section
variable {document : Document} {formats : String → Json → Prop}
  {accepts : OpenApi.Schema → Json → Prop} {type : String}
  {first second : OpenApi.Schema} {value : Json}

theorem mem_nested_choiceOf {nested : OpenApi.Schema} :
    nested ∈ (choiceOf type first second).nested ↔ nested = first ∨ nested = second := by
  simp [OpenApi.Schema.nested, OpenApi.Schema.additionalSchema, choiceOf]

theorem choiceOf_within {P : OpenApi.Schema → Prop} {depth : Nat} (hp : P (choiceOf type first second))
    (hfirst : document.AllWithin P depth first) (hsecond : document.AllWithin P depth second) :
    document.AllWithin P (depth + 1) (choiceOf type first second) := by
  refine ⟨_, Document.resolve_self rfl, hp, fun nested hn => ?_⟩
  rcases mem_nested_choiceOf.mp hn with rfl | rfl
  · exact hfirst
  · exact hsecond

/-- A choice accepts what its first branch accepts alone. -/
theorem choiceOf_accepts (hr : document.ReadBy formats accepts (choiceOf type first second))
    (ht : value.HasType type) (hfirst : accepts first value) (hsecond : ¬ accepts second value) :
    accepts (choiceOf type first second) value := by
  rw [hr.accepts_eq (Document.resolve_self rfl)]
  constructor
  case oneOf =>
    refine .inr ⟨⟨0, by simp [OpenApi.Schema.reading, choiceOf]⟩, hfirst, ?_⟩
    rintro ⟨_ | _ | index, hindex⟩ hi
    · rfl
    · exact absurd hi hsecond
    · have hlength : index + 2 < 2 := hindex
      omega
  all_goals simp [OpenApi.Schema.reading, OpenApi.Schema.keywords, choiceOf, OpenApi.TypeNames.names, ht,
    Keywords.AllowsUnlisted]

theorem ofTypes_allow {types : Option OpenApi.TypeNames}
    (h : ∀ names, types.map OpenApi.TypeNames.names = some names → ∃ name ∈ names, value.HasType name) :
    ((ofTypes types).reading accepts).Allow formats value where
  types := h
  format _ hf := nomatch hf
  enumeration := .inl rfl
  multipleOf _ hu := nomatch hu
  required _ hn := nomatch hn
  items _ hi := nomatch hi
  properties _ _ hm := nomatch hm
  additional _ _ _ _ := trivial
  allOf _ hm := nomatch hm
  anyOf := .inl rfl
  oneOf := .inl rfl
  not _ hn := nomatch hn

theorem ofType_allow (formats : String → Json → Prop) (accepts : OpenApi.Schema → Json → Prop)
    (h : value.HasType type) : ((ofTypes (some (.one type))).reading accepts).Allow formats value := by
  refine ofTypes_allow fun names hn => ?_
  obtain rfl : [type] = names := Option.some.inj hn
  exact ⟨type, List.mem_singleton_self type, h⟩

/-- A value of no type of a schema is not accepted. -/
theorem not_allow_of_types {source : OpenApi.Schema} {names : List String}
    (hs : source.type.map OpenApi.TypeNames.names = some names) (hn : ∀ name ∈ names, ¬ value.HasType name) :
    ¬ (source.reading accepts).Allow formats value := by
  intro ha
  obtain ⟨name, hm, ht⟩ := ha.types names hs
  exact hn name hm ht

theorem ofTypes_within {P : OpenApi.Schema → Prop} {types : Option OpenApi.TypeNames} (hp : P (ofTypes types))
    (depth : Nat) : document.AllWithin P (depth + 1) (ofTypes types) :=
  ⟨_, Document.resolve_self rfl, hp, fun _ hn => nomatch hn⟩

end

/-! #### Payments -/

/-- What is paid with, under its name. -/
def payment (name : String) (format : Option String) : OpenApi.Schema where
  type := some (.one "object")
  required := [name]
  properties := [(name, { ofTypes (some (.one "string")) with format := format })]

/-- A cluster does not know the format of cards. -/
def paymentChoice : OpenApi.Schema :=
  choiceOf "object" (payment "card" (some "card-number")) (payment "iban" none)

theorem mem_nested_payment {name : String} {format : Option String} {nested : OpenApi.Schema} :
    nested ∈ (payment name format).nested ↔
      nested = { ofTypes (some (.one "string")) with format := format } := by
  simp [OpenApi.Schema.nested, OpenApi.Schema.additionalSchema, payment]

theorem payment_within {P : OpenApi.Schema → Prop} {name : String} {format : Option String}
    (hp : P (payment name format)) (ht : P { ofTypes (some (.one "string")) with format := format })
    (depth : Nat) :
    ({} : Document).AllWithin P (depth + 2) (payment name format) := by
  refine ⟨_, Document.resolve_self rfl, hp, fun nested hn => ?_⟩
  rw [mem_nested_payment.mp hn]
  exact ⟨_, Document.resolve_self rfl, ht, fun _ hn => nomatch hn⟩

theorem payment_accepts {formats : String → Json → Prop} {accepts : OpenApi.Schema → Json → Prop}
    {name text : String} {format : Option String}
    (hr : ({} : Document).ReadBy formats accepts (payment name format))
    (hf : ∀ known, format = some known → formats known (.string text)) :
    accepts (payment name format) (.object [(name, .string text)]) := by
  have htext : accepts { ofTypes (some (.one "string")) with format := format } (.string text) := by
    have hr := hr.nested (Document.resolve_self rfl) (mem_nested_payment.mpr rfl)
    rw [hr.accepts_eq (Document.resolve_self rfl)]
    exact { ofType_allow formats accepts
      (show (Json.string text).HasType "string" from rfl) with format := hf }
  have hobject : (Json.object [(name, .string text)]).HasType "object" := rfl
  rw [hr.accepts_eq (Document.resolve_self rfl)]
  refine { ofType_allow formats accepts hobject with
    required := fun other ho => ?_
    properties := fun other allowed hm part hp => ?_
    additional := fun _ _ _ _ => trivial }
  · rw [List.mem_singleton.mp ho]
    exact Keyed.has_of_mem (List.mem_singleton_self (name, Json.string text))
  · obtain ⟨rfl, rfl⟩ := Prod.mk.inj (List.mem_singleton.mp hm)
    obtain rfl : Json.string text = part := by simpa [Json.get?, payment] using hp
    exact htext

/-- Nothing of the second branch is lost, and the first one is plain. -/
theorem payment_stays_choice :
    ∃ accepts result, ({} : Document).ReadBy (fun _ _ => True) accepts paymentChoice ∧
    accepts paymentChoice (.object [("card", .string "4000")]) ∧
    (convert ⟨{}, {}, []⟩ ⟨some paymentChoice, Extension.Tree.root, []⟩ 0 .empty).1 = some result ∧
    ∃! index : Fin result.oneOf.length,
      (result.oneOf.get index).Accepts (fun _ _ => True) (.object [("card", .string "4000")]) := by
  have hs : ({} : Document).resolve paymentChoice = some paymentChoice := Document.resolve_self rfl
  have hall : ({} : Document).AllWithin (fun _ => True) 3 paymentChoice :=
    choiceOf_within trivial (payment_within trivial trivial 0) (payment_within trivial trivial 0)
  have hr := hall.readBy fun _ _ => True
  have hcard : ({} : Document).acceptsWithin (fun _ _ => True) 3 (payment "card" (some "card-number"))
      (.object [("card", .string "4000")]) :=
    payment_accepts (hr.nested hs (mem_nested_choiceOf.mpr (.inl rfl))) fun _ _ => trivial
  have hiban : ¬ ({} : Document).acceptsWithin (fun _ _ => True) 3 (payment "iban" none)
      (.object [("card", .string "4000")]) := by
    rw [(hr.nested hs (mem_nested_choiceOf.mpr (.inr rfl))).accepts_eq (Document.resolve_self rfl)]
    exact fun ha => Bool.false_ne_true (ha.required "iban" (List.mem_cons_self ..))
  have hmem (branch) (hb : branch ∈ paymentChoice.oneOf) :
      branch = payment "card" (some "card-number") ∨ branch = payment "iban" none := by
    simpa [paymentChoice, choiceOf] using hb
  have hobject : (Json.object [("card", .string "4000")]).HasType "object" := rfl
  have ha := choiceOf_accepts hr hobject hcard hiban
  obtain ⟨result, hc, -, hkept⟩ := convert_oneOf {} hs (List.cons_ne_nil _ _) rfl
    (fun branch hb => by rcases hmem branch hb with rfl | rfl <;> rfl) (show 0 + 1 < maxDepth by decide)
    Extension.Tree.root [] .empty
  refine ⟨_, result, hr, ha, hc, (hkept _ _ _ hr ha).2 fun branch hb => ?_⟩
  rcases hmem branch hb with rfl | rfl
  · have hplain : ({} : Document).AllWithin Document.Plain 2 (payment "card" (some "card-number")) :=
      payment_within ⟨⟨"object", rfl⟩, rfl, rfl⟩ ⟨⟨"string", rfl⟩, rfl, rfl⟩ 0
    exact .inr ⟨hcard, hplain.plainBelow⟩
  · left
    refine payment_within ?_ ?_ 7
    · exact ⟨⟨"object", rfl⟩, nofun, by decide, by decide, nofun, nofun⟩
    · exact ⟨⟨"string", rfl⟩, nofun, nofun, by decide, nofun, nofun⟩

/-! #### Choices that are lost -/

/-- Whether a choice that leads to no excluded schema accepts a value, and
not exactly one branch of its conversion does. -/
def Confused (document : Document) (formats : String → Json → Prop) (choice : OpenApi.Schema)
    (value : Json) : Prop :=
  choice.type.isSome = true ∧ choice.oneOf ≠ [] ∧ isUnion choice = false ∧
    (∃ depth, document.AllWithin (fun source => source.not = none) depth choice) ∧
    ∃ accepts result, document.ReadBy formats accepts choice ∧ accepts choice value ∧
      (convert ⟨document, {}, []⟩ ⟨some choice, Extension.Tree.root, []⟩ 0 .empty).1 = some result ∧
      ¬ ∃! index : Fin result.oneOf.length, (result.oneOf.get index).Accepts formats value

section
variable {document : Document} {formats : String → Json → Prop} {type : String}
  {first second : OpenApi.Schema}
  {value : Json}

theorem not_existsUnique_twice {α : Type} (x : α) (p : α → Prop) :
    ¬ ∃! index : Fin [x, x].length, p ([x, x].get index) := by
  rintro ⟨index, hi, honly⟩
  have hget := List.get_mem [x, x] index
  rw [List.mem_cons, List.mem_singleton, or_self] at hget
  rw [hget] at hi
  have hzero : ⟨0, by simp⟩ = index := honly _ hi
  have hone : ⟨1, by simp⟩ = index := honly _ hi
  exact absurd (congrArg Fin.val (hzero.trans hone.symm)) (by simp)

/-- A choice between branches that become the same is lost. -/
theorem confused_of_same {depth : Nat} (hn : document.AllWithin (fun source => source.not = none) depth first)
    (hn' : document.AllWithin (fun source => source.not = none) depth second) (hu : first.reference = none)
    (ht : value.HasType type)
    (hfirst : ∀ accepts, document.ReadBy formats accepts first → accepts first value)
    (hsecond : ∀ accepts, document.ReadBy formats accepts second → ¬ accepts second value)
    (hsame : shapeWithin ⟨document, {}, []⟩ (maxDepth - 1) first [Path.root] =
      shapeWithin ⟨document, {}, []⟩ (maxDepth - 1) second [Path.root]) :
    Confused document formats (choiceOf type first second) value := by
  have hall : document.AllWithin (fun source => source.not = none) (depth + 1) (choiceOf type first second) :=
    choiceOf_within rfl hn hn'
  have hr := hall.readBy formats
  have hs : document.resolve (choiceOf type first second) = some (choiceOf type first second) :=
    Document.resolve_self rfl
  have hunion : isUnion (choiceOf type first second) = false := by simp [isUnion, choiceOf, hu]
  have ha := choiceOf_accepts hr ht (hfirst _ (hr.nested hs (mem_nested_choiceOf.mpr (.inl rfl))))
    (hsecond _ (hr.nested hs (mem_nested_choiceOf.mpr (.inr rfl))))
  refine ⟨rfl, List.cons_ne_nil _ _, hunion, ⟨_, hall⟩, _, _, hr, ha,
    convert_choice {} hs hunion (by decide) _ _ _, ?_⟩
  obtain ⟨converted, hc⟩ := exists_shapeWithin (show (⟨document, {}, []⟩ : Setting).plugins = [] from rfl)
    (Option.isSome_iff_exists.mpr ⟨first, Document.resolve_self hu⟩)
      (show 0 < maxDepth - 1 by decide) [Path.root]
  have honeOf : (keptShape (shapeWithin ⟨document, {}, []⟩ (maxDepth - 1)) [Path.root]
      (choiceOf type first second)).oneOf = [converted, converted] := by
    show branchShapes (shapeWithin ⟨document, {}, []⟩ (maxDepth - 1)) [Path.root] [first, second] = _
    simp only [branchShapes, List.filterMap_cons, ← hsame, hc, List.filterMap_nil]
  have htwice := not_existsUnique_twice converted fun branch => branch.Accepts formats value
  rw [← honeOf] at htwice
  exact htwice

/-- A choice between branches that nest nothing and become the same is lost. -/
theorem confused_of_leaves (hu : first.reference = none) (hu' : second.reference = none)
    (hn : first.nested = []) (hn' : second.nested = []) (ht : value.HasType type)
    (hfirst : ∀ accepts, (first.reading accepts).Allow formats value)
    (hsecond : ∀ accepts, ¬ (second.reading accepts).Allow formats value)
    (hsame : shapeWithin ⟨document, {}, []⟩ (maxDepth - 1) first [Path.root] =
      shapeWithin ⟨document, {}, []⟩ (maxDepth - 1) second [Path.root]) :
    Confused document formats (choiceOf type first second) value := by
  have hleaf {branch : OpenApi.Schema} (hu : branch.reference = none) (hn : branch.nested = []) :
      document.AllWithin (fun source => source.not = none) 1 branch := by
    have hnot : branch.not = none := by
      cases he : branch.not with
      | none => rfl
      | some excluded => simp [OpenApi.Schema.nested, he] at hn
    exact ⟨branch, Document.resolve_self hu, hnot, fun nested hm => by simp [hn] at hm⟩
  refine confused_of_same (hleaf hu hn) (hleaf hu' hn') hu ht (fun accepts hr => ?_)
    (fun accepts hr => ?_) hsame
  · rw [hr.accepts_eq (Document.resolve_self hu)]
    exact hfirst accepts
  · rw [hr.accepts_eq (Document.resolve_self hu')]
    exact hsecond accepts

end

/-- A format that a cluster does not know is left out. -/
def linkChoice : OpenApi.Schema :=
  choiceOf "string" (ofTypes (some (.one "string")))
    { ofTypes (some (.one "string")) with format := some "uri" }

theorem link_confused : Confused {} (fun _ _ => False) linkChoice (.string "no link") :=
  confused_of_leaves rfl rfl rfl rfl rfl (fun accepts => ofType_allow _ accepts rfl)
    (fun _ h => h.format "uri" rfl) rfl

/-- What is required but not listed is not required any more. -/
def labelChoice : OpenApi.Schema :=
  choiceOf "object" (ofTypes (some (.one "object")))
    { ofTypes (some (.one "object")) with required := ["label"] }

theorem label_confused (formats : String → Json → Prop) : Confused {} formats labelChoice (.object []) :=
  confused_of_leaves rfl rfl rfl rfl rfl (fun accepts => ofType_allow _ accepts rfl)
    (fun _ h => Bool.false_ne_true (h.required "label" (List.mem_cons_self ..))) rfl

/-- What is not listed is forbidden no longer. -/
def emptyChoice : OpenApi.Schema :=
  choiceOf "object" (ofTypes (some (.one "object")))
    { ofTypes (some (.one "object")) with additional := some (.flag false) }

theorem empty_confused (formats : String → Json → Prop) :
    Confused {} formats emptyChoice (.object [("label", .null)]) :=
  confused_of_leaves rfl rfl rfl rfl rfl (fun accepts => ofType_allow _ accepts rfl)
    (fun _ h => Bool.false_ne_true (h.additional "label" .null rfl rfl)) rfl

/-- Of several types only the first one is left. -/
def switchChoice : OpenApi.Schema :=
  choiceOf "boolean" (ofTypes (some (.many ["string", "boolean"])))
    (ofTypes (some (.many ["string", "null"])))

theorem switch_confused (formats : String → Json → Prop) : Confused {} formats switchChoice (.bool true) := by
  refine confused_of_leaves rfl rfl rfl rfl rfl (fun _ => ofTypes_allow fun names hn => ?_)
    (fun _ => not_allow_of_types rfl (by simp [OpenApi.TypeNames.names, Json.HasType])) rfl
  obtain rfl : ["string", "boolean"] = names := Option.some.inj hn
  exact ⟨"boolean", by simp, rfl⟩

/-- Without a type there is an object. -/
def noteChoice : OpenApi.Schema := choiceOf "string" (ofTypes none) (ofTypes (some (.one "object")))

theorem note_confused (formats : String → Json → Prop) : Confused {} formats noteChoice (.string "note") :=
  confused_of_leaves rfl rfl rfl rfl rfl (fun _ => ofTypes_allow fun _ hn => nomatch hn)
    (fun _ => not_allow_of_types rfl (by simp [OpenApi.TypeNames.names, Json.HasType])) rfl

/-! A choice between references becomes an object, whatever type it has. -/

def nameReference : OpenApi.Schema where
  reference := some "#/components/schemas/Name"

def names : Document where
  components := { schemas := [("Name", ofTypes (some (.one "string")))] }

theorem names_resolve : names.resolve nameReference = some (ofTypes (some (.one "string"))) := rfl

/-- A choice with a single branch, which is a reference. -/
def namedBranch (type : String) : OpenApi.Schema :=
  { ofTypes (some (.one type)) with oneOf := [nameReference] }

def nameChoice : OpenApi.Schema := choiceOf "string" (namedBranch "string") (namedBranch "integer")

theorem name_confused (formats : String → Json → Prop) :
    Confused names formats nameChoice (.string "name") := by
  have hstring : (Json.string "name").HasType "string" := rfl
  have hbranch (type : String) : names.AllWithin (fun source => source.not = none) 2 (namedBranch type) := by
    refine ⟨_, Document.resolve_self rfl, rfl, fun nested hm => ?_⟩
    obtain rfl : nested = nameReference := by
      simpa [OpenApi.Schema.nested, OpenApi.Schema.additionalSchema, namedBranch, ofTypes] using hm
    exact ⟨_, names_resolve, rfl, fun _ hm => absurd hm List.not_mem_nil⟩
  refine confused_of_same (hbranch _) (hbranch _) rfl hstring (fun accepts hr => ?_)
    (fun accepts hr => ?_) rfl
  · have hname : accepts nameReference (.string "name") := by
      have hr := hr.nested (Document.resolve_self rfl) (show nameReference ∈ (namedBranch "string").nested by
        simp [OpenApi.Schema.nested, namedBranch])
      rw [hr.accepts_eq names_resolve]
      exact ofType_allow formats accepts hstring
    rw [hr.accepts_eq (Document.resolve_self rfl)]
    exact { ofType_allow formats accepts hstring with
      oneOf := .inr ⟨⟨0, Nat.one_pos⟩, hname, fun index _ => Fin.ext (Nat.lt_one_iff.mp index.2)⟩ }
  · rw [hr.accepts_eq (Document.resolve_self rfl)]
    exact not_allow_of_types rfl (by simp [OpenApi.TypeNames.names, Json.HasType])

/-! What nests deeper than a conversion follows is left out. -/

/-- Lists in lists, that many of them. -/
def listsOf : Nat → OpenApi.Schema → OpenApi.Schema
  | 0, schema => schema
  | depth + 1, schema => { ofTypes (some (.one "array")) with items := some (listsOf depth schema) }

def inLists : Nat → Json → Json
  | 0, value => value
  | depth + 1, value => .array [inLists depth value]

def deepChoice : OpenApi.Schema :=
  choiceOf "array" (listsOf (maxDepth - 1) (ofTypes (some (.one "string"))))
    (listsOf (maxDepth - 1) (ofTypes (some (.one "integer"))))

section
variable {document : Document} {formats : String → Json → Prop} {accepts : OpenApi.Schema → Json → Prop}
  {schema : OpenApi.Schema} {depth : Nat}

theorem mem_nested_listsOf {nested : OpenApi.Schema} :
    nested ∈ (listsOf (depth + 1) schema).nested ↔ nested = listsOf depth schema := by
  simp [OpenApi.Schema.nested, OpenApi.Schema.additionalSchema, listsOf, ofTypes]

theorem listsOf_readBy (hr : document.ReadBy formats accepts (listsOf depth schema)) :
    document.ReadBy formats accepts schema := by
  induction depth with
  | zero => exact hr
  | succ depth ih => exact ih (hr.nested (Document.resolve_self rfl) (mem_nested_listsOf.mpr rfl))

theorem listsOf_accepts {value : Json} (hr : document.ReadBy formats accepts (listsOf depth schema)) :
    accepts (listsOf depth schema) (inLists depth value) ↔ accepts schema value := by
  induction depth with
  | zero => exact Iff.rfl
  | succ depth ih =>
    have hlist : document.resolve (listsOf (depth + 1) schema) = some (listsOf (depth + 1) schema) :=
      Document.resolve_self rfl
    rw [hr.accepts_eq hlist, ← ih (hr.nested hlist (mem_nested_listsOf.mpr rfl))]
    constructor
    · exact fun ha => ha.items _ rfl _ (List.mem_singleton_self _)
    · intro hv
      have harray : (inLists (depth + 1) value).HasType "array" := rfl
      refine { ofType_allow formats accepts harray with items := fun allowed hi part hp => ?_ }
      obtain rfl : accepts (listsOf depth schema) = allowed := Option.some.inj hi
      obtain rfl := List.mem_singleton.mp hp
      exact hv

theorem listsOf_within (type : String) (depth : Nat) :
    document.AllWithin (fun source => source.not = none) (depth + 1)
      (listsOf depth (ofTypes (some (.one type)))) := by
  induction depth with
  | zero => exact ofTypes_within (P := fun source => source.not = none) rfl 0
  | succ depth ih =>
    refine ⟨_, Document.resolve_self rfl, rfl, fun nested hm => ?_⟩
    rw [mem_nested_listsOf.mp hm]
    exact ih

end

theorem deep_confused (formats : String → Json → Prop) :
    Confused {} formats deepChoice (inLists (maxDepth - 1) (.string "deep")) := by
  refine confused_of_same (listsOf_within _ _) (listsOf_within _ _) rfl rfl (fun accepts hr => ?_)
    (fun accepts hr => ?_) rfl
  · rw [listsOf_accepts hr, (listsOf_readBy hr).accepts_eq (Document.resolve_self rfl)]
    exact ofType_allow formats accepts (show (Json.string "deep").HasType "string" from rfl)
  · rw [listsOf_accepts hr, (listsOf_readBy hr).accepts_eq (Document.resolve_self rfl)]
    exact not_allow_of_types rfl (by simp [OpenApi.TypeNames.names, Json.HasType])

/-- Each thing that a conversion does not keep lets a choice lose its meaning. -/
theorem choices_confused :
    Confused {} (fun _ _ => False) linkChoice (.string "no link") ∧
    (∀ formats, Confused {} formats labelChoice (.object []) ∧
      Confused {} formats emptyChoice (.object [("label", .null)]) ∧
      Confused {} formats switchChoice (.bool true) ∧ Confused {} formats noteChoice (.string "note") ∧
      Confused names formats nameChoice (.string "name") ∧
      Confused {} formats deepChoice (inLists (maxDepth - 1) (.string "deep"))) :=
  ⟨link_confused, fun formats => ⟨label_confused formats, empty_confused formats, switch_confused formats,
    note_confused formats, name_confused formats, deep_confused formats⟩⟩

end Conversion

end CrdForge
