import CrdForge.Proofs.Conversion.Shape
import CrdForge.Proofs.Crd.Places

/-! What a schema that has a conversion becomes.

With all plugins there are three ways (`shape_cases`): a reference to a secret stands in for it, its branches
become properties, or it is taken over part by part. In each of them the fields of the result are known, and
nothing is required that is not listed. -/
namespace CrdForge.Conversion

/-! ### Plugins -/

/-- The schema itself, with other required properties. -/
def Requiring (schema kept : Crd.Schema) : Prop := ∃ required, kept = { schema with required := required }

theorem Requiring.refl (schema : Crd.Schema) : Requiring schema schema := by
  refine ⟨schema.required, ?_⟩
  cases schema
  rfl

theorem Requiring.trans {schema middle kept : Crd.Schema} (h : Requiring schema middle)
    (h' : Requiring middle kept) : Requiring schema kept := by
  obtain ⟨_, rfl⟩ := h
  obtain ⟨required, rfl⟩ := h'
  exact ⟨required, rfl⟩

/-- Plugins that keep a node without putting something in its place change only what is required. -/
theorem PropertyPlugin.outcome_requiring {site : Site} {plugin : PropertyPlugin} {schema kept : Crd.Schema}
    (hp : plugin ≠ sensitive) (h : plugin.outcome site schema = some kept) : Requiring schema kept := by
  cases plugin with
  | readOnly =>
    simp only [outcome, keepReadOnly] at h
    split at h
    · cases h
      exact .refl schema
    · split at h
      · cases h
        exact ⟨_, rfl⟩
      · cases h
  | readWrite =>
    simp only [outcome, keepReadWrite] at h
    split at h
    · cases h
      exact .refl schema
    · split at h
      · cases h
      · cases h
        exact ⟨_, rfl⟩
  | skipped =>
    simp only [outcome, keepUnlisted] at h
    split at h
    · cases h
    · split at h
      · cases h
        exact .refl schema
      · cases h
        exact ⟨_, rfl⟩
  | sensitive => exact absurd rfl hp

/-- What holds of a node with whatever it requires, and of the references to
a secret at a site, holds of all that plugins leave there. -/
theorem outcome_preserves {P : Crd.Schema → Prop} {site : Site}
    (hrequired : ∀ schema required, P schema → P { schema with required := required })
    (hsecret : ∀ leaf description, site.secret? = some leaf → P (secretReference leaf description))
    {plugins : List PropertyPlugin} {schema kept : Crd.Schema} (hs : P schema)
    (h : outcome site plugins schema = some kept) : P kept := by
  induction plugins generalizing schema with
  | nil => exact Option.some.inj h ▸ hs
  | cons plugin rest ih =>
    obtain ⟨next, hn, h⟩ := Option.bind_eq_some_iff.mp h
    refine ih ?_ h
    by_cases hp : plugin = .sensitive
    · subst hp
      obtain rfl := Option.some.inj hn
      cases hsite : site.secret? with
      | none => exact hs
      | some leaf => exact hsecret leaf schema.description hsite
    · obtain ⟨required, rfl⟩ := PropertyPlugin.outcome_requiring hp hn
      exact hrequired schema required hs

/-- All plugins together put a reference to a secret in place of a schema, or take it over with other required
properties. -/
theorem outcome_all {site : Site} {schema kept : Crd.Schema}
    (h : outcome site PropertyPlugin.all schema = some kept) :
    ∃ narrowed, Requiring schema narrowed ∧
      kept = (site.secret?.map (secretReference · schema.description)).getD narrowed := by
  obtain ⟨first, h₁, h⟩ := Option.bind_eq_some_iff.mp h
  obtain ⟨second, h₂, h⟩ := Option.bind_eq_some_iff.mp h
  obtain ⟨third, h₃, h⟩ := Option.bind_eq_some_iff.mp h
  obtain ⟨fourth, h₄, h⟩ := Option.bind_eq_some_iff.mp h
  have hr : Requiring schema third :=
    ((PropertyPlugin.outcome_requiring (by decide) h₁).trans
      (PropertyPlugin.outcome_requiring (by decide) h₂)).trans
        (PropertyPlugin.outcome_requiring (by decide) h₃)
  have hd : third.description = schema.description := by
    obtain ⟨required, rfl⟩ := hr
    rfl
  have hk : fourth = kept := Option.some.inj h
  refine ⟨third, hr, ?_⟩
  rw [← hk, ← Option.some.inj h₄, hd]

/-! ### Results -/

/-- Nothing is required that is not listed. -/
def Listed (schema : Crd.Schema) : Prop := ∀ name ∈ schema.required, Keyed.has name schema.properties = true

/-- Whether the branches of a source become properties. -/
def tags (shape : Shape) (path : List String) (source : OpenApi.Schema) : Bool :=
  isTagged source (partShapes shape path source).1

/-- A reference to a secret. Only a choice between references leaves something of the source beside it. -/
structure Hidden (shape : Shape) (path : List String) (source : OpenApi.Schema) (leaf : String)
    (result : Crd.Schema) : Prop where
  id : result.id = some (leaf ++ "SecretRef")
  default : result.default = none
  type : result.type = some "object"
  format : result.format = none
  items : result.items = none
  properties : result.properties = (secretReference leaf none).properties
  additional : result.additional = none
  allOf : result.allOf = []
  oneOf : result.oneOf = if isUnion source then branchShapes shape path source.oneOf else []
  anyOf : result.anyOf = []
  not : result.not = none
  rules : result.rules = []
  required : Listed result

/-- What every schema keeps that is no reference to a secret. -/
structure Kept (shape : Shape) (path : List String) (source : OpenApi.Schema)
    (result : Crd.Schema) : Prop where
  id : result.id = none
  default : result.default = none
  format : ∀ format, result.format = some format → Crd.supportedFormats.contains format = true
  items : result.items = itemsShape shape path source.items
  allOf : result.allOf = branchShapes shape path source.allOf
  anyOf : result.anyOf = branchShapes shape path source.anyOf
  not : result.not = optionShape shape path source.not
  rules : result.rules = []
  required : Listed result

/-- A choice between references, with a property for each of them. -/
structure Tagged (shape : Shape) (path : List String) (source : OpenApi.Schema) (result : Crd.Schema) : Prop
    extends Kept shape path source result where
  type : result.type = some "object"
  properties : ∃ bare : Crd.Schema, bare.properties = [] ∧ result.properties =
    Keyed.insert "type" (discriminator (optionNames source.oneOf))
      (optionShapes shape path bare source.oneOf).properties
  additional : result.additional = none
  oneOf : result.oneOf = []

/-- A schema that is taken over part by part. -/
structure Plain (shape : Shape) (path : List String) (source : OpenApi.Schema) (result : Crd.Schema) : Prop
    extends Kept shape path source result where
  type : result.type = some (source.typeName.getD "object")
  properties : result.properties = (propertyShapes shape path {} source.properties).properties
  additional : result.additional = additionalShape shape path source.additionalSchema
  oneOf : result.oneOf = branchShapes shape path source.oneOf

theorem reconcileRequired_listed (renames : List (String × String)) (schema : Crd.Schema) :
    Listed (reconcileRequired renames schema) := by
  intro name h
  rw [reconcileRequired, Keyed.mem_distinct] at h
  exact (List.mem_filter.mp h).2

theorem settle_format (source : OpenApi.Schema) {schema : Crd.Schema} {format : String}
    (h : (settle source schema).format = some format) : Crd.supportedFormats.contains format = true :=
  (Option.filter_eq_some_iff.mp h).2

variable {shape : Shape} {path : List String} {source : OpenApi.Schema} {leaf : String}

theorem unionShape_untagged {schema : Crd.Schema} (h : isTagged source schema = false) :
    unionShape shape path source schema =
      { schema with
        oneOf := if isUnion source then branchShapes shape path source.oneOf else schema.oneOf } := by
  rw [unionShape, h]
  cases isUnion source
  · cases schema
    rfl
  · rfl

/-! ### What is listed -/

/-- A listed property is the conversion of a property of the source, under its own name or under the one that
its conversion asks for. -/
theorem propertyShapes_lookup {found : Properties}
    {properties : List (String × OpenApi.Schema)} {name : String} {listed : Crd.Schema}
    (h : (propertyShapes shape path found properties).properties.lookup name = some listed) :
    found.properties.lookup name = some listed ∨
      ∃ key schema converted, (key, schema) ∈ properties ∧ shape schema (path ++ [key]) = some converted ∧
        name = converted.id.getD key ∧ listed = { converted with id := none } := by
  induction properties generalizing found with
  | nil => exact .inl h
  | cons property rest ih =>
    obtain ⟨key, schema⟩ := property
    rw [propertyShapes] at h
    cases hc : shape schema (path ++ [key]) with
    | none =>
      rw [hc] at h
      rcases ih h with h | ⟨key', schema', converted, hm, he⟩
      · exact .inl h
      · exact .inr ⟨key', schema', converted, List.mem_cons_of_mem _ hm, he⟩
    | some converted =>
      rw [hc] at h
      rcases ih h with h | ⟨key', schema', converted', hm, he⟩
      · rw [Properties.list, Keyed.lookup_insert] at h
        split at h
        · next hn =>
          exact .inr ⟨key, schema, converted, List.mem_cons_self .., hc, hn, (Option.some.inj h).symm⟩
        · exact .inl h
      · exact .inr ⟨key', schema', converted', List.mem_cons_of_mem _ hm, he⟩

/-- A name is listed if a property that has a conversion is listed under it. -/
theorem has_propertyShapes {properties : List (String × OpenApi.Schema)}
    {found : Properties} {name : String} :
    Keyed.has name (propertyShapes shape path found properties).properties = true ↔
      Keyed.has name found.properties = true ∨ ∃ property ∈ properties, ∃ converted,
        shape property.2 (path ++ [property.1]) = some converted ∧ name = converted.id.getD property.1 := by
  induction properties generalizing found with
  | nil => simp [propertyShapes]
  | cons property rest ih =>
    obtain ⟨key, schema⟩ := property
    rw [propertyShapes]
    simp only [List.mem_cons, exists_eq_or_imp]
    cases hc : shape schema (path ++ [key]) with
    | none => simp only [ih, reduceCtorEq, false_and, exists_false, false_or]
    | some converted =>
      simp only [ih, Option.some.injEq, exists_eq_left', Properties.list, Keyed.has_insert,
        Bool.or_eq_true, beq_iff_eq]
      rw [or_comm (a := name = _), or_assoc]

/-- A listed property of a union is the conversion of a branch, or was listed before. -/
theorem optionShapes_lookup {bare : Crd.Schema} {branches : List OpenApi.Schema} {name : String}
    {listed : Crd.Schema} (h : (optionShapes shape path bare branches).properties.lookup name = some listed) :
    bare.properties.lookup name = some listed ∨
      ∃ branch reference, branch ∈ branches ∧ branch.reference = some reference ∧
        name = optionName reference ∧ shape branch (path ++ [name]) = some listed := by
  induction branches generalizing bare with
  | nil => exact .inl h
  | cons branch rest ih =>
    rw [optionShapes] at h
    cases hr : branch.reference with
    | none =>
      rw [hr] at h
      rcases ih h with h | ⟨branch', reference, hm, he⟩
      · exact .inl h
      · exact .inr ⟨branch', reference, List.mem_cons_of_mem _ hm, he⟩
    | some reference =>
      rw [hr] at h
      dsimp only at h
      cases hc : shape branch (path ++ [optionName reference]) with
      | none =>
        rw [hc] at h
        rcases ih h with h | ⟨branch', reference', hm, he⟩
        · exact .inl h
        · exact .inr ⟨branch', reference', List.mem_cons_of_mem _ hm, he⟩
      | some converted =>
        rw [hc] at h
        rcases ih h with h | ⟨branch', reference', hm, he⟩
        · rw [Crd.Schema.insert, Keyed.lookup_insert] at h
          split at h
          · next hn =>
            refine .inr ⟨branch, reference, List.mem_cons_self .., hr, hn, ?_⟩
            rw [hn, hc, Option.some.inj h]
          · exact .inl h
        · exact .inr ⟨branch', reference', List.mem_cons_of_mem _ hm, he⟩

/-! ### The three ways -/

theorem hidden_of_secret (renames : List (String × String)) (description : Option String) :
    Hidden shape path source leaf (reconcileRequired renames
      (unionShape shape path source (settle source (secretReference leaf description)))) := by
  have ht : isTagged source (settle source (secretReference leaf description)) = false := by
    have hp : (settle source (secretReference leaf description)).properties.isEmpty = false :=
      List.isEmpty_eq_false_iff.mpr fun h => Keyed.insert_ne_nil _ _ _ h
    simp [isTagged, hp]
  rw [unionShape_untagged ht]
  constructor <;> first | rfl | exact reconcileRequired_listed _ _

theorem plain_of_untagged {narrowed : Crd.Schema}
    (hn : Requiring (partShapes shape path source).1 narrowed) (ht : tags shape path source = false) :
    Plain shape path source (reconcileRequired (partShapes shape path source).2
      (unionShape shape path source (settle source narrowed))) := by
  obtain ⟨required, rfl⟩ := hn
  have ht : isTagged source (settle source { (partShapes shape path source).1 with required := required }) =
    false := ht
  rw [unionShape_untagged ht]
  refine { id := rfl, default := rfl, format := fun _ h => settle_format source h, items := rfl,
           allOf := rfl, anyOf := rfl, not := rfl, rules := rfl, type := rfl, properties := rfl,
           required := reconcileRequired_listed _ _, additional := rfl, oneOf := ?_ }
  show (if isUnion source then branchShapes shape path source.oneOf
    else if isUnion source then [] else branchShapes shape path source.oneOf) = _
  split <;> rfl

/-- What the options of a union do not touch. -/
theorem optionShapes_frame (shape : Shape) (path : List String) (bare : Crd.Schema)
    (branches : List OpenApi.Schema) :
    ∃ properties, optionShapes shape path bare branches = { bare with properties := properties } := by
  induction branches generalizing bare with
  | nil =>
    refine ⟨bare.properties, ?_⟩
    cases bare
    rfl
  | cons branch rest ih =>
    simp only [optionShapes]
    cases branch.reference with
    | none => exact ih bare
    | some reference =>
      dsimp only
      cases shape branch (path ++ [optionName reference]) with
      | none => exact ih bare
      | some converted => exact ih (bare.insert (optionName reference) converted)

/-- A union whose branches become properties keeps nothing else than what it had without branches. -/
theorem unionShape_tagged {schema : Crd.Schema} (h : isTagged source schema = true) :
    ∃ properties, properties ≠ [] ∧
    unionShape shape path source schema = { bareUnion source schema with properties := properties } := by
  obtain ⟨properties, ho⟩ := optionShapes_frame shape path (bareUnion source schema) source.oneOf
  refine ⟨_, Keyed.insert_ne_nil "type" (discriminator (optionNames source.oneOf)) properties, ?_⟩
  rw [unionShape, h, if_pos rfl, taggedShape, ho]
  rfl

theorem tagged_of_tags {narrowed : Crd.Schema}
    (hn : Requiring (partShapes shape path source).1 narrowed) (ht : tags shape path source = true) :
    Tagged shape path source (reconcileRequired (partShapes shape path source).2
      (unionShape shape path source (settle source narrowed))) := by
  obtain ⟨required, rfl⟩ := hn
  have hi : isTagged source (settle source { (partShapes shape path source).1 with required := required }) =
    true := ht
  let bare := bareUnion source (settle source { (partShapes shape path source).1 with required := required })
  have hb : bare.properties = [] ∧ bare.additional = none := by
    have := hi
    simp only [isTagged, Bool.and_eq_true, List.isEmpty_iff, Option.isNone_iff_eq_none] at this
    exact ⟨this.1.2, this.2⟩
  obtain ⟨properties, ho⟩ := optionShapes_frame shape path bare source.oneOf
  have hf {α : Type} (field : Crd.Schema → α) : field (optionShapes shape path bare source.oneOf) =
    field { bare with properties := properties } := congrArg field ho
  rw [unionShape, hi, if_pos rfl, taggedShape]
  refine { id := hf (·.id), default := hf (·.default),
           format := fun format h => settle_format source ((hf (·.format)).symm.trans h),
           items := hf (·.items), allOf := hf (·.allOf), anyOf := hf (·.anyOf), not := hf (·.not),
           rules := hf (·.rules), required := reconcileRequired_listed _ _, type := hf (·.type),
           properties := ⟨bare, hb.1, rfl⟩, additional := (hf (·.additional)).trans hb.2,
           oneOf := hf (·.oneOf) }

/-- **What a schema that has a conversion becomes.** -/
theorem shape_cases {setting : Setting} (hp : setting.plugins = PropertyPlugin.all) {depth : Nat}
    {schema : OpenApi.Schema} {result : Crd.Schema}
    (h : shapeWithin setting (depth + 1) schema path = some result) :
    ∃ source, setting.document.resolve schema = some source ∧
      keeps (setting.site source (rooted path)) PropertyPlugin.all = true ∧
      ((∃ leaf, (setting.site source (rooted path)).secret? = some leaf ∧
          Hidden (shapeWithin setting depth) (rooted path) source leaf result) ∨
        (setting.site source (rooted path)).secret? = none ∧
          ((tags (shapeWithin setting depth) (rooted path) source = true ∧
              Tagged (shapeWithin setting depth) (rooted path) source result) ∨
            (tags (shapeWithin setting depth) (rooted path) source = false ∧
              Plain (shapeWithin setting depth) (rooted path) source result))) := by
  obtain ⟨source, hs, hr⟩ := Option.bind_eq_some_iff.mp h
  obtain ⟨kept, hk, rfl⟩ := Option.map_eq_some_iff.mp hr
  rw [hp] at hk
  refine ⟨source, hs, ?_, ?_⟩
  · exact (outcome_isSome _ _ _).symm.trans (congrArg Option.isSome hk)
  · obtain ⟨narrowed, hn, rfl⟩ := outcome_all hk
    cases he : (setting.site source (rooted path)).secret? with
    | some leaf => exact .inl ⟨leaf, rfl, hidden_of_secret _ _⟩
    | none =>
      refine .inr ⟨rfl, ?_⟩
      cases ht : tags (shapeWithin setting depth) (rooted path) source with
      | true => exact .inl ⟨rfl, tagged_of_tags hn ht⟩
      | false => exact .inr ⟨rfl, plain_of_untagged hn ht⟩

/-- Whether the branches of a source become properties is known before the plugins run. -/
theorem isTagged_kept {site : Site} {kept : Crd.Schema}
    (h : outcome site PropertyPlugin.all (partShapes shape path source).1 = some kept) :
    isTagged source (settle source kept) = (site.secret?.isNone && tags shape path source) := by
  obtain ⟨narrowed, ⟨required, rfl⟩, rfl⟩ := outcome_all h
  cases site.secret? with
  | none => rfl
  | some leaf =>
    have hp :
      (settle source (secretReference leaf (partShapes shape path source).1.description)).properties.isEmpty =
      false := List.isEmpty_eq_false_iff.mpr fun h => Keyed.insert_ne_nil _ _ _ h
    show isTagged source
      (settle source (secretReference leaf (partShapes shape path source).1.description)) = _
    rw [isTagged, hp]
    simp

/-! ### What shares a place -/

/-- The schemas whose results share the place of a source. The branches of a tagged union do not. -/
def sharing (tagged : Bool) (source : OpenApi.Schema) : List OpenApi.Schema :=
  source.allOf ++ (if tagged then [] else source.oneOf) ++ source.anyOf ++ source.not.toList ++
    source.additionalSchema.toList

section Sharing
variable {result branch : Crd.Schema}

theorem mem_branchShapes {branches : List OpenApi.Schema} (h : branch ∈ branchShapes shape path branches) :
    ∃ schema ∈ branches, shape schema path = some branch := List.mem_filterMap.mp h

theorem mem_optionShape {schema : Option OpenApi.Schema}
    (h : branch ∈ (optionShape shape path schema).toList) :
    ∃ source ∈ schema.toList, shape source path = some branch := by
  cases schema with
  | none => simp [optionShape] at h
  | some source => exact ⟨source, by simp, by simpa [optionShape] using h⟩

theorem mem_additionalShape (h : result.additional = additionalShape shape path source.additionalSchema)
    (hb : branch ∈ result.additionalSchema?.toList) :
    ∃ schema ∈ source.additionalSchema.toList, shape schema path = some branch := by
  cases ha : source.additionalSchema with
  | none => simp [Crd.Schema.additionalSchema?, h, ha, additionalShape] at hb
  | some additional =>
    refine ⟨additional, by simp, ?_⟩
    rw [Crd.Schema.additionalSchema?, h, ha, additionalShape, Option.map_some] at hb
    cases hc : shape additional path with
    | none => simp [hc] at hb
    | some converted =>
      rw [hc] at hb
      simpa [eq_comm] using hb

theorem mem_sharing {tagged : Bool} {schema : OpenApi.Schema} : schema ∈ sharing tagged source ↔
    schema ∈ source.allOf ∨ (tagged = false ∧ schema ∈ source.oneOf) ∨ schema ∈ source.anyOf ∨
      schema ∈ source.not.toList ∨ schema ∈ source.additionalSchema.toList := by
  cases tagged <;> simp [sharing]

theorem mem_branches : branch ∈ result.branches ↔
    branch ∈ result.allOf ∨ branch ∈ result.oneOf ∨ branch ∈ result.anyOf ∨ branch ∈ result.not.toList ∨
      branch ∈ result.additionalSchema?.toList := by
  simp [Crd.Schema.branches]

theorem Hidden.sharing (h : Hidden shape path source leaf result) (hb : branch ∈ result.branches) :
    ∃ schema ∈ sharing false source, shape schema path = some branch := by
  have ho : branch ∈ branchShapes shape path source.oneOf := by
    rw [mem_branches, h.allOf, h.oneOf, h.anyOf, h.not, Crd.Schema.additionalSchema?, h.additional] at hb
    split at hb
    · simpa using hb
    · simp at hb
  obtain ⟨schema, hm, hs⟩ := mem_branchShapes ho
  exact ⟨schema, mem_sharing.mpr (.inr (.inl ⟨rfl, hm⟩)), hs⟩

theorem Tagged.sharing (h : Tagged shape path source result) (hb : branch ∈ result.branches) :
    ∃ schema ∈ sharing true source, shape schema path = some branch := by
  rw [mem_branches, h.allOf, h.oneOf, h.anyOf, h.not, Crd.Schema.additionalSchema?, h.additional] at hb
  rcases hb with hb | hb | hb | hb | hb
  · obtain ⟨schema, hm, hs⟩ := mem_branchShapes hb
    exact ⟨schema, mem_sharing.mpr (.inl hm), hs⟩
  · cases hb
  · obtain ⟨schema, hm, hs⟩ := mem_branchShapes hb
    exact ⟨schema, mem_sharing.mpr (.inr (.inr (.inl hm))), hs⟩
  · obtain ⟨schema, hm, hs⟩ := mem_optionShape hb
    exact ⟨schema, mem_sharing.mpr (.inr (.inr (.inr (.inl hm)))), hs⟩
  · cases hb

theorem Plain.sharing (h : Plain shape path source result) (hb : branch ∈ result.branches) :
    ∃ schema ∈ sharing false source, shape schema path = some branch := by
  rw [mem_branches, h.allOf, h.oneOf, h.anyOf, h.not] at hb
  rcases hb with hb | hb | hb | hb | hb
  · obtain ⟨schema, hm, hs⟩ := mem_branchShapes hb
    exact ⟨schema, mem_sharing.mpr (.inl hm), hs⟩
  · obtain ⟨schema, hm, hs⟩ := mem_branchShapes hb
    exact ⟨schema, mem_sharing.mpr (.inr (.inl ⟨rfl, hm⟩)), hs⟩
  · obtain ⟨schema, hm, hs⟩ := mem_branchShapes hb
    exact ⟨schema, mem_sharing.mpr (.inr (.inr (.inl hm))), hs⟩
  · obtain ⟨schema, hm, hs⟩ := mem_optionShape hb
    exact ⟨schema, mem_sharing.mpr (.inr (.inr (.inr (.inl hm)))), hs⟩
  · obtain ⟨schema, hm, hs⟩ := mem_additionalShape h.additional hb
    exact ⟨schema, mem_sharing.mpr (.inr (.inr (.inr (.inr hm)))), hs⟩

end Sharing

/-! ### What no conversion says -/

/-- Whether a schema says nothing of how lists are merged, and demands nothing. -/
structure Bare (schema : Crd.Schema) : Prop where
  listType : schema.listType = none
  rules : schema.rules = []

theorem bare_of_outcome {site : Site} {plugins : List PropertyPlugin} {schema kept : Crd.Schema}
    (hs : Bare schema) (h : outcome site plugins schema = some kept) : Bare kept :=
  outcome_preserves (fun _ _ hs => ⟨hs.listType, hs.rules⟩) (fun _ _ _ => ⟨rfl, rfl⟩) hs h

theorem bare_unionShape {shape : Shape} {path : List String} {source : OpenApi.Schema} {schema : Crd.Schema}
    (h : Bare schema) : Bare (unionShape shape path source schema) := by
  cases ht : isTagged source schema with
  | false =>
    rw [unionShape_untagged ht]
    exact ⟨h.listType, h.rules⟩
  | true =>
    obtain ⟨properties, -, hu⟩ := @unionShape_tagged shape path source schema ht
    rw [hu]
    exact ⟨h.listType, h.rules⟩

theorem bare_of_shapeWithin {setting : Setting} {depth : Nat} {schema : OpenApi.Schema} {path : List String}
    {result : Crd.Schema} (h : shapeWithin setting depth schema path = some result) : Bare result := by
  cases depth with
  | zero => cases h
  | succ depth =>
    obtain ⟨source, -, hr⟩ := Option.bind_eq_some_iff.mp h
    obtain ⟨kept, hk, rfl⟩ := Option.map_eq_some_iff.mp hr
    have hkept : Bare kept := bare_of_outcome ⟨rfl, rfl⟩ hk
    have hunion : Bare (unionShape (shapeWithin setting depth) (rooted path) source (settle source kept)) :=
      bare_unionShape ⟨hkept.listType, hkept.rules⟩
    exact ⟨hunion.listType, hunion.rules⟩

end CrdForge.Conversion
