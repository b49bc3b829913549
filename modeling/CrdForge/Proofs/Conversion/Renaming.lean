import CrdForge.Proofs.Conversion.Narrowing

/-! Under which names properties are listed.

A property is listed under its own name, or, if a reference to a secret takes its place, under the name
of that. The other properties are not looked at for a name, nor is what the source requires under it. So
all properties that have a conversion are listed as such, and required as the source requires them,
exactly if no name of a secret clashes with another property or with a requirement
(`Renames.listsApart_iff`). -/
namespace CrdForge.Conversion

open Extension (Tree)

variable {setting : Setting} {shape : Shape} {path : List String}
  {source schema : OpenApi.Schema} {depth : Nat}
  {result kept : Crd.Schema} {key name : String}

/-! ### Names that are asked for -/

/-- Whether a conversion asks for no name, or for that of a reference to a secret in place of a leaf. -/
def MayAsk (leaf : String) (converted : Crd.Schema) : Prop :=
  converted.id = none ∨ converted.id = some (leaf ++ "SecretRef")

theorem outcome_mayAsk {site : Site} {plugins : List PropertyPlugin} {leaf : String} {schema : Crd.Schema}
    (hl : site.path.getLast? = some leaf) (h : MayAsk leaf schema)
    (ho : outcome site plugins schema = some kept) :
    MayAsk leaf kept := by
  refine outcome_preserves (fun _ _ h => h) (fun other description hs => ?_) h ho
  have hother : site.path.getLast? = some other := by
    rw [Site.secret?] at hs
    split at hs
    · exact hs
    · cases hs
  obtain rfl := Option.some.inj (hl.symm.trans hother)
  exact .inr rfl

theorem unionShape_id (schema : Crd.Schema) : (unionShape shape path source schema).id = schema.id := by
  cases ht : isTagged source schema with
  | false => rw [unionShape_untagged ht]
  | true =>
    obtain ⟨properties, -, hu⟩ := @unionShape_tagged shape path source schema ht
    rw [hu]
    rfl

/-- A conversion asks for no name but that of a reference to a secret in its place. -/
theorem shapeWithin_mayAsk (h : shapeWithin setting depth schema (path ++ [key]) = some result) :
    MayAsk key result := by
  cases depth with
  | zero => cases h
  | succ depth =>
    obtain ⟨source, -, hs⟩ := Option.bind_eq_some_iff.mp h
    obtain ⟨kept, hk, rfl⟩ := Option.map_eq_some_iff.mp hs
    rw [rooted_append] at hk
    have hkept : MayAsk key kept := outcome_mayAsk List.getLast?_concat (.inl rfl) hk
    rwa [MayAsk, show (reconcileRequired _ (unionShape _ _ source (settle source kept))).id = kept.id from
      unionShape_id _]

/-! ### Properties that have a conversion -/

/-- What a property of a source is converted to. -/
def converted? (below : String → OpenApi.Schema → Option Crd.Schema)
    (source : OpenApi.Schema) (key : String) :
    Option Crd.Schema :=
  (source.properties.lookup key).bind (below key)

section
variable {properties : List (String × OpenApi.Schema)} (hd : (Keyed.keys properties).Nodup)
include hd

/-- The new name of a property is the one that its conversion asks for. -/
theorem lookup_renames {found : Properties} (key : String) :
    (propertyShapes shape path found properties).renames.lookup key =
      (((properties.lookup key).bind fun schema => shape schema (path ++ [key])).bind (·.id)).or
        (found.renames.lookup key) := by
  induction properties generalizing found with
  | nil => rfl
  | cons property rest ih =>
    obtain ⟨other, schema⟩ := property
    obtain ⟨hother, hrest⟩ := List.nodup_cons.mp hd
    have hnone : rest.lookup other = none := by
      rw [← Option.not_isSome_iff_eq_none]
      exact fun hs => hother (Keyed.mem_keys.mpr hs)
    rw [propertyShapes, Keyed.lookup_cons]
    cases hc : shape schema (path ++ [other]) with
    | none =>
      dsimp only
      rw [ih hrest]
      by_cases hn : key = other
      · subst hn
        rw [if_pos rfl, hnone, Option.bind_some, hc, Option.bind_none]
      · rw [if_neg hn]
    | some converted =>
      dsimp only
      rw [ih hrest, Properties.list]
      by_cases hn : key = other
      · subst hn
        rw [if_pos rfl, hnone, Option.bind_some, hc, Option.bind_none, Option.bind_none, Option.none_or,
          Option.bind_some]
        cases hi : converted.id with
        | none => rfl
        | some name => simp
      · rw [if_neg hn]
        cases converted.id with
        | none => rfl
        | some name => simp [hn]

end

theorem mem_reconcileRequired {renames : List (String × String)} {schema : Crd.Schema} :
    name ∈ (reconcileRequired renames schema).required ↔
      (∃ key ∈ schema.required, (renames.lookup key).getD key = name) ∧
        Keyed.has name schema.properties = true := by
  rw [reconcileRequired, Keyed.mem_distinct, List.mem_filter, List.mem_map]

theorem mem_required_of_untagged {renames : List (String × String)} {test : String → Bool}
    {schema : Crd.Schema} (h : isTagged source schema = false) :
    let narrowed := settle source (requireOnly test schema)
    name ∈ (reconcileRequired renames (unionShape shape path source narrowed)).required ↔
      (∃ key ∈ schema.required, test key = true ∧ (renames.lookup key).getD key = name) ∧
        Keyed.has name schema.properties = true := by
  dsimp only
  have h : isTagged source (settle source (requireOnly test schema)) = false := h
  rw [mem_reconcileRequired, unionShape_untagged h]
  show (∃ key ∈ schema.required.filter test, _) ∧ _ ↔ _
  simp only [List.mem_filter, and_assoc]
  rfl

/-! ### What is listed and required -/

/-- How the properties of a source are listed: under the names that their
conversions ask for, one of those that ask for the same name. What the
source requires is renamed, and what is not listed is required no more. -/
structure Renames (below : String → OpenApi.Schema → Option Crd.Schema) (stays : String → Prop)
    (source : OpenApi.Schema) (result : Crd.Schema) : Prop where
  asks : ∀ {key converted}, converted? below source key = some converted → MayAsk key converted
  kept : ∀ {key converted}, converted? below source key = some converted → stays key
  has : ∀ name, Keyed.has name result.properties = true ↔
    ∃ key converted, converted? below source key = some converted ∧ name = converted.id.getD key
  own : ∀ {name listed}, result.property? name = some listed → ∃ key converted,
    converted? below source key = some converted ∧ name = converted.id.getD key ∧
      listed = { converted with id := none }
  required : ∀ name, name ∈ result.required ↔
    (∃ key ∈ source.required, stays key ∧ ((converted? below source key).bind (·.id)).getD key = name) ∧
      Keyed.has name result.properties = true

section
variable {below : String → OpenApi.Schema → Option Crd.Schema} {shape : Shape}
  (hbelow : below = fun name schema => shape schema (path ++ [name]))
    (hd : (Keyed.keys source.properties).Nodup)
include hbelow

theorem schema_of_converted {converted : Crd.Schema} (h : converted? below source key = some converted) :
    ∃ schema, source.properties.lookup key = some schema ∧ shape schema (path ++ [key]) = some converted := by
  rw [hbelow] at h
  exact Option.bind_eq_some_iff.mp h

include hd

theorem converted?_of_mem (h : (key, schema) ∈ source.properties) :
    converted? below source key = shape schema (path ++ [key]) := by
  rw [converted?, Keyed.lookup_of_mem hd h, hbelow, Option.bind_some]

theorem has_propertyShapes_iff_converted :
    Keyed.has name (propertyShapes shape path {} source.properties).properties =
    true ↔ ∃ key converted, converted? below source key = some converted ∧ name = converted.id.getD key := by
  rw [has_propertyShapes]
  constructor
  · rintro (hf | ⟨⟨key, schema⟩, hm, converted, hc, hn⟩)
    · cases hf
    · exact ⟨key, converted, (converted?_of_mem hbelow hd hm).trans hc, hn⟩
  · rintro ⟨key, converted, hk, hn⟩
    obtain ⟨schema, hl, hc⟩ := schema_of_converted hbelow hk
    exact .inr ⟨(key, schema), Keyed.mem_of_lookup hl, converted, hc, hn⟩

theorem converted_of_lookup {listed : Crd.Schema}
    (h : (propertyShapes shape path {} source.properties).properties.lookup name = some listed) :
    ∃ key converted, converted? below source key = some converted ∧ name = converted.id.getD key ∧
      listed = { converted with id := none } := by
  rcases propertyShapes_lookup h with hf | ⟨key, schema, converted, hm, hc, hn, hl⟩
  · cases hf
  · exact ⟨key, converted, (converted?_of_mem hbelow hd hm).trans hc, hn, hl⟩

theorem lookup_renames_eq (key : String) : (partShapes shape path source).2.lookup key =
    (converted? below source key).bind (·.id) := by
  rw [hbelow]
  exact (lookup_renames hd key).trans (Option.or_none ..)

/-- What a source requires is required under its new name, if plugins let it and something is listed there. -/
theorem mem_required_of_narrowed {test : String → Bool} (ht : tags shape path source = false)
    (hr : result = reconcileRequired (partShapes shape path source).2
      (unionShape shape path source (settle source (requireOnly test (partShapes shape path source).1))))
    (hp : Plain shape path source result) : name ∈ result.required ↔
      (∃ key ∈ source.required, test key = true ∧
        ((converted? below source key).bind (·.id)).getD key = name) ∧
        Keyed.has name result.properties = true := by
  simp only [← lookup_renames_eq hbelow hd]
  rw [hp.properties, hr]
  exact mem_required_of_untagged ht

end

theorem partShapes_ne_nil (hp : Plain shape path source result)
    (h : Keyed.has name result.properties = true) :
    (partShapes shape path source).1.properties ≠ [] := by
  intro hnil
  have hnone : result.properties = [] := hp.properties.trans hnil
  rw [hnone] at h
  cases h

/-- Properties that are converted without a secret in place of their schema,
and without branches, are renamed. -/
theorem renames_of_convert {place : Place} {tree after : Tree} (hs : place.schema = some schema)
    (hr : setting.document.resolve schema = some source) (hd : (Keyed.keys source.properties).Nodup)
    (hh : setting.hides (rooted place.path) = false)
    (hsplits : ¬ Splits (convertBelow setting place depth tree) source)
    (hc : convert setting place depth tree = (some result, after)) :
    Renames (convertBelow setting place depth tree)
      (StaysRequired setting (setting.site source (rooted place.path)))
      source result := by
  have hbelow := convertBelow_eq setting place depth tree
  have htags : tags (shapeWithin setting (maxDepth - (depth + 1))) (rooted place.path) source = false := by
    rw [Bool.eq_false_iff, Ne, tags_iff, ← hbelow]
    exact hsplits
  have hresult := shapeWithin_narrowed hh hr (shapeWithin_of_convert hs hc)
  have hplain : Plain (shapeWithin setting (maxDepth - (depth + 1))) (rooted place.path) source result := by
    rw [hresult]
    exact plain_of_untagged ⟨_, rfl⟩ htags
  constructor
  case asks =>
    intro key converted hk
    obtain ⟨schema, -, hk⟩ := schema_of_converted hbelow hk
    exact shapeWithin_mayAsk hk
  case kept =>
    intro key converted hk
    obtain ⟨schema, hl, hk⟩ := schema_of_converted hbelow hk
    exact staysRequired_of_isSome hl (Option.isSome_iff_exists.mpr ⟨converted, hk⟩)
  case has =>
    intro name
    rw [hplain.properties]
    exact has_propertyShapes_iff_converted hbelow hd
  case own =>
    intro name listed hl
    rw [Crd.Schema.property?, hplain.properties] at hl
    exact converted_of_lookup hbelow hd hl
  case required =>
    intro name
    rw [mem_required_of_narrowed hbelow hd htags hresult hplain]
    refine and_congr_left fun hhas => ?_
    simp only [letsRequire_iff (partShapes_ne_nil hplain hhas)]

/-! ### Keeping apart -/

/-- Whether each property that has a conversion is listed under a name of its own, as that conversion,
and nothing else is listed, and the names of those are required that the source requires. -/
structure ListsApart (below : String → OpenApi.Schema → Option Crd.Schema) (source : OpenApi.Schema)
    (result : Crd.Schema) : Prop where
  apart : ∀ {key other converted converted'}, converted? below source key = some converted →
    converted? below source other = some converted' →
      converted.id.getD key = converted'.id.getD other → key = other
  listed : ∀ name listed, result.property? name = some listed ↔ ∃ key converted,
    converted? below source key = some converted ∧ name = converted.id.getD key ∧
      listed = { converted with id := none }
  required : ∀ name, name ∈ result.required ↔ ∃ key converted,
    converted? below source key = some converted ∧ name = converted.id.getD key ∧ key ∈ source.required

/-- Whether the reference to a secret in place of a property gets in the way of something else: its name
is that of another property, or is required without being one, whereas the property itself is not. -/
inductive Clashes (below : String → OpenApi.Schema → Option Crd.Schema) (stays : String → Prop)
    (source : OpenApi.Schema) (key : String) : Prop
  | taken {other : Crd.Schema} : converted? below source (key ++ "SecretRef") = some other → other.id = none →
      Clashes below stays source key
  | inherited : converted? below source (key ++ "SecretRef") = none → key ++ "SecretRef" ∈ source.required →
      stays (key ++ "SecretRef") → key ∉ source.required → Clashes below stays source key

namespace Renames
variable {below : String → OpenApi.Schema → Option Crd.Schema} {stays : String → Prop}
  (h : Renames below stays source result)
include h

/-- Only the name of a reference to a secret is asked for by two properties. -/
theorem apart (hclash : ∀ key converted, converted? below source key = some converted → converted.id ≠ none →
      ¬ Clashes below stays source key) {key other : String} {converted converted' : Crd.Schema}
    (hk : converted? below source key = some converted) (ho : converted? below source other = some converted')
    (hn : converted.id.getD key = converted'.id.getD other) : key = other := by
  rcases h.asks hk with hi | hi <;> rcases h.asks ho with hi' | hi' <;>
    simp only [hi, hi', Option.getD_none, Option.getD_some] at hn
  · exact hn
  · subst hn
    exact absurd (.taken hk hi) (hclash other converted' ho (by simp [hi']))
  · subst hn
    exact absurd (.taken ho hi') (hclash key converted hk (by simp [hi]))
  · exact String.append_left_inj .. |>.mp hn

/-- Where names are given once, what is listed under the name of a property is its conversion. -/
theorem listed (hapart : ∀ {key other converted converted'}, converted? below source key = some converted →
      converted? below source other = some converted' →
        converted.id.getD key = converted'.id.getD other → key = other)
    {key : String} {converted : Crd.Schema} (hk : converted? below source key = some converted) :
    result.property? (converted.id.getD key) = some { converted with id := none } := by
  obtain ⟨listed, hl⟩ := Keyed.has_iff.mp ((h.has _).mpr ⟨key, converted, hk, rfl⟩)
  have hl : result.property? (converted.id.getD key) = some listed := hl
  obtain ⟨other, converted', ho, hn, rfl⟩ := h.own hl
  obtain rfl := hapart hk ho hn
  obtain rfl := Option.some.inj (hk.symm.trans ho)
  exact hl

theorem listsApart
    (hclash : ∀ key converted, converted? below source key = some converted → converted.id ≠ none →
    ¬ Clashes below stays source key) : ListsApart below source result := by
  have hrenamed {key : String} {converted : Crd.Schema} (hk : converted? below source key = some converted) :
      ((converted? below source key).bind (·.id)).getD key = converted.id.getD key := by
        rw [hk, Option.bind_some]
  refine ⟨h.apart hclash, fun name listed => ⟨h.own, ?_⟩, fun name => ?_⟩
  · rintro ⟨key, converted, hk, rfl, rfl⟩
    exact h.listed (h.apart hclash) hk
  · rw [h.required, h.has]
    constructor
    · rintro ⟨⟨key, hm, hstays, hn⟩, other, converted, ho, rfl⟩
      refine ⟨other, converted, ho, rfl, ?_⟩
      cases hk : converted? below source key with
      | some converted' =>
        rw [hrenamed hk] at hn
        rwa [← h.apart hclash hk ho hn]
      | none =>
        -- What has no conversion keeps its name, so the property that is listed under it was renamed.
        rw [hk, Option.bind_none, Option.getD_none] at hn
        rcases h.asks ho with hi | hi
        · rw [hi, Option.getD_none] at hn
          rw [hn, ho] at hk
          cases hk
        · rw [hi, Option.getD_some] at hn
          subst hn
          refine Classical.by_contradiction fun hother => ?_
          exact hclash other converted ho (by simp [hi]) (.inherited hk hm hstays hother)
    · rintro ⟨key, converted, hk, rfl, hm⟩
      exact ⟨⟨key, hm, h.kept hk, hrenamed hk⟩, key, converted, hk, rfl⟩

theorem listsApart_iff : ListsApart below source result ↔ ∀ key converted,
    converted? below source key = some converted → converted.id ≠ none →
      ¬ Clashes below stays source key := by
  refine ⟨fun hlists key converted hk hi hclash => ?_, h.listsApart⟩
  have hid : converted.id.getD key = key ++ "SecretRef" := by
    rw [(h.asks hk).resolve_left hi, Option.getD_some]
  cases hclash with
  | taken ho hi' =>
    have heq : key = key ++ "SecretRef" := hlists.apart hk ho (by rw [hid, hi', Option.getD_none])
    have hlength : key.length = key.length + 9 := (congrArg String.length heq).trans (String.length_append ..)
    omega
  | inherited hnone hm hstays hnot =>
    have hrequired : key ++ "SecretRef" ∈ result.required := by
      rw [h.required, h.has]
      exact ⟨⟨_, hm, hstays, by rw [hnone]; rfl⟩, key, converted, hk, hid.symm⟩
    obtain ⟨other, converted', ho, hn, hother⟩ := (hlists.required _).mp hrequired
    exact hnot (hlists.apart hk ho (hid.trans hn) ▸ hother)

end Renames

/-- **Properties are kept apart exactly if no name of a reference to a secret clashes** with another
property, or with what the source requires. This is of every schema that is converted without a secret in
its place, and whose branches do not become properties. -/
theorem convert_listsApart_iff {place : Place} {tree after : Tree} (hs : place.schema = some schema)
    (hr : setting.document.resolve schema = some source) (hd : (Keyed.keys source.properties).Nodup)
    (hh : setting.hides (rooted place.path) = false)
    (hsplits : ¬ Splits (convertBelow setting place depth tree) source)
    (hc : convert setting place depth tree = (some result, after)) :
    let stays := StaysRequired setting (setting.site source (rooted place.path))
    Renames (convertBelow setting place depth tree) stays source result ∧
      (ListsApart (convertBelow setting place depth tree) source result ↔
        ∀ key converted, converted? (convertBelow setting place depth tree) source key = some converted →
          converted.id ≠ none → ¬ Clashes (convertBelow setting place depth tree) stays source key) :=
  have h := renames_of_convert hs hr hd hh hsplits hc
  ⟨h, h.listsApart_iff⟩

/-- A login that may have a password, and requires what is not listed. -/
def login : OpenApi.Schema where
  type := some (.one "object")
  required := ["passwordSecretRef"]
  properties := [("password", {})]

def loginSetting : Setting where
  document := {}
  filters := { sensitive := ["$.password"] }

def loginPlace : Place := ⟨some login, Tree.root, [Path.root]⟩

/-- The password becomes required, which the login does not require. -/
theorem login_requires_password :
    ∃ result after, convert loginSetting loginPlace 0 .empty = (some result, after) ∧
      Keyed.keys result.properties = ["passwordSecretRef"] ∧ result.required = ["passwordSecretRef"] ∧
      "password" ∉ login.required ∧
        ¬ ListsApart (convertBelow loginSetting loginPlace 0 .empty) login result := by
  obtain ⟨result, hresult, hlisted⟩ : ∃ result, (convert loginSetting loginPlace 0 .empty).1 = some result ∧
      (Keyed.keys result.properties == ["passwordSecretRef"] &&
        result.required == ["passwordSecretRef"]) = true :=
    Option.any_eq_true _ _ |>.mp (by decide +kernel)
  rw [Bool.and_eq_true, beq_iff_eq, beq_iff_eq] at hlisted
  have hsplits : ¬ Splits (convertBelow loginSetting loginPlace 0 .empty) login := fun h => nomatch h.union
  have hconvert : convert loginSetting loginPlace 0 .empty = (some result, _) := Prod.ext hresult rfl
  obtain ⟨hrenames, hiff⟩ := convert_listsApart_iff rfl rfl (by decide) (by decide +kernel) hsplits hconvert
  obtain ⟨password, hpassword, hid⟩ : ∃ password,
      converted? (convertBelow loginSetting loginPlace 0 .empty) login "password" = some password ∧
        password.id.isSome = true := Option.any_eq_true _ _ |>.mp (by decide +kernel)
  have hmissing : converted? (convertBelow loginSetting loginPlace 0 .empty) login
      "passwordSecretRef" = none :=
    Option.isNone_iff_eq_none.mp (by decide +kernel)
  have hstays : StaysRequired loginSetting
      (loginSetting.site login (rooted loginPlace.path)) "passwordSecretRef" :=
    ⟨fun _ => nofun, fun _ => nofun, fun _ => List.not_mem_nil⟩
  refine ⟨result, _, hconvert, hlisted.1, hlisted.2, by decide, fun hapart => ?_⟩
  exact hiff.mp hapart "password" password hpassword (Option.isSome_iff_ne_none.mp hid)
    (.inherited hmissing (by decide) hstays (by decide))

end CrdForge.Conversion
