import CrdForge.Proofs.Conversion.Filtering
import CrdForge.Proofs.Conversion.PluginOrder

/-! What plugins leave of a node in whose place they put nothing.

Unless a reference to a secret takes the place of a node, a chain of plugins, whichever it has and in
whatever order, keeps the node as it is but for the names that it requires (`outcome_narrows`), so the
result is known from the parts (`shapeWithin_narrowed`). A property that has a conversion itself stays
required (`staysRequired_of_isSome`). -/
namespace CrdForge.Conversion

open Extension (Tree)

variable {setting : Setting} {path : List String} {source schema below : OpenApi.Schema} {depth : Nat}
  {result : Crd.Schema} {name : String}

/-! ### Chains of plugins -/

/-- Whether a reference to a secret takes the place of what is converted at a path. -/
def Setting.hides (setting : Setting) (path : List String) : Bool :=
  setting.plugins.contains .sensitive && setting.filters.sensitive.contains (Path.render path)

/-- Whether all plugins let a node require a name. -/
def Setting.letsRequire (setting : Setting) (site : Site) (schema : Crd.Schema) (name : String) : Bool :=
  setting.plugins.all fun plugin => plugin.requires site schema name

theorem secret?_of_not_hides (h : setting.hides path = false)
    (hp : PropertyPlugin.sensitive ∈ setting.plugins) :
    (setting.site source path).secret? = none := by
  have hl : setting.filters.sensitive.contains (Path.render path) = false := by
    rwa [Setting.hides, List.contains_iff_mem.mpr hp, Bool.true_and] at h
  exact if_neg (by rw [Bool.not_eq_true]; exact hl)

/-- A node whose place is not taken keeps all but names that the plugins do not let it require. -/
theorem outcome_narrows {site : Site} {plugins : List PropertyPlugin} {schema kept : Crd.Schema}
    (hs : PropertyPlugin.sensitive ∈ plugins → site.secret? = none)
    (h : outcome site plugins schema = some kept) :
    kept = requireOnly (fun name => plugins.all fun plugin => plugin.requires site schema name) schema := by
  induction plugins generalizing schema with
  | nil =>
    obtain rfl := Option.some.inj h
    exact (requireOnly_true schema).symm
  | cons plugin rest ih =>
    obtain ⟨next, hn, h⟩ := Option.bind_eq_some_iff.mp h
    have hnext : next = requireOnly (plugin.requires site schema) schema := by
      rw [plugin.outcome_eq] at hn
      split at hn
      · cases hn
      · rw [← Option.some.inj hn]
        cases plugin with
        | sensitive =>
          rw [PropertyPlugin.change, hs (List.mem_cons_self ..)]
          exact (requireOnly_true schema).symm
        | _ => rfl
    rw [ih (fun hm => hs (List.mem_cons_of_mem _ hm)) h, hnext]
    -- What a plugin lets a node require is up to the properties that the node lists, which stay.
    have hsame (other : PropertyPlugin) (test : String → Bool) :
        other.requires site (requireOnly test schema) = other.requires site schema := rfl
    simp only [hsame]
    simp only [requireOnly, List.filter_filter, List.all_cons, Bool.and_comm]

/-- What is made of a schema whose place is not taken. -/
theorem shapeWithin_narrowed (hh : setting.hides (rooted path) = false)
    (hr : setting.document.resolve schema = some source)
    (h : shapeWithin setting (depth + 1) schema path = some result) :
    let parts := partShapes (shapeWithin setting depth) (rooted path) source
    result = reconcileRequired parts.2 (unionShape (shapeWithin setting depth) (rooted path) source
      (settle source
        (requireOnly (setting.letsRequire (setting.site source (rooted path)) parts.1) parts.1))) := by
  obtain ⟨other, ho, hs⟩ := Option.bind_eq_some_iff.mp h
  obtain rfl := Option.some.inj (hr.symm.trans ho)
  obtain ⟨kept, hk, rfl⟩ := Option.map_eq_some_iff.mp hs
  rw [outcome_narrows (secret?_of_not_hides hh) hk]
  rfl

/-! ### What is required -/

/-- Whether filters let a node require a name: it is not left out by its path, and is read-only in the
source exactly as the filters demand. -/
structure StaysRequired (setting : Setting) (site : Site) (name : String) : Prop where
  readOnly : .readOnly ∈ setting.plugins → site.filters.readOnly = true →
    site.source.readOnly = true ∨ site.hasReadOnly name = true
  writable : .readWrite ∈ setting.plugins → site.filters.readWriteOnly = true → site.hasReadOnly name = false
  unlisted : .skipped ∈ setting.plugins → Path.render (site.path ++ [name]) ∉ site.filters.skipped

theorem letsRequire_iff {site : Site} {schema : Crd.Schema} (h : schema.properties ≠ []) :
    setting.letsRequire site schema name = true ↔ StaysRequired setting site name := by
  have hlisted : schema.properties.isEmpty = false := List.isEmpty_eq_false_iff.mpr h
  rw [Setting.letsRequire, List.all_eq_true]
  constructor
  · intro hall
    constructor
    · intro hm hf
      simpa [PropertyPlugin.requires, hf] using hall _ hm
    · intro hm hf
      simpa [PropertyPlugin.requires, hf] using hall _ hm
    · intro hm
      simpa [PropertyPlugin.requires, hlisted] using hall _ hm
  · intro hstays plugin hm
    cases plugin with
    | readOnly =>
      cases hf : site.filters.readOnly with
      | false => simp [PropertyPlugin.requires, hf]
      | true => simpa [PropertyPlugin.requires, hf] using hstays.readOnly hm hf
    | readWrite =>
      cases hf : site.filters.readWriteOnly with
      | false => simp [PropertyPlugin.requires, hf]
      | true => simpa [PropertyPlugin.requires, hf] using hstays.writable hm hf
    | skipped => simpa [PropertyPlugin.requires, hlisted] using hstays.unlisted hm
    | sensitive => rfl

/-- A property that has a conversion stays required. -/
theorem staysRequired_of_isSome (hl : source.properties.lookup name = some below)
    (h : (shapeWithin setting depth below (rooted path ++ [name])).isSome = true) :
    StaysRequired setting (setting.site source (rooted path)) name := by
  obtain ⟨depth, rfl⟩ : ∃ less, depth = less + 1 := by
    cases depth with
    | zero => cases h
    | succ depth => exact ⟨depth, rfl⟩
  obtain ⟨inner, hi, hk⟩ := isSome_shapeWithin.mp h
  rw [rooted_append, keeps, List.all_eq_true] at hk
  have hreadOnly : (setting.site source (rooted path)).hasReadOnly name = inner.readOnly := by
    simp [Site.hasReadOnly, Setting.site, hl, hi]
  have hroot : Path.isRoot (rooted path ++ [name]) = false := by
    cases path <;> simp [rooted, Path.isRoot]
  constructor
  · intro hm hf
    have hkept := hk _ hm
    simp only [PropertyPlugin.drops, Setting.site, hroot] at hkept hf
    exact .inr (by simpa [hreadOnly, hf] using hkept)
  · intro hm hf
    have hkept := hk _ hm
    simp only [PropertyPlugin.drops, Setting.site] at hkept hf
    simpa [hreadOnly, hf] using hkept
  · intro hm
    simpa [PropertyPlugin.drops, Setting.site, Site.location] using hk _ hm

/-! ### Conversions below a place -/

/-- What becomes of a schema under a name, below a place that is nested in as many schemas as `depth` says. -/
def convertBelow (setting : Setting) (place : Place) (depth : Nat) (tree : Tree) (name : String)
    (schema : OpenApi.Schema) : Option Crd.Schema :=
  (convert setting ⟨some schema, place.node, rooted place.path ++ [name]⟩ (depth + 1) tree).1

/-- Whether the branches of a choice between references become properties: none of its own properties has a
conversion, and there is no schema for others. -/
structure Splits (below : String → OpenApi.Schema → Option Crd.Schema) (source : OpenApi.Schema) : Prop where
  union : isUnion source = true
  bare : ∀ property ∈ source.properties, below property.1 property.2 = none
  closed : source.additionalSchema = none

section
variable {shape : Shape}

theorem convertBelow_eq (setting : Setting) (place : Place) (depth : Nat) (tree : Tree) :
    convertBelow setting place depth tree = fun name schema =>
      shapeWithin setting (maxDepth - (depth + 1)) schema (rooted place.path ++ [name]) := by
  funext name schema
  exact convertWithin_fst setting _ _ _

/-- What a schema that has a conversion is converted to is its shape, and it is not nested too deep. -/
theorem shapeWithin_of_convert {place : Place} {tree after : Tree} (hs : place.schema = some schema)
    (hc : convert setting place depth tree = (some result, after)) :
    shapeWithin setting (maxDepth - (depth + 1) + 1) schema place.path = some result := by
  have hr : shapeWithin setting (maxDepth - depth) schema place.path = some result := by
    have h := convertWithin_fst setting (maxDepth - depth) place tree
    rw [show convertWithin setting (maxDepth - depth) place tree = (some result, after) from hc, hs] at h
    exact h.symm
  have hpos : maxDepth - depth ≠ 0 := by
    intro hzero
    rw [hzero] at hr
    cases hr
  rwa [show maxDepth - (depth + 1) + 1 = maxDepth - depth by omega]

theorem propertyShapes_eq_nil {properties : List (String × OpenApi.Schema)} :
    (propertyShapes shape path {} properties).properties = [] ↔
      ∀ property ∈ properties, shape property.2 (path ++ [property.1]) = none := by
  constructor
  · intro h property hm
    rw [← Option.not_isSome_iff_eq_none, Option.isSome_iff_exists]
    rintro ⟨converted, hc⟩
    have hlisted : Keyed.has (converted.id.getD property.1)
      (propertyShapes shape path {} properties).properties =
        true := has_propertyShapes.mpr (.inr ⟨property, hm, converted, hc, rfl⟩)
    rw [h] at hlisted
    cases hlisted
  · intro h
    refine List.eq_nil_iff_forall_not_mem.mpr fun listed hm => ?_
    rcases has_propertyShapes.mp (Keyed.has_of_mem hm) with hf | ⟨property, hp, converted, hc, -⟩
    · cases hf
    · rw [h property hp] at hc
      cases hc

theorem tags_iff :
    tags shape path source = true ↔ Splits (fun name schema => shape schema (path ++ [name])) source := by
  have hadditional : (additionalShape shape path source.additionalSchema).isNone = true ↔
      source.additionalSchema = none := by
    cases source.additionalSchema <;> simp [additionalShape]
  rw [tags, isTagged, Bool.and_eq_true, Bool.and_eq_true, List.isEmpty_iff]
  simp only [partShapes, propertyShapes_eq_nil, hadditional]
  constructor
  · rintro ⟨⟨hu, hb⟩, hc⟩
    exact ⟨hu, hb, hc⟩
  · intro h
    exact ⟨⟨h.union, h.bare⟩, h.closed⟩

end

end CrdForge.Conversion
