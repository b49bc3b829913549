import CrdForge.Proofs.Conversion.Secrets

/-! Which places the filters keep.

The plugins look at a source and its path, and at nothing that was made of it. So where nothing is
sensitive and no choice between references becomes properties, what stands below a node that is kept is
the conversion of what stands below its source (`shapeWithin_below?`), and a chain of properties and
items leads to a node of a conversion exactly if it is shorter than the depth bound and the filters admit
the source at each place on the way (`convert_along_iff`). Links of the root are such chains, and no two
kinds of filters admit the same ones but for the root itself, so an entry and a status share no property
and miss none (`convert_partition`). -/
namespace CrdForge

open Extension (Link NodeId Tree)

/-! ### Chains -/

/-- The node at the end of a chain of properties and items. -/
def Crd.Schema.along : Crd.Schema → List Link → Option Crd.Schema
  | schema, [] => some schema
  | schema, link :: rest => (schema.below? link).bind fun below => below.along rest

/-- The schema that a link leads to from a schema that is no reference. -/
def OpenApi.Schema.below? (source : OpenApi.Schema) : Link → Option OpenApi.Schema
  | .property name => source.properties.lookup name
  | .items => source.items

/-- The schema at the end of a chain of properties and items, with references followed at every place. -/
def OpenApi.Document.along (document : OpenApi.Document) : OpenApi.Schema → List Link → Option OpenApi.Schema
  | schema, [] => document.resolve schema
  | schema, link :: rest =>
    ((document.resolve schema).bind (·.below? link)).bind fun below => document.along below rest

theorem OpenApi.Document.along_cons {document : OpenApi.Document}
    {schema source below : OpenApi.Schema} {link : Link} (hr : document.resolve schema = some source)
    (hb : source.below? link = some below) (rest : List Link) :
    document.along schema (link :: rest) = document.along below rest := by
  rw [along, hr, Option.bind_some, hb, Option.bind_some]

/-- What every link preserves holds of a schema that the chain ends at. -/
theorem OpenApi.Document.along_preserves {document : OpenApi.Document} {P : OpenApi.Schema → Prop}
    (hstep : ∀ schema source link below,
      P schema → document.resolve schema = some source → source.below? link = some below → P below)
    {schema source : OpenApi.Schema} (hschema : P schema) {links : List Link}
    (h : document.along schema links = some source) :
    ∃ last, P last ∧ document.resolve last = some source := by
  induction links generalizing schema with
  | nil => exact ⟨schema, hschema, h⟩
  | cons link rest ih =>
    obtain ⟨below, hb, hrest⟩ := Option.bind_eq_some_iff.mp h
    obtain ⟨origin, hr, hb⟩ := Option.bind_eq_some_iff.mp hb
    exact ih (hstep schema origin link below hschema hr hb) hrest

namespace Conversion

variable {setting : Setting} {shape : Shape} {path : List String}
  {source schema : OpenApi.Schema} {depth : Nat}
  {result : Crd.Schema}

/-- Whether the properties of a source are what becomes properties: it is no choice between references,
and lists no property twice, as no schema does that is read from a document. -/
structure Direct (source : OpenApi.Schema) : Prop where
  single : isUnion source = false
  distinct : (Keyed.keys source.properties).Nodup

/-- Whether filters admit a source at the end of a chain from the root. The
root itself need not be read-only. -/
structure Admits (filters : Config.Filters) (links : List Link) (source : OpenApi.Schema) : Prop where
  unlisted : Path.render (Path.root :: links.map linkSegment) ∉ filters.skipped
  writable : filters.readWriteOnly = true → source.readOnly = false
  readOnly : filters.readOnly = true → links ≠ [] → source.readOnly = true

theorem keeps_all_iff {site : Site} : keeps site PropertyPlugin.all = true ↔
    site.location ∉ site.filters.skipped ∧
      (site.filters.readWriteOnly = true → site.source.readOnly = false) ∧
      (site.filters.readOnly = true → Path.isRoot site.path = false → site.source.readOnly = true) := by
  simp only [keeps, PropertyPlugin.all, List.all_cons, List.all_nil, PropertyPlugin.drops]
  cases site.filters.readOnly <;> cases site.filters.readWriteOnly <;> cases site.source.readOnly <;>
    cases Path.isRoot site.path <;> simp

/-- All plugins keep a source at the end of a chain exactly if the filters admit it. -/
theorem keeps_iff_admits (links : List Link) :
    keeps (setting.site source (Path.root :: links.map linkSegment)) PropertyPlugin.all = true ↔
      Admits setting.filters links source := by
  have hroot : Path.isRoot (Path.root :: links.map linkSegment) = false ↔ links ≠ [] := by
    cases links <;> simp [Path.isRoot]
  rw [keeps_all_iff]
  constructor
  · intro ⟨hl, hw, hr⟩
    exact ⟨hl, hw, fun hf hn => hr hf (hroot.mpr hn)⟩
  · intro h
    exact ⟨h.unlisted, h.writable, fun hf hn => h.readOnly hf (hroot.mp hn)⟩

/-! ### Properties -/

/-- If no conversion asks for another name, a property becomes the conversion of its source. -/
theorem lookup_propertyShapes {properties : List (String × OpenApi.Schema)} {found : Properties}
    (hd : (Keyed.keys properties).Nodup)
    (hi : ∀ schema path converted, shape schema path = some converted → converted.id = none) (name : String) :
    (propertyShapes shape path found properties).properties.lookup name =
      ((properties.lookup name).bind fun schema => shape schema (path ++ [name])).or
        (found.properties.lookup name) := by
  induction properties generalizing found with
  | nil => rfl
  | cons property rest ih =>
    obtain ⟨key, schema⟩ := property
    obtain ⟨hkey, hrest⟩ := List.nodup_cons.mp hd
    -- A second property of the name would take the place of the first one, whereas a lookup finds the first.
    have hnone : rest.lookup key = none := by
      rw [← Option.not_isSome_iff_eq_none]
      exact fun hs => hkey (Keyed.mem_keys.mpr hs)
    rw [propertyShapes, Keyed.lookup_cons]
    cases hc : shape schema (path ++ [key]) with
    | none =>
      dsimp only
      rw [ih hrest]
      by_cases hn : name = key
      · subst hn
        rw [if_pos rfl, hnone, Option.bind_some, hc, Option.bind_none]
      · rw [if_neg hn]
    | some converted =>
      have hid := hi _ _ _ hc
      dsimp only
      rw [ih hrest, Properties.list, unnamed_eq hid, hid, Option.getD_none, Keyed.lookup_insert]
      by_cases hn : name = key
      · subst hn
        rw [if_pos rfl, if_pos rfl, hnone, Option.bind_some, hc, Option.bind_none,
          Option.none_or, Option.some_or]
      · rw [if_neg hn, if_neg hn]

/-! ### Single nodes -/

/-- A schema has a conversion if it leads to a source that the plugins keep, and nests not too deep. -/
theorem isSome_shapeWithin : (shapeWithin setting (depth + 1) schema path).isSome = true ↔
    ∃ source, setting.document.resolve schema = some source ∧
      keeps (setting.site source (rooted path)) setting.plugins = true := by
  have hkeeps (source : OpenApi.Schema) :
      (sourceShape setting (shapeWithin setting depth) (rooted path) source).isSome =
        keeps (setting.site source (rooted path)) setting.plugins := by
    unfold sourceShape
    rw [Option.isSome_map, outcome_isSome]
  rw [shapeWithin, Option.isSome_bind, Option.any_eq_true]
  simp only [hkeeps]

section
variable (hp : setting.plugins = PropertyPlugin.all) (hs : setting.filters.sensitive = [])
include hp hs

/-- Where nothing is sensitive no reference to a secret takes the place of a schema. -/
theorem shapeWithin_kept (h : shapeWithin setting (depth + 1) schema path = some result)
    (hr : setting.document.resolve schema = some source) :
    (tags (shapeWithin setting depth) (rooted path) source = true ∧
        Tagged (shapeWithin setting depth) (rooted path) source result) ∨
      Plain (shapeWithin setting depth) (rooted path) source result := by
  have hnone (other : OpenApi.Schema) : (setting.site other (rooted path)).secret? = none := by
    simp [Site.secret?, Setting.site, hs]
  obtain ⟨other, ho, -, hcases⟩ := shape_cases hp h
  obtain rfl := Option.some.inj (hr.symm.trans ho)
  rcases hcases with ⟨leaf, hl, -⟩ | ⟨-, htagged | ⟨-, hplain⟩⟩
  · rw [hnone] at hl
    cases hl
  · exact .inl htagged
  · exact .inr hplain

theorem shapeWithin_unnamed (h : shapeWithin setting depth schema path = some result) : result.id = none := by
  cases depth with
  | zero => cases h
  | succ depth =>
    obtain ⟨source, hr, -⟩ := Option.bind_eq_some_iff.mp h
    rcases shapeWithin_kept hp hs h hr with ⟨-, htagged⟩ | hplain
    · exact htagged.id
    · exact hplain.id

/-- **What stands below a node is the conversion of what stands below its source.** -/
theorem shapeWithin_below? (h : shapeWithin setting (depth + 1) schema path = some result)
    (hr : setting.document.resolve schema = some source) (hd : Direct source) (link : Link) :
    result.below? link =
      (source.below? link).bind fun below =>
        shapeWithin setting depth below (rooted path ++ [linkSegment link]) := by
  have hplain : Plain (shapeWithin setting depth) (rooted path) source result := by
    rcases shapeWithin_kept hp hs h hr with ⟨ht, -⟩ | hplain
    · rw [tags, isTagged, hd.single] at ht
      cases ht
    · exact hplain
  cases link with
  | property name =>
    show result.properties.lookup name = _
    rw [hplain.properties, lookup_propertyShapes hd.distinct fun _ _ _ hc => shapeWithin_unnamed hp hs hc]
    exact Option.or_none
  | items => exact hplain.items

/-- A chain leads on from a node exactly if its first link leads to a node that the rest leads on from. -/
theorem shapeWithin_along_cons {link : Link} {rest : List Link}
    (hd : ∀ source, setting.document.resolve schema = some source → Direct source) :
    (∃ result, shapeWithin setting (depth + 1) schema path = some result ∧
        (result.along (link :: rest)).isSome = true) ↔
      ∃ source, setting.document.resolve schema = some source ∧
        keeps (setting.site source (rooted path)) PropertyPlugin.all = true ∧
          ∃ below, source.below? link = some below ∧ ∃ result,
            shapeWithin setting depth below (rooted path ++ [linkSegment link]) = some result ∧
              (result.along rest).isSome = true := by
  constructor
  · intro ⟨result, h, ha⟩
    obtain ⟨source, hr, hk⟩ := isSome_shapeWithin.mp (Option.isSome_of_mem h)
    have hbelow := shapeWithin_below? hp hs h hr (hd source hr) link
    rw [Crd.Schema.along, Option.isSome_bind, Option.any_eq_true] at ha
    obtain ⟨next, hn, ha⟩ := ha
    rw [hn] at hbelow
    obtain ⟨below, hb, hc⟩ := Option.bind_eq_some_iff.mp hbelow.symm
    rw [hp] at hk
    exact ⟨source, hr, hk, below, hb, next, hc, ha⟩
  · intro ⟨source, hr, hk, below, hb, next, hc, ha⟩
    rw [← hp] at hk
    obtain ⟨result, h⟩ := Option.isSome_iff_exists.mp (isSome_shapeWithin.mpr ⟨source, hr, hk⟩)
    have hbelow := shapeWithin_below? hp hs h hr (hd source hr) link
    rw [hb, Option.bind_some, hc] at hbelow
    refine ⟨result, h, ?_⟩
    rw [Crd.Schema.along, hbelow]
    exact ha

end

/-! ### Chains of nodes -/

/-- Whether the plugins keep the source at every place of a chain that starts below a path. -/
def KeptAlong (setting : Setting) (schema : OpenApi.Schema) (path : List String) (links : List Link) : Prop :=
  ∀ before, before <+: links → ∃ source, setting.document.along schema before = some source ∧
    keeps (setting.site source (path ++ before.map linkSegment)) PropertyPlugin.all = true

theorem keptAlong_nil : KeptAlong setting schema path [] ↔ ∃ source,
    setting.document.resolve schema = some source ∧
      keeps (setting.site source path) PropertyPlugin.all = true := by
  simp [KeptAlong, OpenApi.Document.along]

theorem keptAlong_cons {link : Link} {rest : List Link} :
    KeptAlong setting schema path (link :: rest) ↔ ∃ source,
      setting.document.resolve schema = some source ∧
        keeps (setting.site source path) PropertyPlugin.all = true ∧
        ∃ below, source.below? link = some below ∧
          KeptAlong setting below (path ++ [linkSegment link]) rest := by
  constructor
  · intro h
    obtain ⟨source, hr, hk⟩ := keptAlong_nil.mp fun before hb => h before (hb.trans List.nil_prefix)
    cases hb : source.below? link with
    | none =>
      obtain ⟨_, hn, -⟩ := h [link] ((List.prefix_cons_inj link).mpr List.nil_prefix)
      rw [OpenApi.Document.along, hr, Option.bind_some, hb] at hn
      cases hn
    | some below =>
      refine ⟨source, hr, hk, below, hb, fun before hbefore => ?_⟩
      have hnext := h (link :: before) ((List.prefix_cons_inj link).mpr hbefore)
      rwa [OpenApi.Document.along_cons hr hb, List.map_cons, List.append_cons] at hnext
  · intro ⟨source, hr, hk, below, hb, hrest⟩ before hbefore
    rcases List.prefix_cons_iff.mp hbefore with rfl | ⟨before, rfl, hinner⟩
    · exact keptAlong_nil.mpr ⟨source, hr, hk⟩ [] List.nil_prefix
    · rw [OpenApi.Document.along_cons hr hb, List.map_cons, List.append_cons]
      exact hrest before hinner

/-- A chain leads to a node of a conversion if it is short enough and the
plugins keep every place on the way. -/
theorem shapeWithin_along_iff (hp : setting.plugins = PropertyPlugin.all)
    (hs : setting.filters.sensitive = []) {links : List Link}
    (hd : ∀ links source, setting.document.along schema links = some source → Direct source) :
    (∃ result, shapeWithin setting depth schema path = some result ∧ (result.along links).isSome = true) ↔
      links.length < depth ∧ KeptAlong setting schema (rooted path) links := by
  -- Each link goes one level down, so it is the depth that the chain is taken apart with.
  induction depth generalizing links schema path with
  | zero =>
    constructor
    · intro ⟨_, h, _⟩
      cases h
    · intro ⟨h, _⟩
      omega
  | succ depth ih =>
    cases links with
    | nil =>
      have hnil : (∃ result, shapeWithin setting (depth + 1) schema path = some result ∧
          (result.along []).isSome = true) ↔ (shapeWithin setting (depth + 1) schema path).isSome = true := by
        rw [Option.isSome_iff_exists]
        exact exists_congr fun _ => and_iff_left rfl
      rw [hnil, isSome_shapeWithin, hp, keptAlong_nil]
      exact (and_iff_right (Nat.succ_pos depth)).symm
    | cons link rest =>
      have hnext {source below : OpenApi.Schema} (hr : setting.document.resolve schema = some source)
          (hb : source.below? link = some below) :
          ∀ links source, setting.document.along below links = some source → Direct source := by
        intro links other ho
        apply hd (link :: links)
        rw [OpenApi.Document.along_cons hr hb]
        exact ho
      rw [shapeWithin_along_cons hp hs (hd []), keptAlong_cons, List.length_cons, Nat.add_lt_add_iff_right]
      constructor
      · intro ⟨source, hr, hk, below, hb, hrest⟩
        obtain ⟨hlt, hrest⟩ := (ih (hnext hr hb)).mp hrest
        rw [rooted_append] at hrest
        exact ⟨hlt, source, hr, hk, below, hb, hrest⟩
      · intro ⟨hlt, source, hr, hk, below, hb, hrest⟩
        rw [← rooted_append] at hrest
        exact ⟨source, hr, hk, below, hb, (ih (hnext hr hb)).mpr ⟨hlt, hrest⟩⟩

/-- **A chain leads to a node of a conversion exactly if it is short and the
filters admit what the document has on the way.** -/
theorem convert_along_iff (hp : setting.plugins = PropertyPlugin.all) (hs : setting.filters.sensitive = [])
    (hd : ∀ links source, setting.document.along schema links = some source → Direct source) (node : NodeId)
    (tree : Tree) (links : List Link) :
    (∃ result, (convert setting ⟨some schema, node, [Path.root]⟩ 0 tree).1 = some result ∧
        (result.along links).isSome = true) ↔
      links.length < maxDepth ∧ ∀ before, before <+: links → ∃ source,
        setting.document.along schema before = some source ∧ Admits setting.filters before source := by
  unfold convert
  rw [convertWithin_fst]
  show (∃ result, shapeWithin setting maxDepth schema [Path.root] = some result ∧ _) ↔ _
  rw [shapeWithin_along_iff hp hs hd]
  apply and_congr_right'
  exact forall_congr' fun before => forall_congr' fun _ => exists_congr fun source =>
    and_congr_right' (keeps_iff_admits before)

/-- Topics in topics, of which the document says the same in every one. -/
def topic : OpenApi.Schema where
  properties := [("id", { readOnly := true }), ("name", {}), ("topics",
    { type := some (.one "array"), items := some { reference := some "#/components/schemas/Topic" } })]

def topicReference : OpenApi.Schema where
  reference := some "#/components/schemas/Topic"

def topicSetting : Setting where
  document := { components := { schemas := [("Topic", topic)] } }
  filters := { readWriteOnly := true, skipped := ["$.topics[*].name"] }

theorem direct_topics {links : List Link}
    (h : topicSetting.document.along topicReference links = some source) :
    Direct source := by
  have hresolve : topicSetting.document.resolve topicReference = some topic := by rfl
  have htopic : ∃ last, (last = topicReference ∨ last ∈ topic.properties.map (·.2)) ∧
      topicSetting.document.resolve last = some source := by
    apply OpenApi.Document.along_preserves _ (.inl rfl) h
    intro schema source link below hschema hr hb
    rcases hschema with rfl | hschema
    · obtain rfl := Option.some.inj (hresolve.symm.trans hr)
      cases link with
      | property name => exact .inr (List.mem_map_of_mem (Keyed.mem_of_lookup hb))
      | items => cases hb
    · simp only [topic, List.map_cons, List.map_nil, List.mem_cons, List.not_mem_nil, or_false] at hschema
      rcases hschema with rfl | rfl | rfl <;> cases hr <;> cases link <;> cases hb
      exact .inl rfl
  obtain ⟨last, rfl | hlast, hr⟩ := htopic
  · obtain rfl := Option.some.inj (hresolve.symm.trans hr)
    exact ⟨rfl, by decide⟩
  · simp only [topic, List.map_cons, List.map_nil, List.mem_cons, List.not_mem_nil, or_false] at hlast
    rcases hlast with rfl | rfl | rfl <;> cases hr <;> exact ⟨rfl, List.nodup_nil⟩

/-- A name of a topic in a topic is left out, whereas the topics in it are kept. -/
theorem topics_along :
    (∃ result, (convert topicSetting ⟨some topicReference, Tree.root, [Path.root]⟩ 0 .empty).1 = some result ∧
        (result.along [.property "topics", .items, .property "topics"]).isSome = true) ∧
      ¬∃ result, (convert topicSetting ⟨some topicReference, Tree.root, [Path.root]⟩ 0 .empty).1 =
        some result ∧
        (result.along [.property "topics", .items, .property "name"]).isSome = true := by
  have hp : topicSetting.plugins = PropertyPlugin.all := rfl
  have hs : topicSetting.filters.sensitive = [] := rfl
  have hiff := convert_along_iff hp hs (fun _ _ => direct_topics) Tree.root .empty
  constructor
  · rw [hiff]
    refine ⟨by decide, fun before hbefore => ?_⟩
    simp only [List.prefix_cons_iff, List.prefix_nil] at hbefore
    rcases hbefore with rfl | ⟨_, rfl, rfl | ⟨_, rfl, rfl | ⟨_, rfl, rfl⟩⟩⟩ <;>
      exact ⟨_, rfl, by decide, fun _ => rfl, nofun⟩
  · rw [hiff]
    intro ⟨_, hadmits⟩
    obtain ⟨_, -, hnot⟩ := hadmits _ List.prefix_rfl
    exact hnot.unlisted (by decide)

/-! ### Properties of the root -/

/-- The properties of the root are those of its source that lead to a source that the filters admit. -/
theorem mem_keys_shapeWithin (hp : setting.plugins = PropertyPlugin.all) (hs : setting.filters.sensitive = [])
    (h : shapeWithin setting (depth + 2) schema [Path.root] = some result)
    (hr : setting.document.resolve schema = some source) (hd : Direct source) (name : String) :
    name ∈ Keyed.keys result.properties ↔ ∃ below, source.properties.lookup name = some below ∧
      ∃ inner, setting.document.resolve below = some inner ∧
        Admits setting.filters [.property name] inner := by
  have hbelow : result.properties.lookup name = (source.properties.lookup name).bind fun below =>
      shapeWithin setting (depth + 1) below ([Path.root] ++ [name]) :=
    shapeWithin_below? hp hs h hr hd (.property name)
  rw [Keyed.mem_keys, Keyed.has, hbelow, Option.isSome_bind, Option.any_eq_true]
  simp only [isSome_shapeWithin, hp]
  exact exists_congr fun below => and_congr_right fun _ => exists_congr fun inner =>
    and_congr_right fun _ => keeps_iff_admits [.property name]

/-- **What can be written and what can only be read part the properties of a resource.** -/
theorem convert_partition {document : OpenApi.Document} {skipped : List String}
    (hr : document.resolve schema = some source) (hw : source.readOnly = false) (hd : Direct source)
    (hroot : Path.root ∉ skipped) (node : NodeId) (tree : Tree) :
    ∃ entry status whole,
      (convert { document, filters := { readWriteOnly := true, skipped } }
        ⟨some schema, node, [Path.root]⟩ 0 tree).1 =
          some entry ∧
        (convert { document, filters := { readOnly := true, skipped } }
          ⟨some schema, node, [Path.root]⟩ 0 tree).1 =
          some status ∧
        (convert { document, filters := { skipped } } ⟨some schema, node, [Path.root]⟩ 0 tree).1 =
          some whole ∧
        (Keyed.keys entry.properties).Disjoint (Keyed.keys status.properties) ∧
        ∀ name, name ∈ Keyed.keys whole.properties ↔
          name ∈ Keyed.keys entry.properties ∨ name ∈ Keyed.keys status.properties := by
  have hsome (readOnly readWriteOnly : Bool) : ∃ result,
      shapeWithin { document, filters := { readOnly, readWriteOnly, skipped } } maxDepth schema [Path.root] =
        some result := by
    rw [← Option.isSome_iff_exists]
    exact isSome_shapeWithin.mpr
      ⟨source, hr, (keeps_iff_admits []).mpr ⟨hroot, fun _ => hw, fun _ h => absurd rfl h⟩⟩
  obtain ⟨entry, he⟩ := hsome false true
  obtain ⟨status, hs⟩ := hsome true false
  obtain ⟨whole, hall⟩ := hsome false false
  have hentry := mem_keys_shapeWithin rfl rfl he hr hd
  have hstatus := mem_keys_shapeWithin rfl rfl hs hr hd
  have hwhole := mem_keys_shapeWithin rfl rfl hall hr hd
  refine ⟨entry, status, whole, ?_, ?_, ?_, ?_, ?_⟩
  · exact (convertWithin_fst _ _ _ _).trans he
  · exact (convertWithin_fst _ _ _ _).trans hs
  · exact (convertWithin_fst _ _ _ _).trans hall
  · intro name hn hn'
    obtain ⟨below, hl, inner, hi, hadmits⟩ := (hentry name).mp hn
    obtain ⟨below', hl', inner', hi', hadmits'⟩ := (hstatus name).mp hn'
    obtain rfl := Option.some.inj (hl.symm.trans hl')
    obtain rfl := Option.some.inj (hi.symm.trans hi')
    have htrue := hadmits'.readOnly rfl (List.cons_ne_nil _ _)
    rw [hadmits.writable rfl] at htrue
    cases htrue
  · intro name
    rw [hentry, hstatus, hwhole]
    constructor
    · intro ⟨below, hl, inner, hi, hadmits⟩
      cases ho : inner.readOnly with
      | false => exact .inl ⟨below, hl, inner, hi, hadmits.unlisted, fun _ => ho, nofun⟩
      | true => exact .inr ⟨below, hl, inner, hi, hadmits.unlisted, nofun, fun _ _ => ho⟩
    · intro hlisted
      rcases hlisted with ⟨below, hl, inner, hi, hadmits⟩ | ⟨below, hl, inner, hi, hadmits⟩
      · exact ⟨below, hl, inner, hi, hadmits.unlisted, nofun, nofun⟩
      · exact ⟨below, hl, inner, hi, hadmits.unlisted, nofun, nofun⟩

/-- The entry of a topic takes its name and the status its id, where topics in it are skipped. -/
theorem topic_parted :
    topicSetting.document.resolve topicReference = some topic ∧ topic.readOnly = false ∧ Direct topic ∧
      Path.root ∉ ["$.topics"] ∧ ∃ entry status,
        (convert ⟨topicSetting.document, { readWriteOnly := true, skipped := ["$.topics"] },
            PropertyPlugin.all⟩ ⟨some topicReference, Tree.root, [Path.root]⟩ 0 .empty).1 = some entry ∧
          (convert ⟨topicSetting.document, { readOnly := true, skipped := ["$.topics"] },
            PropertyPlugin.all⟩ ⟨some topicReference, Tree.root, [Path.root]⟩ 0 .empty).1 = some status ∧
          Keyed.keys entry.properties = ["name"] ∧ Keyed.keys status.properties = ["id"] := by
  have hresolve : topicSetting.document.resolve topicReference = some topic := by rfl
  have hdirect : Direct topic := ⟨rfl, by decide⟩
  have hroot : Path.root ∉ ["$.topics"] := by decide
  obtain ⟨entry, status, _, he, hs, -⟩ := convert_partition hresolve rfl hdirect hroot Tree.root .empty
  have hname : (convert
      { document := topicSetting.document, filters := { readWriteOnly := true, skipped := ["$.topics"] } }
      ⟨some topicReference, Tree.root, [Path.root]⟩ 0 .empty).1.map (Keyed.keys ·.properties) =
        some ["name"] := by
    decide +kernel
  have hid : (convert
      { document := topicSetting.document, filters := { readOnly := true, skipped := ["$.topics"] } }
      ⟨some topicReference, Tree.root, [Path.root]⟩ 0 .empty).1.map (Keyed.keys ·.properties) =
        some ["id"] := by
    decide +kernel
  rw [he] at hname
  rw [hs] at hid
  exact ⟨hresolve, rfl, hdirect, hroot, entry, status, he, hs, Option.some.inj hname, Option.some.inj hid⟩

end Conversion

end CrdForge
