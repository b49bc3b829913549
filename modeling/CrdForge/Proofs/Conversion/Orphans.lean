import CrdForge.Proofs.Conversion.Entries

/-! Annotations that outlive their schema.

The node of an array's items is linked before it is known whether the items have a conversion, and
branches write to the node of the schema that they belong to, whether or not they are left out
afterwards. What was noted of a secret there stays. `Lost` says where that happens, and nothing else
keeps a secret that is noted from standing in the result (`leads_or_lost`). -/
namespace CrdForge.Conversion

open Extension (Link)

variable {links rest : List Link} {link : Link} {name : String}

/-! ### Secrets that are noted last -/

/-- Whether the last entry about a place or about one above it says of the
place that it refers to a secret. -/
def SecretLast (links : List Link) (entries : List Entry) : Prop :=
  ∃ origin, lastAbove links entries = some (.secret links origin)

theorem lastAbove_append (links : List Link) (first second : List Entry) :
    lastAbove links (first ++ second) = (lastAbove links second).or (lastAbove links first) := by
  rw [lastAbove, List.reverse_append, List.find?_append]
  rfl

theorem secretLast_append {first second : List Entry} :
    SecretLast links (first ++ second) ↔
      SecretLast links second ∨ lastAbove links second = none ∧ SecretLast links first := by
  simp only [SecretLast, lastAbove_append]
  cases lastAbove links second <;> simp

theorem not_secretLast_nil : ¬ SecretLast links [] := by
  rintro ⟨origin, h⟩
  cases h

theorem lastAbove_eq_none {entries : List Entry} :
    lastAbove links entries = none ↔ ∀ entry ∈ entries, entry.isAbove links = false := by
  simp [lastAbove, List.find?_eq_none]

theorem secretLast_flatMap {α : Type} {log : α → List Entry} {xs : List α}
    (h : SecretLast links (xs.flatMap log)) :
    ∃ x ∈ xs, SecretLast links (log x) := by
  induction xs with
  | nil => exact absurd h not_secretLast_nil
  | cons x rest ih =>
    rw [List.flatMap_cons, secretLast_append] at h
    rcases h with h | ⟨-, h⟩
    · obtain ⟨y, hy, h⟩ := ih h
      exact ⟨y, List.mem_cons_of_mem _ hy, h⟩
    · exact ⟨x, List.mem_cons_self .., h⟩

/-! ### Entries of a node below -/

theorem Entry.isAbove_below (entry : Entry) (link : Link) (links : List Link) :
    (entry.below link).isAbove (link :: links) = entry.isAbove links := by
  cases entry <;> simp [Entry.isAbove, Entry.below, Entry.links]

theorem lastAbove_below (link : Link) (links : List Link) (entries : List Entry) :
    lastAbove (link :: links) (entries.map (.below link)) = (lastAbove links entries).map (.below link) := by
  rw [lastAbove, ← List.map_reverse, List.find?_map, lastAbove]
  congr 2
  funext entry
  exact entry.isAbove_below link links

theorem secretLast_below {entries : List Entry} :
    SecretLast links (entries.map (.below link)) ↔
      ∃ rest, links = link :: rest ∧ SecretLast rest entries := by
  constructor
  · rintro ⟨origin, h⟩
    by_cases hl : ∃ rest, links = link :: rest
    · obtain ⟨rest, rfl⟩ := hl
      refine ⟨rest, rfl, origin, ?_⟩
      rw [lastAbove_below, Option.map_eq_some_iff] at h
      obtain ⟨entry, he, hs⟩ := h
      cases entry with
      | listed => cases hs
      | secret place => cases hs; exact he
    · have hn : lastAbove links (entries.map (.below link)) = none := lastAbove_eq_none.mpr fun entry he => by
        obtain ⟨other, -, rfl⟩ := List.mem_map.mp he
        exact Entry.isAbove_below_of_ne fun rest hr => hl ⟨rest, hr⟩
      rw [hn] at h
      cases h
  · rintro ⟨rest, rfl, origin, h⟩
    exact ⟨origin, by rw [lastAbove_below, h]; rfl⟩

/-! ### Entries beyond a chain -/

/-- The entry as it is seen from the start of a chain. -/
def Entry.under (path : List Link) (entry : Entry) : Entry := path.foldr Entry.below entry

theorem map_under_cons (link : Link) (path : List Link) (entries : List Entry) :
    entries.map (Entry.under (link :: path)) = (entries.map (Entry.under path)).map (.below link) := by
  rw [List.map_map]
  rfl

theorem map_under_nil (entries : List Entry) : entries.map (Entry.under []) = entries := List.map_id entries

theorem secretLast_under {path : List Link} {entries : List Entry} :
    SecretLast links (entries.map (.under path)) ↔
      ∃ rest, links = path ++ rest ∧ SecretLast rest entries := by
  induction path generalizing links with
  | nil => simp [map_under_nil]
  | cons link path ih =>
    rw [map_under_cons, secretLast_below]
    constructor
    · rintro ⟨below, rfl, h⟩
      obtain ⟨rest, rfl, hs⟩ := ih.mp h
      exact ⟨rest, rfl, hs⟩
    · rintro ⟨rest, rfl, h⟩
      exact ⟨path ++ rest, rfl, ih.mpr ⟨rest, rfl, h⟩⟩

/-- The log of a node at the end of a chain is replayed on what is said from there on. -/
theorem replay_under (path : List Link) (entries : List Entry) (notes : Extension.Notes) :
    replay (entries.map (.under path)) notes =
      notes.replace (replay entries fun links => notes (path ++ links)) path := by
  induction path generalizing notes with
  | nil => rw [map_under_nil]; rfl
  | cons link path ih =>
    rw [map_under_cons]
    funext links
    cases links with
    | nil => exact replay_below_of_ne (by simp) _ _
    | cons other rest =>
      by_cases ho : other = link
      · subst ho
        rw [replay_below, ih, Extension.Notes.replace_cons, if_pos rfl]
        rfl
      · rw [replay_below_of_ne fun rest he => ho (List.cons.inj he).1,
          Extension.Notes.replace_cons, if_neg ho]

/-! ### Listed properties -/

section
variable {shape : Shape} {log : Logging} {path : List String} {key other : String} {schema : OpenApi.Schema}

theorem secretLast_listed :
    SecretLast links (listedEntries log path key name schema) ↔
      ∃ rest, links = .property name :: rest ∧ SecretLast rest (log schema (path ++ [key])) := by
  have hc : listedEntries log path key name schema =
      [.listed [.property name]] ++ (log schema (path ++ [key])).map (.below (.property name)) := rfl
  rw [hc, secretLast_append, ← secretLast_below]
  refine or_iff_left ?_
  rintro ⟨-, origin, h⟩
  have hm := List.mem_of_find?_eq_some h
  simp at hm

theorem ne_of_lastAbove_listed
    (h : lastAbove (.property name :: rest) (listedEntries log path key other schema) = none) :
    name ≠ other := by
  rintro rfl
  have := lastAbove_eq_none.mp h (.listed [.property name]) (List.mem_cons_self ..)
  simp [Entry.isAbove, Entry.links] at this

theorem propertyEntries_cons (properties : List (String × OpenApi.Schema)) :
    propertyEntries shape log path ((key, schema) :: properties) =
      (match shape schema (path ++ [key]) with
        | some converted => listedEntries log path key (converted.id.getD key) schema
        | none => []) ++ propertyEntries shape log path properties := List.flatMap_cons

theorem propertyShapes_cons (found : Properties) (properties : List (String × OpenApi.Schema)) :
    propertyShapes shape path found ((key, schema) :: properties) =
      propertyShapes shape path (((shape schema (path ++ [key])).map (found.list key)).getD found)
        properties := by
  rw [propertyShapes]
  cases shape schema (path ++ [key]) <;> rfl

/-- A property that is not listed any more keeps what it has. -/
theorem propertyShapes_of_lastAbove {found : Properties} {properties : List (String × OpenApi.Schema)}
    (h : lastAbove (.property name :: rest) (propertyEntries shape log path properties) = none) :
    (propertyShapes shape path found properties).properties.lookup name = found.properties.lookup name := by
  induction properties generalizing found with
  | nil => rfl
  | cons property tail ih =>
    obtain ⟨key, schema⟩ := property
    rw [propertyEntries_cons, lastAbove_append, Option.or_eq_none_iff] at h
    rw [propertyShapes_cons, ih h.1]
    cases hc : shape schema (path ++ [key]) with
    | none => rfl
    | some converted =>
      rw [hc] at h
      have hn := ne_of_lastAbove_listed h.2
      rw [Option.map_some, Option.getD_some, Properties.list, Keyed.lookup_insert, if_neg hn]

/-- A secret that is noted last below a property is noted of the one that is listed. -/
theorem secretLast_properties (found : Properties) {properties : List (String × OpenApi.Schema)}
    (h : SecretLast links (propertyEntries shape log path properties)) :
    ∃ key schema converted rest, (key, schema) ∈ properties ∧ shape schema (path ++ [key]) = some converted ∧
      links = .property (converted.id.getD key) :: rest ∧ SecretLast rest (log schema (path ++ [key])) ∧
      (propertyShapes shape path found properties).properties.lookup (converted.id.getD key) =
        some { converted with id := none } := by
  induction properties generalizing found with
  | nil => exact absurd h not_secretLast_nil
  | cons property tail ih =>
    obtain ⟨key, schema⟩ := property
    rw [propertyEntries_cons, secretLast_append] at h
    rw [propertyShapes_cons]
    rcases h with h | ⟨hn, h⟩
    · obtain ⟨key', schema', converted, rest, hm, hs⟩ := ih _ h
      exact ⟨key', schema', converted, rest, List.mem_cons_of_mem _ hm, hs⟩
    · cases hc : shape schema (path ++ [key]) with
      | none =>
        rw [hc] at h
        exact absurd h not_secretLast_nil
      | some converted =>
        rw [hc] at h
        obtain ⟨rest, rfl, hs⟩ := secretLast_listed.mp h
        refine ⟨key, schema, converted, rest, List.mem_cons_self .., hc, rfl, hs, ?_⟩
        rw [propertyShapes_of_lastAbove hn, Option.map_some, Option.getD_some, Properties.list,
          Keyed.lookup_insert, if_pos rfl]

end

/-! ### Options of a union -/

section
variable {shape : Shape} {log : Logging} {path : List String}

/-- The log of an option, if it is listed. -/
def optionEntriesOf (shape : Shape) (log : Logging) (path : List String)
    (branch : OpenApi.Schema) : List Entry :=
  match branch.reference with
  | none => []
  | some reference =>
    match shape branch (path ++ [optionName reference]) with
    | some _ => listedEntries log path (optionName reference) (optionName reference) branch
    | none => []

theorem optionsEntries_cons (branch : OpenApi.Schema) (branches : List OpenApi.Schema) :
    optionsEntries shape log path (branch :: branches) =
      optionEntriesOf shape log path branch ++ optionsEntries shape log path branches := List.flatMap_cons

/-- What is listed of an option, with its name. -/
def optionOf (shape : Shape) (path : List String) (branch : OpenApi.Schema) : Option (String × Crd.Schema) :=
  branch.reference.bind fun reference =>
    (shape branch (path ++ [optionName reference])).map (optionName reference, ·)

theorem optionShapes_cons (schema : Crd.Schema) (branch : OpenApi.Schema) (branches : List OpenApi.Schema) :
    optionShapes shape path schema (branch :: branches) =
      optionShapes shape path
        (((optionOf shape path branch).map fun (name, converted) => schema.insert name converted).getD schema)
        branches := by
  rw [optionShapes, optionOf]
  cases branch.reference with
  | none => rfl
  | some reference =>
    dsimp only [Option.bind_some]
    cases shape branch (path ++ [optionName reference]) <;> rfl

theorem optionShapes_of_lastAbove {bare : Crd.Schema} {branches : List OpenApi.Schema}
    (h : lastAbove (.property name :: rest) (optionsEntries shape log path branches) = none) :
    (optionShapes shape path bare branches).properties.lookup name = bare.properties.lookup name := by
  induction branches generalizing bare with
  | nil => rfl
  | cons branch tail ih =>
    rw [optionsEntries_cons, lastAbove_append, Option.or_eq_none_iff] at h
    rw [optionShapes_cons, ih h.1]
    have hb := h.2
    rw [optionEntriesOf] at hb
    rw [optionOf]
    cases hr : branch.reference with
    | none => rfl
    | some reference =>
      rw [hr] at hb
      dsimp only [Option.bind_some] at hb ⊢
      cases hc : shape branch (path ++ [optionName reference]) with
      | none => rfl
      | some converted =>
        rw [hc] at hb
        have hn := ne_of_lastAbove_listed hb
        exact (Keyed.lookup_insert ..).trans (if_neg hn)

/-- A secret that is noted last below an option is noted of the one that is listed. -/
theorem secretLast_options (bare : Crd.Schema) {branches : List OpenApi.Schema}
    (h : SecretLast links (optionsEntries shape log path branches)) :
    ∃ branch reference converted rest, branch ∈ branches ∧ branch.reference = some reference ∧
      shape branch (path ++ [optionName reference]) = some converted ∧
      links = .property (optionName reference) :: rest ∧
      SecretLast rest (log branch (path ++ [optionName reference])) ∧
      (optionShapes shape path bare branches).properties.lookup (optionName reference) = some converted := by
  induction branches generalizing bare with
  | nil => exact absurd h not_secretLast_nil
  | cons branch tail ih =>
    rw [optionsEntries_cons, secretLast_append] at h
    rw [optionShapes_cons]
    rcases h with h | ⟨hn, h⟩
    · obtain ⟨branch', reference, converted, rest, hm, hs⟩ := ih _ h
      exact ⟨branch', reference, converted, rest, List.mem_cons_of_mem _ hm, hs⟩
    · rw [optionEntriesOf] at h
      cases hr : branch.reference with
      | none =>
        rw [hr] at h
        exact absurd h not_secretLast_nil
      | some reference =>
        rw [hr] at h
        dsimp only at h
        cases hc : shape branch (path ++ [optionName reference]) with
        | none =>
          rw [hc] at h
          exact absurd h not_secretLast_nil
        | some converted =>
          rw [hc] at h
          obtain ⟨rest, rfl, hs⟩ := secretLast_listed.mp h
          refine ⟨branch, reference, converted, rest, List.mem_cons_self .., hr, hc, rfl, hs, ?_⟩
          rw [optionShapes_of_lastAbove hn, optionOf, hr, Option.bind_some, hc]
          exact (Keyed.lookup_insert ..).trans (if_pos rfl)

end

/-! ### Parts -/

/-- Where a secret that is noted last in the log of the parts is noted. -/
theorem secretLast_parts {shape : Shape} {log : Logging} {path : List String} {source : OpenApi.Schema}
    (h : SecretLast links (partEntries shape log path source)) :
    (∃ other ∈ sharing (isUnion source) source, SecretLast links (log other path)) ∨
      (∃ items rest, source.items = some items ∧ links = .items :: rest ∧
        SecretLast rest (log items (path ++ [Path.wildcard]))) ∨
      SecretLast links (propertyEntries shape log path source.properties) := by
  have hbranches {branches : List OpenApi.Schema} (hs : SecretLast links (branchEntries log path branches)) :
      ∃ other ∈ branches, SecretLast links (log other path) := secretLast_flatMap hs
  have hoption {schema : Option OpenApi.Schema} (hs : SecretLast links (optionEntries log path schema)) :
      ∃ other ∈ schema.toList, SecretLast links (log other path) := secretLast_flatMap hs
  simp only [partEntries, secretLast_append] at h
  rcases h with h | ⟨-, h | ⟨-, h | ⟨-, h | ⟨-, h | ⟨-, h | ⟨-, h⟩⟩⟩⟩⟩⟩
  · obtain ⟨other, hm, hs⟩ := hoption h
    exact .inl ⟨other, mem_sharing.mpr (.inr (.inr (.inr (.inr hm)))), hs⟩
  · obtain ⟨other, hm, hs⟩ := hoption h
    exact .inl ⟨other, mem_sharing.mpr (.inr (.inr (.inr (.inl hm)))), hs⟩
  · exact .inr (.inr h)
  · split at h
    · exact absurd h not_secretLast_nil
    · next hu =>
      obtain ⟨other, hm, hs⟩ := hbranches h
      exact .inl ⟨other, mem_sharing.mpr (.inr (.inl ⟨Bool.eq_false_iff.mpr hu, hm⟩)), hs⟩
  · obtain ⟨other, hm, hs⟩ := hbranches h
    exact .inl ⟨other, mem_sharing.mpr (.inr (.inr (.inl hm))), hs⟩
  · obtain ⟨other, hm, hs⟩ := hbranches h
    exact .inl ⟨other, mem_sharing.mpr (.inl hm), hs⟩
  · rw [itemsEntries] at h
    obtain ⟨items, hi, hb⟩ := secretLast_flatMap h
    obtain ⟨rest, rfl, hs⟩ := secretLast_below.mp hb
    exact .inr (.inl ⟨items, rest, Option.mem_toList.mp hi, rfl, hs⟩)

/-! ### What is lost -/

/-- Where the conversion of a schema notes a secret that does not stand in its result: the schema is left
out, or this happens below it, or the discriminator of a union takes the place of one of its branches. -/
inductive Lost (setting : Setting) : Nat → OpenApi.Schema → List String → List Link → Prop
  | left {depth : Nat} {schema : OpenApi.Schema} {path : List String} {links : List Link} :
    shapeWithin setting depth schema path = none →
      SecretLast links (entriesWithin setting depth schema path) →
    Lost setting depth schema path links
  | items {depth : Nat} {schema source items : OpenApi.Schema} {path : List String} {links : List Link} :
    setting.document.resolve schema = some source → source.items = some items →
    Lost setting depth items (rooted path ++ [Path.wildcard]) links →
    Lost setting (depth + 1) schema path (.items :: links)
  | branch {depth : Nat} {schema source other : OpenApi.Schema} {path : List String} {links : List Link} :
    setting.document.resolve schema = some source → other ∈ sharing false source →
    Lost setting depth other (rooted path) links → Lost setting (depth + 1) schema path links
  | property {depth : Nat} {schema source property : OpenApi.Schema} {converted : Crd.Schema} {key : String}
    {path : List String} {links : List Link} :
    setting.document.resolve schema = some source → (key, property) ∈ source.properties →
    shapeWithin setting depth property (rooted path ++ [key]) = some converted →
    Lost setting depth property (rooted path ++ [key]) links →
    Lost setting (depth + 1) schema path (.property (converted.id.getD key) :: links)
  | option {depth : Nat} {schema source option : OpenApi.Schema} {reference : String} {path : List String}
    {links : List Link} :
    setting.document.resolve schema = some source → option ∈ source.oneOf →
      option.reference = some reference →
    Lost setting depth option (rooted path ++ [optionName reference]) links →
    Lost setting (depth + 1) schema path (.property (optionName reference) :: links)
  | discriminator {depth : Nat} {schema source option : OpenApi.Schema} {reference : String}
    {path : List String}
    {links : List Link} :
    setting.document.resolve schema = some source → isUnion source = true → option ∈ source.oneOf →
    option.reference = some reference → optionName reference = "type" →
    SecretLast links (entriesWithin setting depth option (rooted path ++ ["type"])) →
    Lost setting (depth + 1) schema path (.property "type" :: links)

section
variable {setting : Setting} {shape : Shape} {path : List String}
  {source other : OpenApi.Schema} {leaf : String}
  {result converted : Crd.Schema}

/-- A union whose branches become properties says nothing else of the object. -/
theorem of_tags (h : tags shape path source = true) : isUnion source = true ∧
    (partShapes shape path source).1.properties = [] ∧
      (partShapes shape path source).1.additional = none := by
  simpa [tags, isTagged, and_assoc] using h

theorem mem_sharing_false {tagged : Bool} (h : other ∈ sharing tagged source) :
    other ∈ sharing false source := by
  rw [mem_sharing] at h ⊢
  exact h.imp_right fun h => h.imp_left fun h => ⟨rfl, h.2⟩

theorem Plain.mem_branches (h : Plain shape path source result) (hm : other ∈ Conversion.sharing false source)
    (hs : shape other path = some converted) : converted ∈ result.branches := by
  have hb {branches : List OpenApi.Schema} (hm : other ∈ branches) :
      converted ∈ branchShapes shape path branches :=
    List.mem_filterMap.mpr ⟨other, hm, hs⟩
  rw [Conversion.mem_branches, h.allOf, h.oneOf, h.anyOf, h.not]
  rcases mem_sharing.mp hm with hm | ⟨-, hm⟩ | hm | hm | hm
  · exact .inl (hb hm)
  · exact .inr (.inl (hb hm))
  · exact .inr (.inr (.inl (hb hm)))
  · refine .inr (.inr (.inr (.inl ?_)))
    rw [Option.mem_toList.mp hm, optionShape, Option.bind_some, hs]
    exact List.mem_cons_self ..
  · refine .inr (.inr (.inr (.inr ?_)))
    rw [Crd.Schema.additionalSchema?, h.additional, Option.mem_toList.mp hm, additionalShape,
      Option.map_some, hs]
    exact List.mem_cons_self ..

theorem Tagged.mem_branches (h : Tagged shape path source result) (ht : tags shape path source = true)
    (hm : other ∈ Conversion.sharing true source) (hs : shape other path = some converted) :
    converted ∈ result.branches := by
  have hb {branches : List OpenApi.Schema} (hm : other ∈ branches) :
      converted ∈ branchShapes shape path branches :=
    List.mem_filterMap.mpr ⟨other, hm, hs⟩
  rw [Conversion.mem_branches, h.allOf, h.anyOf, h.not]
  rcases mem_sharing.mp hm with hm | ⟨hf, -⟩ | hm | hm | hm
  · exact .inl (hb hm)
  · cases hf
  · exact .inr (.inr (.inl (hb hm)))
  · refine .inr (.inr (.inr (.inl ?_)))
    rw [Option.mem_toList.mp hm, optionShape, Option.bind_some, hs]
    exact List.mem_cons_self ..
  · have ha : additionalShape shape path source.additionalSchema = none := (of_tags ht).2.2
    rw [Option.mem_toList.mp hm] at ha
    cases ha

end

/-! ### What is not lost -/

/-- Whether the secrets that conversions up to a depth note last stand in their results, or were lost. -/
def LeadOrLost (setting : Setting) (depth : Nat) : Prop :=
  ∀ ⦃schema path result links⦄, shapeWithin setting depth schema path = some result →
    SecretLast links (entriesWithin setting depth schema path) →
    result.Leads links ∨ Lost setting depth schema path links

namespace LeadOrLost
variable {setting : Setting} {depth : Nat} {schema source : OpenApi.Schema} {path : List String}
  {result : Crd.Schema} {leaf : String} (hall : LeadOrLost setting depth)
  (hs : setting.document.resolve schema = some source)
include hall hs

theorem shared {other : OpenApi.Schema} (hm : other ∈ sharing false source)
    (hb : ∀ branch, shapeWithin setting depth other (rooted path) = some branch → branch ∈ result.branches)
    (hl : SecretLast links (entriesWithin setting depth other (rooted path))) :
    result.Leads links ∨ Lost setting (depth + 1) schema path links := by
  cases hc : shapeWithin setting depth other (rooted path) with
  | none => exact .inr (.branch hs hm (.left hc hl))
  | some branch => exact (hall hc hl).imp (.branch (hb branch hc)) (.branch hs hm)

theorem items {items : OpenApi.Schema} (hi : source.items = some items)
    (hb : result.items = itemsShape (shapeWithin setting depth) (rooted path) source.items)
    (hl : SecretLast rest (entriesWithin setting depth items (rooted path ++ [Path.wildcard]))) :
    result.Leads (.items :: rest) ∨ Lost setting (depth + 1) schema path (.items :: rest) := by
  rw [hi, itemsShape, Option.bind_some] at hb
  cases hc : shapeWithin setting depth items (rooted path ++ [Path.wildcard]) with
  | none => exact .inr (.items hs hi (.left hc hl))
  | some below => exact (hall hc hl).imp (.items (hb.trans hc)) (.items hs hi)

variable (hp : setting.plugins = PropertyPlugin.all)
  (hk : keeps (setting.site source (rooted path)) PropertyPlugin.all = true)
  (hl : SecretLast links
    (sourceEntries (shapeWithin setting depth) (entriesWithin setting depth) (rooted path) setting source))
include hp hk hl

/-- What was noted below a secret is concealed, and what the branches of a union add stands in the result. -/
theorem hidden (hsecret : (setting.site source (rooted path)).secret? = some leaf)
    (hc : Hidden (shapeWithin setting depth) (rooted path) source leaf result) :
    result.Leads links ∨ Lost setting (depth + 1) schema path links := by
  rw [sourceEntries_kept hp _ _ _ _ hk, hsecret, secretLast_append, secretLast_append] at hl
  rcases hl with hl | ⟨-, hl | ⟨hn, -⟩⟩
  · simp only [Option.isNone_some, Bool.false_and, Bool.false_eq_true, if_false] at hl
    split at hl
    · next hu =>
      obtain ⟨other, hm, hl⟩ := secretLast_flatMap hl
      refine hall.shared hs (mem_sharing.mpr (.inr (.inl ⟨rfl, hm⟩))) (fun branch hb => ?_) hl
      rw [mem_branches, hc.oneOf, if_pos hu]
      exact .inr (.inl (List.mem_filterMap.mpr ⟨other, hm, hb⟩))
    · exact absurd hl not_secretLast_nil
  · obtain ⟨origin, hl⟩ := hl
    have hm := List.mem_of_find?_eq_some hl
    simp only [Option.isSome_some, if_true, List.reverse_singleton, List.mem_singleton,
      Entry.secret.injEq] at hm
    rw [hm.1]
    exact .inl (Crd.Schema.leads_nil result)
  · have := lastAbove_eq_none.mp hn _ (List.mem_singleton.mpr rfl)
    cases this

/-- A union whose branches become properties loses what was noted of the one
that is named like its discriminator. -/
theorem tagged (hsecret : (setting.site source (rooted path)).secret? = none)
    (ht : tags (shapeWithin setting depth) (rooted path) source = true)
    (hc : Tagged (shapeWithin setting depth) (rooted path) source result) :
    result.Leads links ∨ Lost setting (depth + 1) schema path links := by
  rw [sourceEntries_kept hp _ _ _ _ hk, hsecret, ht, secretLast_append, secretLast_append] at hl
  rcases hl with hl | ⟨-, hl | ⟨-, hl⟩⟩
  · obtain ⟨bare, hbare, hproperties⟩ := hc.properties
    obtain ⟨option, reference, converted, rest, hm, href, hcv, rfl, hl, hlook⟩ := secretLast_options bare hl
    by_cases hname : optionName reference = "type"
    · rw [hname] at hl ⊢
      exact .inr (.discriminator hs (of_tags ht).1 hm href hname hl)
    · have hlook : result.properties.lookup (optionName reference) = some converted := by
        rw [hproperties, Keyed.lookup_insert, if_neg hname, hlook]
      exact (hall hcv hl).imp (.property hlook) (.option hs hm href)
  · exact absurd hl not_secretLast_nil
  · rcases secretLast_parts hl with ⟨other, hm, hl⟩ | ⟨items, rest, hi, rfl, hbelow⟩ | hl
    · rw [(of_tags ht).1] at hm
      exact hall.shared hs (mem_sharing_false hm) (fun _ hb => hc.mem_branches ht hm hb) hl
    · exact hall.items hs hi hc.items hbelow
    · obtain ⟨_, _, _, _, _, _, _, _, hlook⟩ := secretLast_properties {} hl
      have hproperties :
        (propertyShapes (shapeWithin setting depth) (rooted path) {} source.properties).properties =
        [] := (of_tags ht).2.1
      rw [hproperties] at hlook
      cases hlook

theorem plain (hsecret : (setting.site source (rooted path)).secret? = none)
    (ht : tags (shapeWithin setting depth) (rooted path) source = false)
    (hc : Plain (shapeWithin setting depth) (rooted path) source result) :
    result.Leads links ∨ Lost setting (depth + 1) schema path links := by
  have hshared {other : OpenApi.Schema} (hm : other ∈ sharing false source)
      (hl : SecretLast links (entriesWithin setting depth other (rooted path))) :
      result.Leads links ∨ Lost setting (depth + 1) schema path links :=
    hall.shared hs hm (fun _ hb => hc.mem_branches hm hb) hl
  rw [sourceEntries_kept hp _ _ _ _ hk, hsecret, ht, secretLast_append, secretLast_append] at hl
  rcases hl with hl | ⟨-, hl | ⟨-, hl⟩⟩
  · simp only [Option.isNone_none, Bool.and_false, Bool.false_eq_true, if_false] at hl
    split at hl
    · obtain ⟨other, hm, hl⟩ := secretLast_flatMap hl
      exact hshared (mem_sharing.mpr (.inr (.inl ⟨rfl, hm⟩))) hl
    · exact absurd hl not_secretLast_nil
  · exact absurd hl not_secretLast_nil
  · rcases secretLast_parts hl with ⟨other, hm, hl⟩ | ⟨items, rest, hi, rfl, hbelow⟩ | hl
    · exact hshared (mem_sharing_false hm) hl
    · exact hall.items hs hi hc.items hbelow
    · obtain ⟨key, property, converted, rest, hm, hcv, rfl, hl, hlook⟩ := secretLast_properties {} hl
      rw [← hc.properties] at hlook
      refine (hall hcv hl).imp (fun h => .property hlook ?_) (.property hs hm hcv)
      exact h.congr rfl rfl rfl

end LeadOrLost

/-- **A secret that is noted last stands in the result, or was lost.** -/
theorem leads_or_lost {setting : Setting} (hp : setting.plugins = PropertyPlugin.all) (depth : Nat) :
    LeadOrLost setting depth := by
  induction depth with
  | zero => exact fun _ _ _ _ hr => nomatch hr
  | succ depth ih =>
    intro schema path result links hr hl
    obtain ⟨source, hs, hk, hc⟩ := shape_cases hp hr
    rw [entriesWithin, hs] at hl
    rcases hc with ⟨leaf, hsecret, hc⟩ | ⟨hsecret, ⟨ht, hc⟩ | ⟨ht, hc⟩⟩
    · exact ih.hidden hs hp hk hl hsecret hc
    · exact ih.tagged hs hp hk hl hsecret ht hc
    · exact ih.plain hs hp hk hl hsecret ht hc

end CrdForge.Conversion
