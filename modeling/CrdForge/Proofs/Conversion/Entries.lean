import CrdForge.Proofs.Conversion.Results
import CrdForge.Proofs.Conversion.Telling
import CrdForge.Proofs.Crd.Places

/-! The log of a conversion.

In its order, a conversion lists properties and says of places that they refer to secrets. A property
that is listed takes the place of all that was said under its name, by whichever of the schemas that
share the node. So what is said at a place in the end is up to the last entry at the place or above it
(`said_replay`), and the notes of a conversion are its log replayed (`notesWithin_eq_replay`). -/
namespace CrdForge.Conversion

open Extension (Link Notes)

/-- What a conversion does to the notes. -/
inductive Entry where
  /-- Puts the node of a property in the place of the one that was there. -/
  | listed (links : List Link)
  /-- Says that a place refers to a secret, and nothing below it. -/
  | secret (links : List Link) (origin : Json)

namespace Entry

/-- The place of an entry. -/
def links : Entry → List Link
  | .listed links => links
  | .secret links _ => links

/-- The entry as it is seen from the node above. -/
def below (link : Link) : Entry → Entry
  | .listed links => .listed (link :: links)
  | .secret links origin => .secret (link :: links) origin

/-- Whether an entry is about a place, or about one above it. -/
def isAbove (links : List Link) (entry : Entry) : Bool := entry.links.isPrefixOf links

/-- What is said at a place by the last entry about it or about one above it. -/
def noted (links : List Link) (before : List (String × Json)) : Entry → List (String × Json)
  | .listed _ => []
  | .secret place origin =>
    if place = links then
      Keyed.insert Extension.apiMapping origin (Keyed.insert Extension.clusterMapping secretMapping before)
    else []

def apply (notes : Notes) (entry : Entry) : Notes := fun links =>
  if entry.isAbove links then entry.noted links (notes links) else notes links

end Entry

/-- The notes after all entries of a log. -/
def replay (entries : List Entry) (notes : Notes) : Notes := entries.foldl Entry.apply notes

/-- The last entry of a log about a place or about one above it. -/
def lastAbove (links : List Link) (entries : List Entry) : Option Entry :=
  entries.reverse.find? (Entry.isAbove links)

/-! ### Logs of conversions -/

/-- The log of the conversion of a schema at a path. -/
abbrev Logging := OpenApi.Schema → List String → List Entry

section Parts
variable (shape : Shape) (log : Logging) (path : List String)

def optionEntries (schema : Option OpenApi.Schema) : List Entry := schema.toList.flatMap (log · path)

def branchEntries (branches : List OpenApi.Schema) : List Entry := branches.flatMap (log · path)

def itemsEntries (items : Option OpenApi.Schema) : List Entry :=
  items.toList.flatMap fun items => (log items (path ++ [Path.wildcard])).map (.below .items)

/-- A property that is listed, with the log of its conversion. -/
def listedEntries (key name : String) (schema : OpenApi.Schema) : List Entry :=
  .listed [.property name] :: (log schema (path ++ [key])).map (.below (.property name))

def propertyEntries (properties : List (String × OpenApi.Schema)) : List Entry :=
  properties.flatMap fun (key, schema) =>
    match shape schema (path ++ [key]) with
    | some converted => listedEntries log path key (converted.id.getD key) schema
    | none => []

def optionsEntries (branches : List OpenApi.Schema) : List Entry :=
  branches.flatMap fun branch =>
    match branch.reference with
    | none => []
    | some reference =>
      match shape branch (path ++ [optionName reference]) with
      | some _ => listedEntries log path (optionName reference) (optionName reference) branch
      | none => []

def partEntries (source : OpenApi.Schema) : List Entry :=
  itemsEntries log path source.items ++ branchEntries log path source.allOf ++
    branchEntries log path source.anyOf ++
    (if isUnion source then [] else branchEntries log path source.oneOf) ++
    propertyEntries shape log path source.properties ++ optionEntries log path source.not ++
    optionEntries log path source.additionalSchema

def unionEntries (source : OpenApi.Schema) (schema : Crd.Schema) : List Entry :=
  if isTagged source schema then optionsEntries shape log path source.oneOf
  else if isUnion source then branchEntries log path source.oneOf
  else []

def sourceEntries (setting : Setting) (source : OpenApi.Schema) : List Entry :=
  let site := setting.site source path
  let told := concealing site (· ++ [.secret [] (secretOrigin site)]) setting.plugins
    (partEntries shape log path source)
  match outcome site setting.plugins (partShapes shape path source).1 with
  | some kept => told ++ unionEntries shape log path source (settle source kept)
  | none => told

end Parts

/-- The log of a conversion with no more schemas nested in each other than the second argument says. -/
def entriesWithin (setting : Setting) : Nat → Logging
  | 0, _, _ => []
  | depth + 1, schema, path =>
    match setting.document.resolve schema with
    | some source =>
      sourceEntries (shapeWithin setting depth) (entriesWithin setting depth) (rooted path) setting source
    | none => []

/-! ### Replays -/

theorem replay_append (first second : List Entry) (notes : Notes) :
    replay (first ++ second) notes = replay second (replay first notes) := List.foldl_append

/-- **What is said at a place is up to the last entry about it or about one above it.** -/
theorem said_replay (entries : List Entry) (notes : Notes) (links : List Link) :
    ∃ before, replay entries notes links =
      ((lastAbove links entries).map (Entry.noted links before)).getD (notes links) := by
  induction entries using List.reverseRecOn with
  | nil => exact ⟨[], rfl⟩
  | append_singleton entries entry ih =>
    rw [replay_append, lastAbove, List.reverse_append]
    show ∃ before, entry.apply (replay entries notes) links = _
    by_cases h : entry.isAbove links = true
    · refine ⟨replay entries notes links, ?_⟩
      simp [Entry.apply, h]
    · obtain ⟨before, hb⟩ := ih
      refine ⟨before, ?_⟩
      simp [Entry.apply, h, hb, lastAbove]

theorem lastAbove_eq_some {links : List Link} {entries : List Entry} {entry : Entry} :
    lastAbove links entries = some entry ↔ entry.isAbove links = true ∧
      ∃ before later, entries = before ++ entry :: later ∧ ∀ other ∈ later, other.isAbove links = false := by
  rw [lastAbove, List.find?_eq_some_iff_append]
  refine and_congr_right fun _ => ⟨?_, ?_⟩
  · rintro ⟨later, before, he, hl⟩
    refine ⟨before.reverse, later.reverse, ?_, fun other h => by simpa using hl other (List.mem_reverse.mp h)⟩
    simpa using congrArg List.reverse he
  · rintro ⟨before, later, he, hl⟩
    exact ⟨later.reverse,
      before.reverse, by simp [he], fun other h => by simp [hl other (List.mem_reverse.mp h)]⟩

theorem Entry.apply_below (entry : Entry) (link : Link) (notes : Notes) :
    (fun links => (entry.below link).apply notes (link :: links)) =
      entry.apply fun links => notes (link :: links) := by
  funext links
  cases entry <;> simp [Entry.apply, Entry.isAbove, Entry.links, Entry.below, Entry.noted]

theorem Entry.isAbove_below_of_ne {entry : Entry} {link : Link} {links : List Link}
    (h : ∀ rest, links ≠ link :: rest) : (entry.below link).isAbove links = false := by
  cases links with
  | nil => cases entry <;> rfl
  | cons other rest =>
    have hn : (link == other) = false := beq_eq_false_iff_ne.mpr fun he => h rest (by rw [he])
    cases entry <;> simp [Entry.isAbove, Entry.links, Entry.below, List.isPrefixOf, hn]

theorem Entry.apply_below_of_ne {entry : Entry} {link : Link} {links : List Link}
    (h : ∀ rest, links ≠ link :: rest) (notes : Notes) :
    (entry.below link).apply notes links = notes links := by
  rw [Entry.apply, Entry.isAbove_below_of_ne h]
  rfl

/-- The log of a node below is replayed on what is said from there on. -/
theorem replay_below (link : Link) (entries : List Entry) (notes : Notes) (links : List Link) :
    replay (entries.map (.below link)) notes (link :: links) =
      replay entries (fun links => notes (link :: links)) links := by
  induction entries generalizing notes with
  | nil => rfl
  | cons entry rest ih =>
    show replay (rest.map (.below link)) ((entry.below link).apply notes) (link :: links) = _
    rw [ih, entry.apply_below link notes]
    rfl

theorem replay_below_of_ne {link : Link} {links : List Link} (h : ∀ rest, links ≠ link :: rest)
    (entries : List Entry) (notes : Notes) :
    replay (entries.map (.below link)) notes links = notes links := by
  induction entries generalizing notes with
  | nil => rfl
  | cons entry rest ih =>
    show replay (rest.map (.below link)) ((entry.below link).apply notes) links = _
    rw [ih, Entry.apply_below_of_ne h]

theorem replay_items (entries : List Entry) (notes : Notes) :
    replay (entries.map (.below .items)) notes = notes.onItems (replay entries) := by
  funext links
  match links with
  | .items :: links => exact replay_below .items entries notes links
  | [] => exact replay_below_of_ne (by simp) entries notes
  | .property name :: links => exact replay_below_of_ne (by simp) entries notes

theorem replay_listed (log : Logging) (path : List String) (key name : String) (schema : OpenApi.Schema)
    (notes : Notes) :
    replay (listedEntries log path key name schema) notes =
      notes.attach name (replay (log schema (path ++ [key])) .none) := by
  have hc : (Entry.listed [.property name]).apply notes = notes.attach name .none := by
    funext links
    match links with
    | [] => rfl
    | .items :: links => simp [Entry.apply, Entry.isAbove, Entry.links, Notes.attach]
    | .property other :: links =>
      by_cases h : name = other
      · simp [Entry.apply, Entry.isAbove, Entry.links, Entry.noted, Notes.attach, Notes.none, h]
      · simp [Entry.apply, Entry.isAbove, Entry.links, Notes.attach, h, Ne.symm h]
  show replay ((log schema (path ++ [key])).map (.below (.property name)))
    ((Entry.listed [.property name]).apply notes) = _
  rw [hc]
  funext links
  match links with
  | [] => exact replay_below_of_ne (by simp) _ _
  | .items :: links => exact replay_below_of_ne (by simp) _ _
  | .property other :: links =>
    by_cases h : other = name
    · rw [h, replay_below]
      simp [Notes.attach]
    · rw [replay_below_of_ne (by simpa using h)]
      simp [Notes.attach, h]

theorem replay_secret (site : Site) (entries : List Entry) (notes : Notes) :
    replay (entries ++ [.secret [] (secretOrigin site)]) notes =
      site.concealNotes (replay entries notes) := by
  rw [replay_append]
  funext links
  cases links <;> rfl

theorem concealing_replay (site : Site) (plugins : List PropertyPlugin)
    (entries : List Entry) (notes : Notes) :
    concealing site site.concealNotes plugins (replay entries notes) =
      replay (concealing site (· ++ [.secret [] (secretOrigin site)]) plugins entries) notes := by
  induction plugins generalizing entries with
  | nil => rfl
  | cons plugin rest ih =>
    have hc : (if plugin.conceals site then site.concealNotes (replay entries notes)
      else replay entries notes) =
        replay (if plugin.conceals site then entries ++ [.secret [] (secretOrigin site)]
          else entries) notes := by
      split
      · exact (replay_secret site entries notes).symm
      · rfl
    rw [concealing, concealing, hc]
    split
    · rfl
    · exact ih _

/-! ### Logs of schemas that are kept -/

section
variable {setting : Setting} (hp : setting.plugins = PropertyPlugin.all) (shape : Shape) (log : Logging)
  (path : List String) (source : OpenApi.Schema)
include hp

/-- The log of a schema that is kept: its parts, what is said of it if it becomes a reference to a secret, and
the branches of a union. -/
theorem sourceEntries_kept (hk : keeps (setting.site source path) PropertyPlugin.all = true) :
    sourceEntries shape log path setting source =
      partEntries shape log path source ++
        (if (setting.site source path).secret?.isSome then
          [.secret [] (secretOrigin (setting.site source path))]
          else []) ++
        (if (setting.site source path).secret?.isNone && tags shape path source then
            optionsEntries shape log path source.oneOf
          else if isUnion source then branchEntries log path source.oneOf else []) := by
  have ho := outcome_isSome (setting.site source path) PropertyPlugin.all (partShapes shape path source).1
  rw [hk] at ho
  obtain ⟨kept, ho⟩ := Option.isSome_iff_exists.mp ho
  rw [sourceEntries, hp, ho, concealing_all, hk, Bool.true_and]
  dsimp only
  rw [unionEntries, isTagged_kept ho]
  cases (setting.site source path).secret?.isSome <;> simp

variable (hk : keeps (setting.site source path) PropertyPlugin.all = true) {entry : Entry}
include hk

theorem mem_sourceEntries_of_secret (hs : (setting.site source path).secret?.isSome) :
    .secret [] (secretOrigin (setting.site source path)) ∈ sourceEntries shape log path setting source := by
  simp [sourceEntries_kept hp shape log path source hk, hs]

theorem mem_sourceEntries_of_part (h : entry ∈ partEntries shape log path source) :
    entry ∈ sourceEntries shape log path setting source := by
  rw [sourceEntries_kept hp shape log path source hk]
  exact List.mem_append_left _ (List.mem_append_left _ h)

theorem mem_sourceEntries_of_sharing {schema : OpenApi.Schema}
    (hs : schema ∈ sharing ((setting.site source path).secret?.isNone && tags shape path source) source)
    (h : entry ∈ log schema path) : entry ∈ sourceEntries shape log path setting source := by
  have hb {branches : List OpenApi.Schema} (hm : schema ∈ branches) :
      entry ∈ branchEntries log path branches :=
    List.mem_flatMap.mpr ⟨schema, hm, h⟩
  have ho {schema? : Option OpenApi.Schema} (hm : schema ∈ schema?.toList) :
      entry ∈ optionEntries log path schema? := List.mem_flatMap.mpr ⟨schema, hm, h⟩
  rcases mem_sharing.mp hs with hm | ⟨ht, hm⟩ | hm | hm | hm
  · exact mem_sourceEntries_of_part hp shape log path source hk (by simp [partEntries, hb hm])
  · by_cases hu : isUnion source = true
    · simp [sourceEntries_kept hp shape log path source hk, ht, hu, hb hm]
    · exact mem_sourceEntries_of_part hp shape log path source hk (by simp [partEntries, hu, hb hm])
  · exact mem_sourceEntries_of_part hp shape log path source hk (by simp [partEntries, hb hm])
  · exact mem_sourceEntries_of_part hp shape log path source hk (by simp [partEntries, ho hm])
  · exact mem_sourceEntries_of_part hp shape log path source hk (by simp [partEntries, ho hm])

theorem mem_sourceEntries_of_items {items : OpenApi.Schema} (hi : source.items = some items)
    (h : entry ∈ log items (path ++ [Path.wildcard])) :
    entry.below .items ∈ sourceEntries shape log path setting source := by
  refine mem_sourceEntries_of_part hp shape log path source hk ?_
  simp only [partEntries, itemsEntries, hi, Option.toList_some, List.flatMap_singleton, List.append_assoc]
  exact List.mem_append_left _ (List.mem_map_of_mem h)

theorem mem_sourceEntries_of_property {key : String} {schema : OpenApi.Schema} {converted : Crd.Schema}
    (hm : (key, schema) ∈ source.properties) (hc : shape schema (path ++ [key]) = some converted)
    (h : entry ∈ log schema (path ++ [key])) :
    entry.below (.property (converted.id.getD key)) ∈ sourceEntries shape log path setting source := by
  have hl : entry.below (.property (converted.id.getD key)) ∈
      propertyEntries shape log path source.properties := by
    refine List.mem_flatMap.mpr ⟨(key, schema), hm, ?_⟩
    simp only [hc]
    exact List.mem_cons_of_mem _ (List.mem_map_of_mem h)
  exact mem_sourceEntries_of_part hp shape log path source hk (by simp [partEntries, hl])

theorem mem_sourceEntries_of_option {branch : OpenApi.Schema} {reference : String} {converted : Crd.Schema}
    (ht : ((setting.site source path).secret?.isNone && tags shape path source) = true)
    (hm : branch ∈ source.oneOf) (hr : branch.reference = some reference)
    (hc : shape branch (path ++ [optionName reference]) = some converted)
    (h : entry ∈ log branch (path ++ [optionName reference])) :
    entry.below (.property (optionName reference)) ∈ sourceEntries shape log path setting source := by
  have hl : entry.below (.property (optionName reference)) ∈ optionsEntries shape log path source.oneOf := by
    refine List.mem_flatMap.mpr ⟨branch, hm, ?_⟩
    simp only [hr, hc]
    exact List.mem_cons_of_mem _ (List.mem_map_of_mem h)
  rw [sourceEntries_kept hp shape log path source hk, if_pos ht]
  exact List.mem_append_right _ hl

end

/-! ### Notes are replays -/

/-- What is told of every schema is its log, replayed. -/
def Replays (tell : Telling) (log : Logging) : Prop :=
  ∀ schema path notes, tell schema path notes = replay (log schema path) notes

namespace Replays
variable {tell : Telling} {log : Logging} (h : Replays tell log) (shape : Shape) (path : List String)
include h

theorem option (schema : Option OpenApi.Schema) (notes : Notes) :
    optionNotes tell path schema notes = replay (optionEntries log path schema) notes := by
  cases schema with
  | none => rfl
  | some schema => simp [optionNotes, optionEntries, h schema path notes]

theorem branches (branches : List OpenApi.Schema) (notes : Notes) :
    branchNotes tell path branches notes = replay (branchEntries log path branches) notes := by
  induction branches generalizing notes with
  | nil => rfl
  | cons branch rest ih =>
    have hc : branchEntries log path (branch :: rest) = log branch path ++ branchEntries log path rest :=
      List.flatMap_cons
    rw [hc, replay_append, ← ih, ← h branch path notes]
    rfl

theorem items (items : Option OpenApi.Schema) (notes : Notes) :
    itemsNotes tell path items notes = replay (itemsEntries log path items) notes := by
  cases items with
  | none => rfl
  | some items =>
    simp only [itemsNotes, itemsEntries, Option.toList_some, List.flatMap_singleton, replay_items]
    congr 1
    funext notes
    exact h items _ notes

theorem properties (properties : List (String × OpenApi.Schema)) (notes : Notes) :
    propertyNotes shape tell path notes properties =
      replay (propertyEntries shape log path properties) notes := by
  induction properties generalizing notes with
  | nil => rfl
  | cons property rest ih =>
    obtain ⟨key, schema⟩ := property
    have hc : propertyEntries shape log path ((key, schema) :: rest) =
        (match shape schema (path ++ [key]) with
          | some converted => listedEntries log path key (converted.id.getD key) schema
          | none => []) ++ propertyEntries shape log path rest := List.flatMap_cons
    rw [propertyNotes, hc, replay_append]
    cases shape schema (path ++ [key]) with
    | none => exact ih notes
    | some converted =>
      dsimp only
      rw [replay_listed, ih, h schema (path ++ [key]) .none]

theorem options (branches : List OpenApi.Schema) (notes : Notes) :
    optionsNotes shape tell path notes branches = replay (optionsEntries shape log path branches) notes := by
  induction branches generalizing notes with
  | nil => rfl
  | cons branch rest ih =>
    have hc : optionsEntries shape log path (branch :: rest) =
        (match branch.reference with
          | none => []
          | some reference =>
            match shape branch (path ++ [optionName reference]) with
            | some _ => listedEntries log path (optionName reference) (optionName reference) branch
            | none => []) ++ optionsEntries shape log path rest := List.flatMap_cons
    rw [optionsNotes, hc, replay_append]
    cases branch.reference with
    | none => exact ih notes
    | some reference =>
      dsimp only
      cases shape branch (path ++ [optionName reference]) with
      | none => exact ih notes
      | some converted =>
        dsimp only
        rw [replay_listed, ih, h branch (path ++ [optionName reference]) .none]

theorem parts (source : OpenApi.Schema) (notes : Notes) :
    partNotes shape tell path source notes = replay (partEntries shape log path source) notes := by
  simp only [partNotes, partEntries, replay_append, h.items, h.branches, h.properties shape, h.option]
  cases isUnion source <;> rfl

theorem union (source : OpenApi.Schema) (schema : Crd.Schema) (notes : Notes) :
    unionNotes shape tell path source schema notes =
      replay (unionEntries shape log path source schema) notes := by
  simp only [unionNotes, unionEntries]
  split
  · exact h.options shape path _ notes
  · split
    · exact h.branches path _ notes
    · rfl

theorem source (setting : Setting) (source : OpenApi.Schema) (notes : Notes) :
    sourceNotes shape tell path setting source notes =
      replay (sourceEntries shape log path setting source) notes := by
  rw [sourceNotes, sourceEntries, h.parts shape, concealing_replay]
  cases outcome (setting.site source path) setting.plugins (partShapes shape path source).1 with
  | none => rfl
  | some kept =>
    dsimp only
    rw [replay_append, h.union shape]

end Replays

/-- **What a conversion says is its log, replayed.** -/
theorem notesWithin_eq_replay (setting : Setting) (depth : Nat) :
    Replays (notesWithin setting depth) (entriesWithin setting depth) := by
  induction depth with
  | zero =>
    intro schema path notes
    rfl
  | succ depth ih =>
    intro schema path notes
    rw [notesWithin, entriesWithin]
    cases setting.document.resolve schema with
    | none => rfl
    | some source => exact ih.source _ _ setting source notes

/-! ### Origins -/

/-- Whether an entry says what secrets come from, or nothing. -/
def Entry.OfSecret : Entry → Prop
  | .listed _ => True
  | .secret _ origin => ∃ site, origin = secretOrigin site

@[simp] theorem Entry.ofSecret_below (entry : Entry) (link : Link) :
    (entry.below link).OfSecret ↔ entry.OfSecret := by
  cases entry <;> rfl

/-- Whether the log of every schema says what secrets come from, and nothing else. -/
def Secretive (log : Logging) : Prop := ∀ schema path, ∀ entry ∈ log schema path, entry.OfSecret

theorem mem_concealing {site : Site} {added : Entry} (plugins : List PropertyPlugin) {entries : List Entry}
    {entry : Entry} (h : entry ∈ concealing site (· ++ [added]) plugins entries) :
    entry ∈ entries ∨ entry = added := by
  induction plugins generalizing entries with
  | nil => exact .inl h
  | cons plugin rest ih =>
    have hfirst : entry ∈ (if plugin.conceals site then entries ++ [added] else entries) →
        entry ∈ entries ∨ entry = added := by
      split
      · simp
      · exact .inl
    rw [concealing] at h
    split at h
    · exact hfirst h
    · rcases ih h with h | h
      · exact hfirst h
      · exact .inr h

namespace Secretive
variable {log : Logging} (h : Secretive log) (shape : Shape) (path : List String) {entry : Entry}
include h

theorem listed {key name : String} {schema : OpenApi.Schema}
    (hm : entry ∈ listedEntries log path key name schema) :
    entry.OfSecret := by
  rcases List.mem_cons.mp hm with rfl | hm
  · trivial
  · obtain ⟨below, hb, rfl⟩ := List.mem_map.mp hm
    exact (below.ofSecret_below _).mpr (h _ _ _ hb)

theorem branches {branches : List OpenApi.Schema} (hm : entry ∈ branchEntries log path branches) :
    entry.OfSecret := by
  obtain ⟨branch, -, hm⟩ := List.mem_flatMap.mp hm
  exact h _ _ _ hm

theorem options {branches : List OpenApi.Schema} (hm : entry ∈ optionsEntries shape log path branches) :
    entry.OfSecret := by
  obtain ⟨branch, -, hm⟩ := List.mem_flatMap.mp hm
  split at hm
  · cases hm
  · split at hm
    · exact h.listed path hm
    · cases hm

theorem parts {source : OpenApi.Schema} (hm : entry ∈ partEntries shape log path source) :
    entry.OfSecret := by
  have hone {schema : Option OpenApi.Schema} (hm : entry ∈ optionEntries log path schema) :
      entry.OfSecret := by
    obtain ⟨schema, -, hm⟩ := List.mem_flatMap.mp hm
    exact h _ _ _ hm
  simp only [partEntries, List.mem_append] at hm
  rcases hm with (((((hm | hm) | hm) | hm) | hm) | hm) | hm
  · obtain ⟨items, -, hm⟩ := List.mem_flatMap.mp hm
    obtain ⟨below, hb, rfl⟩ := List.mem_map.mp hm
    exact (below.ofSecret_below _).mpr (h _ _ _ hb)
  · exact h.branches path hm
  · exact h.branches path hm
  · split at hm
    · cases hm
    · exact h.branches path hm
  · obtain ⟨⟨key, schema⟩, -, hm⟩ := List.mem_flatMap.mp hm
    dsimp only at hm
    split at hm
    · exact h.listed path hm
    · cases hm
  · exact hone hm
  · exact hone hm

theorem source (setting : Setting) {source : OpenApi.Schema}
    (hm : entry ∈ sourceEntries shape log path setting source) : entry.OfSecret := by
  have htold (hm : entry ∈ concealing (setting.site source path)
      (· ++ [.secret [] (secretOrigin (setting.site source path))]) setting.plugins
        (partEntries shape log path source)) : entry.OfSecret := by
    rcases mem_concealing _ hm with hm | rfl
    · exact h.parts shape path hm
    · exact ⟨_, rfl⟩
  rw [sourceEntries] at hm
  split at hm
  · rcases List.mem_append.mp hm with hm | hm
    · exact htold hm
    · rw [unionEntries] at hm
      split at hm
      · exact h.options shape path hm
      · split at hm
        · exact h.branches path hm
        · cases hm
  · exact htold hm

end Secretive

/-- **A conversion says nothing but what secrets come from.** -/
theorem entriesWithin_secretive (setting : Setting) (depth : Nat) :
    Secretive (entriesWithin setting depth) := by
  induction depth with
  | zero => exact fun _ _ _ hm => nomatch hm
  | succ depth ih =>
    intro schema path entry hm
    rw [entriesWithin] at hm
    split at hm
    · exact ih.source _ _ setting hm
    · cases hm

end CrdForge.Conversion
