import CrdForge.Crd.Decode
import CrdForge.Proofs.Keyed
import Mathlib.Data.List.Forall2

/-! What the entries of an object are when they are sorted.

Sorting keeps the last entry of each name. Objects that leave entries out
are written from a list of names, and sorting such an object is writing it
from the names in order, so what is found in it stays the same. -/
namespace CrdForge

namespace Keyed
variable {α : Type}

/-! ### Last entries -/

/-- The last entry of a name. -/
def last? (entries : List (String × α)) (name : String) : Option α := entries.reverse.lookup name

@[simp] theorem last?_nil (name : String) : last? ([] : List (String × α)) name = none := rfl

@[simp] theorem last?_append (entries more : List (String × α)) (name : String) :
    last? (entries ++ more) name = (last? more name).or (last? entries name) := by
  rw [last?, List.reverse_append, List.lookup_append]
  rfl

@[simp] theorem last?_cons (key : String) (value : α) (rest : List (String × α)) (name : String) :
    last? ((key, value) :: rest) name = (last? rest name).or (if name = key then some value else none) := by
  rw [last?, List.reverse_cons, List.lookup_append, lookup_cons, List.lookup_nil]
  rfl

theorem last?_map {β : Type} (f : α → β) (entries : List (String × α)) (name : String) :
    last? (entries.map fun (name, a) => (name, f a)) name = (last? entries name).map f := by
  rw [last?, ← List.map_reverse, lookup_map]
  rfl

/-! ### Sorting -/

theorem foldl_insert_sorted {read : List (String × α)} (h : Sorted read) (entries : List (String × α)) :
    Sorted (entries.foldl (fun sorted entry => insert entry.1 entry.2 sorted) read) := by
  induction entries generalizing read with
  | nil => exact h
  | cons entry rest ih => exact ih (h.insert entry.1 entry.2)

theorem sort_sorted (entries : List (String × α)) : Sorted (sort entries) := foldl_insert_sorted .nil entries

theorem lookup_foldl_insert (entries read : List (String × α)) (name : String) :
    (entries.foldl (fun sorted entry => insert entry.1 entry.2 sorted) read).lookup name =
      (last? entries name).or (read.lookup name) := by
  induction entries generalizing read with
  | nil => rfl
  | cons entry rest ih =>
    rw [List.foldl_cons, ih, lookup_insert, last?_cons, Option.or_assoc]
    congr 1
    split <;> rfl

/-- Of several entries of a name the last one is kept. -/
theorem lookup_sort (entries : List (String × α)) (name : String) :
    (sort entries).lookup name = last? entries name := by
  rw [sort, lookup_foldl_insert, List.lookup_nil, Option.or_none]

theorem Sorted.last?_eq {entries : List (String × α)} (h : Sorted entries) (name : String) :
    last? entries name = entries.lookup name := by
  induction entries with
  | nil => rfl
  | cons entry rest ih =>
    obtain ⟨key, value⟩ := entry
    obtain ⟨hfirst, hrest⟩ := List.pairwise_cons.mp h
    rw [last?_cons, ih hrest, lookup_cons]
    split
    · next hn => rw [hn, lookup_eq_none_of_lt hfirst, Option.none_or]
    · rw [Option.or_none]

theorem Sorted.sort_eq {entries : List (String × α)} (h : Sorted entries) : sort entries = entries :=
  (sort_sorted entries).ext h fun name => by rw [lookup_sort, h.last?_eq]

end Keyed

namespace Json

/-! ### Entries that are left out -/

/-- What is written for a list, unless it is empty. -/
def array? (items : List Json) : Option Json := if items.isEmpty then none else some (.array items)

/-- What is written for a map, unless it is empty. -/
def object? (entries : List (String × Json)) : Option Json :=
  if entries.isEmpty then none else some (.object entries)

theorem listed_eq (name : String) (items : List Json) : listed name items = optional name (array? items) := by
  rw [listed, array?]
  split <;> rfl

theorem mapped_eq (name : String) (entries : List (String × Json)) :
    mapped name entries = optional name (object? entries) := by
  rw [mapped, object?]
  split <;> rfl

/-- What is left out when it is not there is found by its name only. -/
@[simp]
theorem filter_optional (key name : String) (value : Option Json) :
    (optional key value).filter (·.1 == name) = if key = name then optional key value else [] := by
  cases value <;> simp [optional, List.filter_cons]

@[simp]
theorem filter_listed (key name : String) (items : List Json) :
    (listed key items).filter (·.1 == name) = if key = name then listed key items else [] := by
  rw [listed_eq, filter_optional]

/-- The entries of some names, without those that have no value. -/
def given (names : List String) (field? : String → Option Json) : List (String × Json) :=
  names.flatMap fun name => optional name (field? name)

@[simp] theorem last?_optional (key name : String) (value : Option Json) :
    Keyed.last? (optional key value) name = if name = key then value else none := by
  cases value <;> simp [optional]

@[simp] theorem last?_listed (key name : String) (items : List Json) :
    Keyed.last? (listed key items) name = if name = key then array? items else none := by
  rw [listed_eq, last?_optional]

@[simp] theorem last?_mapped (key name : String) (entries : List (String × Json)) :
    Keyed.last? (mapped key entries) name = if name = key then object? entries else none := by
  rw [mapped_eq, last?_optional]

theorem last?_given (names : List String) (field? : String → Option Json) (name : String) :
    Keyed.last? (given names field?) name = if name ∈ names then field? name else none := by
  induction names with
  | nil => rfl
  | cons first rest ih =>
    rw [given, List.flatMap_cons, ← given, Keyed.last?_append, last?_optional, ih]
    by_cases hf : name = first
    · subst hf
      cases field? name with
      | none => simp
      | some value =>
        simp only [if_true, List.mem_cons, true_or]
        split <;> rfl
    · simp [hf]

theorem mem_optional {key : String} {value : Option Json} {entry : String × Json}
    (h : entry ∈ optional key value) :
    entry.1 = key := by
  cases value with
  | none => cases h
  | some value => exact congrArg Prod.fst (List.mem_singleton.mp h)

theorem sorted_given {names : List String} (h : names.Pairwise (· < ·)) (field? : String → Option Json) :
    Keyed.Sorted (given names field?) := by
  refine List.pairwise_flatMap.mpr ⟨fun name _ => ?_, h.imp fun hlt entry he other ho => ?_⟩
  · cases field? name <;> simp [optional]
  · rwa [mem_optional he, mem_optional ho]

/-! ### Sorted values -/

theorem sortedItems_eq (items : List Json) : sortedItems items = items.map sorted := by
  induction items with
  | nil => rfl
  | cons item rest ih => rw [sortedItems, ih, List.map_cons]

theorem sortedEntries_eq (entries : List (String × Json)) :
    sortedEntries entries = entries.map fun (name, value) => (name, value.sorted) := by
  induction entries with
  | nil => rfl
  | cons entry rest ih => rw [sortedEntries, ih, List.map_cons, sortedEntry]

/-- A list whose elements are sorted already. -/
theorem sorted_array {items : List Json} (h : ∀ item ∈ items, item.sorted = item) :
    (array items).sorted = .array items := by
  rw [sorted, sortedItems_eq, List.map_congr_left h, List.map_id']

/-- An object in which names stand in order already. -/
theorem sorted_object {entries : List (String × Json)} (h : Keyed.Sorted entries) :
    (object entries).sorted = .object (entries.map fun (name, value) => (name, value.sorted)) := by
  rw [sorted, sortedEntries_eq, (h.map sorted).sort_eq]

theorem get?_sorted (entries : List (String × Json)) (name : String) :
    (object entries).sorted.get? name = (Keyed.last? entries name).map sorted := by
  rw [sorted, get?, Keyed.lookup_sort, sortedEntries_eq, Keyed.last?_map]

/-- An object that is written from a list of names is written from them in order. -/
theorem sorted_object_given {names inOrder : List String} (ho : inOrder.Pairwise (· < ·))
    (hm : ∀ name, name ∈ inOrder ↔ name ∈ names) (field? : String → Option Json) :
    (object (given names field?)).sorted = .object (given inOrder fun name => (field? name).map sorted) := by
  rw [sorted]
  refine congrArg object ((Keyed.sort_sorted _).ext (sorted_given ho _) fun name => ?_)
  rw [Keyed.lookup_sort, sortedEntries_eq, Keyed.last?_map, last?_given,
    ← (sorted_given ho _).last?_eq, last?_given]
  simp only [hm]
  split <;> rfl

theorem sorted_array_map {α : Type} (items : List α) (write : α → Json) :
    (array (items.map write)).sorted = .array (items.map fun item => (write item).sorted) := by
  rw [sorted, sortedItems_eq, List.map_map]
  rfl

/-! ### What is found -/

theorem list?_of_forall₂ {α : Type} {read : Json → Option α} {values : List Json} {items : List α}
    (h : List.Forall₂ (fun value item => read value = some item) values items) :
    list? read (.array values) = some items := by
  show values.mapM read = some items
  induction h with
  | nil => rfl
  | cons hfirst _ ih =>
    rw [List.mapM_cons, hfirst, ih]
    rfl

theorem list?_sorted {α : Type} {read : Json → Option α} {write : α → Json} {items : List α}
    (h : ∀ item ∈ items, read (write item).sorted = some item) :
    list? read (array (items.map write)).sorted = some items := by
  rw [sorted_array_map]
  exact list?_of_forall₂ (List.forall₂_map_left_iff.mpr (List.forall₂_same.mpr h))

theorem withNames_sorted (names : List String) (entries : List (String × Json)) :
    (object entries).sorted.withNames names = (object entries).sorted := rfl

theorem map?_sorted {α : Type} {read : Json → Option α} {write : α → Json} {named : List (String × α)}
    (hs : Keyed.Sorted named) (hr : ∀ entry ∈ named, read (write entry.2).sorted = some entry.2) :
    map? read (object (named.map fun (name, a) => (name, write a))).sorted = some named := by
  suffices (named.map fun (name, a) => (name, (write a).sorted)).mapM
      (fun entry => do return (entry.1, ← read entry.2)) = some named by
    rw [sorted_object (hs.map write), List.map_map]
    exact (congrArg (Option.bind · fun entries => some (Keyed.sort entries)) this).trans
      (congrArg some hs.sort_eq)
  clear hs
  induction named with
  | nil => rfl
  | cons entry rest ih =>
    rw [List.map_cons, List.mapM_cons, hr entry (List.mem_cons_self ..),
      ih fun entry he => hr entry (List.mem_cons_of_mem _ he)]
    rfl

section
variable {α : Type} {entries : List (String × Json)} {name : String} {otherwise a : α}
  {read : Json → Option α}

/-- An entry that is written is read, unless it is null. -/
theorem entry_of_lookup (value : Json) (h : Keyed.last? entries name = some value) (hne : value ≠ .null)
    (hr : read value.sorted = some a) : (object entries).sorted.entry name otherwise read = some a := by
  rw [entry, get?_sorted, h]
  cases value with
  | null => exact absurd rfl hne
  | _ => exact hr

theorem entry_of_missing (h : Keyed.last? entries name = none) :
    (object entries).sorted.entry name otherwise read = some otherwise := by
  rw [entry, get?_sorted, h]
  rfl

theorem entry_text {text otherwise : String} (h : Keyed.last? entries name = some (.string text)) :
    (object entries).sorted.entry name otherwise text? = some text :=
  entry_of_lookup _ h nofun rfl

theorem entry_flag {flag otherwise : Bool} (h : Keyed.last? entries name = some (.bool flag)) :
    (object entries).sorted.entry name otherwise flag? = some flag :=
  entry_of_lookup _ h nofun rfl

/-- A text that is left out when it is not there. -/
theorem entry?_text {text : Option String} (h : Keyed.last? entries name = text.map .string) :
    Json.entry? (object entries).sorted name text? = some text := by
  cases text with
  | none => exact entry_of_missing h
  | some text => exact entry_of_lookup _ h nofun rfl

/-- An object that is left out when it is not there. -/
theorem entry?_object {β : Type} {given : Option β} {write : β → List (String × Json)} {change : β → α}
    (h : Keyed.last? entries name = given.map fun b => object (write b))
    (hr : ∀ b, given = some b → read (object (write b)).sorted = some (change b)) :
    Json.entry? (object entries).sorted name read = some (given.map change) := by
  cases given with
  | none => exact entry_of_missing h
  | some b => exact entry_of_lookup _ h nofun (Option.map_eq_some_iff.mpr ⟨change b, hr b rfl, rfl⟩)

/-- A list that is left out when it is empty. -/
theorem entry_list {items : List α} {write : α → Json}
    (h : Keyed.last? entries name = array? (items.map write))
    (hr : ∀ item ∈ items, read (write item).sorted = some item) :
    (object entries).sorted.entry name [] (list? read) = some items := by
  cases items with
  | nil => exact entry_of_missing h
  | cons first rest => exact entry_of_lookup _ h nofun (list?_sorted hr)

theorem entry_texts {texts : List String} (h : Keyed.last? entries name = array? (texts.map .string)) :
    (object entries).sorted.entry name [] (list? text?) = some texts :=
  entry_list h fun _ _ => rfl

/-- A map that is left out when it is empty, with its names in order. -/
theorem entry_map {named : List (String × α)} {write : α → Json} (hs : Keyed.Sorted named)
    (h : Keyed.last? entries name = object? (named.map fun (name, a) => (name, write a)))
    (hr : ∀ entry ∈ named, read (write entry.2).sorted = some entry.2) :
    (object entries).sorted.entry name [] (map? read) = some named := by
  cases named with
  | nil => exact entry_of_missing h
  | cons first rest => exact entry_of_lookup _ h nofun (map?_sorted hs hr)

end

end Json

end CrdForge
