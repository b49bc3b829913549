import Mathlib.Data.List.Nodup
import CrdForge.Proofs.OpenApi.VendorKey

/-! The order of what is left of a value without a vendor's key.

An entry that is taken out leaves its place to the last one of its mapping. So nothing but the entries of
the key is lost, but what is left has another order than it would have if the key had never been written,
unless the key is the last or the next to last one wherever it occurs (`withoutKey_order`). -/
namespace CrdForge.OpenApi

open Yaml (Value)

/-! ### Entries dropped in place -/

mutual
/-- The value with the entries of the key dropped and all others in the order they had. -/
def cleared (key : String) : Value → Value
  | .sequence items => .sequence (clearedItems key items)
  | .mapping entries => .mapping (clearedEntries key entries)
  | .tagged tag value => .tagged tag (cleared key value)
  | value => value
termination_by structural x => x

def clearedItems (key : String) : List Value → List Value
  | [] => []
  | item :: rest => cleared key item :: clearedItems key rest
termination_by structural x => x

def clearedEntries (key : String) : List (Value × Value) → List (Value × Value)
  | [] => []
  | entry :: rest =>
    if isKey key entry.1 then clearedEntries key rest else clearedEntry key entry :: clearedEntries key rest
termination_by structural x => x

def clearedEntry (key : String) : Value × Value → Value × Value
  | (name, value) => (name, cleared key value)
termination_by structural x => x
end

theorem clearedItems_eq (key : String) (items : List Value) :
    clearedItems key items = items.map (cleared key) := by
  induction items with
  | nil => rfl
  | cons item rest ih => rw [clearedItems, ih, List.map_cons]

/-- The entries that do not have the key. -/
def otherEntries (key : String) (entries : List (Value × Value)) : List (Value × Value) :=
  entries.filter fun entry => !isKey key entry.1

theorem clearedEntries_eq (key : String) (entries : List (Value × Value)) :
    clearedEntries key entries = (otherEntries key entries).map fun entry =>
      (entry.1, cleared key entry.2) := by
  induction entries with
  | nil => rfl
  | cons entry rest ih =>
    rw [clearedEntries, ih]
    by_cases hkey : isKey key entry.1 = true
    · rw [if_pos hkey, otherEntries, otherEntries, List.filter_cons_of_neg (by simp [hkey])]
    · rw [if_neg hkey, otherEntries, otherEntries, List.filter_cons_of_pos (by simp [hkey]),
        List.map_cons, clearedEntry]

/-! ### The place of the last element -/

section
variable {α : Type} {test : α → Bool} {items : List α}

/-- The last of several different elements is not the first. -/
theorem getLast?_append_dropLast_eq_iff (hn : items.Nodup) :
    items.getLast?.toList ++ items.dropLast = items ↔ items.length ≤ 1 := by
  obtain rfl | ⟨front, last, rfl⟩ := items.eq_nil_or_concat
  · simp
  · rw [List.concat_eq_append] at hn ⊢
    rw [List.getLast?_concat, List.dropLast_concat]
    cases front with
    | nil => simp
    | cons first rest =>
      have hne : last ≠ first := fun he => by simp [he] at hn
      simp [hne]

/-- The order stays exactly if the element that is removed is the last or the next to last one. -/
theorem swapRemove_eq_filter_iff (hp : items.Pairwise fun a b => test a = true → test b = false)
    (hn : items.Nodup) : swapRemove test items = items.filter (fun x => !test x) ↔
      ∀ before first after, items = before ++ first :: after → test first = true → after.length ≤ 1 := by
  have hplace {before after : List α} {first : α} (he : items = before ++ first :: after)
    (hf : test first = true) :
      swapRemove test items = items.filter (fun x => !test x) ↔ after.length ≤ 1 := by
    subst he
    have hothers := test_others hp hf
    rw [swapRemove_append_cons (fun x hx => hothers x (List.mem_append_left _ hx)) hf,
      filter_others hothers hf, List.append_cancel_left_eq]
    exact getLast?_append_dropLast_eq_iff (List.nodup_cons.mp (List.nodup_append.mp hn).2.1).2
  constructor
  · intro h before first after he hf
    exact (hplace he hf).mp h
  · intro h
    cases hfind : items.find? test with
    | none =>
      have hnone : ∀ x ∈ items, test x = false := by simpa using hfind
      rw [swapRemove_of_none hnone, filter_of_none hnone]
    | some first =>
      obtain ⟨hf, before, after, he, -⟩ := List.find?_eq_some_iff_append.mp hfind
      exact (hplace he hf).mpr (h before first after he hf)

end

/-! ### Keys and their places -/

/-- Whether no mapping has a key twice. -/
inductive KeysDiffer : Value → Prop
  | null : KeysDiffer .null
  | bool (value : Bool) : KeysDiffer (.bool value)
  | number (value : Number) : KeysDiffer (.number value)
  | string (value : String) : KeysDiffer (.string value)
  | sequence {items : List Value} : (∀ item ∈ items, KeysDiffer item) → KeysDiffer (.sequence items)
  | mapping {entries : List (Value × Value)} :
    (entries.map Prod.fst).Nodup → (∀ entry ∈ entries, KeysDiffer entry.2) → KeysDiffer (.mapping entries)
  | tagged (tag : String) {value : Value} : KeysDiffer value → KeysDiffer (.tagged tag value)

/-- Whether at most one entry stands behind the one of the key, in every
mapping that is not itself below the key. -/
inductive Trails (key : String) : Value → Prop
  | null : Trails key .null
  | bool (value : Bool) : Trails key (.bool value)
  | number (value : Number) : Trails key (.number value)
  | string (value : String) : Trails key (.string value)
  | sequence {items : List Value} : (∀ item ∈ items, Trails key item) → Trails key (.sequence items)
  | mapping {entries : List (Value × Value)} :
    (∀ before value after, entries = before ++ (.string key, value) :: after → after.length ≤ 1) →
    (∀ entry ∈ otherEntries key entries, Trails key entry.2) → Trails key (.mapping entries)
  | tagged (tag : String) {value : Value} : Trails key value → Trails key (.tagged tag value)

/-- Whether two values differ in nothing but the order of the entries of mappings. -/
inductive Rearranged : Value → Value → Prop
  | refl (value : Value) : Rearranged value value
  | trans {first middle last : Value} : Rearranged first middle → Rearranged middle last →
    Rearranged first last
  | order {entries others : List (Value × Value)} :
    entries.Perm others → Rearranged (.mapping entries) (.mapping others)
  | entry (before after : List (Value × Value)) (name : Value)
    {value other : Value} : Rearranged value other →
    Rearranged (.mapping (before ++ (name, value) :: after)) (.mapping (before ++ (name, other) :: after))
  | item (before after : List Value) {value other : Value} : Rearranged value other →
    Rearranged (.sequence (before ++ value :: after)) (.sequence (before ++ other :: after))
  | tagged (tag : String) {value other : Value} :
    Rearranged value other → Rearranged (.tagged tag value) (.tagged tag other)

/-- Items are rearranged one after another. -/
theorem Rearranged.items {f g : Value → Value} (before : List Value) {items : List Value}
    (h : ∀ item ∈ items, Rearranged (f item) (g item)) :
    Rearranged (.sequence (before ++ items.map f)) (.sequence (before ++ items.map g)) := by
  induction items generalizing before with
  | nil => exact .refl _
  | cons item rest ih =>
    obtain ⟨hitem, hrest⟩ := List.forall_mem_cons.mp h
    have hfront := ih (before ++ [g item]) hrest
    rw [List.append_assoc, List.append_assoc] at hfront
    exact .trans (.item before _ hitem) hfront

theorem Rearranged.entries {f g : Value → Value} (before : List (Value × Value))
    {entries : List (Value × Value)} (h : ∀ entry ∈ entries, Rearranged (f entry.2) (g entry.2)) :
    Rearranged (.mapping (before ++ entries.map fun entry => (entry.1, f entry.2)))
      (.mapping (before ++ entries.map fun entry => (entry.1, g entry.2))) := by
  induction entries generalizing before with
  | nil => exact .refl _
  | cons entry rest ih =>
    obtain ⟨hentry, hrest⟩ := List.forall_mem_cons.mp h
    have hfront := ih (before ++ [(entry.1, g entry.2)]) hrest
    rw [List.append_assoc, List.append_assoc] at hfront
    exact .trans (.entry before _ entry.1 hentry) hfront

/-! ### Mappings -/

theorem map_swapRemove {α β : Type} {test : β → Bool} (f : α → β) (items : List α) :
    swapRemove test (items.map f) = (swapRemove (fun x => test (f x)) items).map f := by
  unfold swapRemove
  rw [List.findIdx?_map, Function.comp_def]
  cases items.findIdx? fun x => test (f x) with
  | none => rfl
  | some i =>
    dsimp only
    rw [List.length_map]
    split
    · exact (List.map_dropLast).symm
    · have hback : (items.map f).getLast?.toList = items.getLast?.toList.map f := by
        rw [List.getLast?_map, Option.toList_map]
      rw [hback, ← List.map_take, ← List.map_drop, ← List.map_dropLast, ← List.map_append, ← List.map_append]

/-- The entries in the order in which they are left. -/
def entriesLeft (key : String) (entries : List (Value × Value)) : List (Value × Value) :=
  swapRemove (fun entry => isKey key entry.1) entries

theorem withoutKey_mapping (key : String) (entries : List (Value × Value)) :
    withoutKey key (.mapping entries) =
      .mapping ((entriesLeft key entries).map fun entry => (entry.1, withoutKey key entry.2)) := by
  rw [withoutKey, withoutKeyInEntries_eq, map_swapRemove, entriesLeft]

theorem cleared_mapping (key : String) (entries : List (Value × Value)) :
    cleared key (.mapping entries) =
      .mapping ((otherEntries key entries).map fun entry => (entry.1, cleared key entry.2)) := by
  rw [cleared, clearedEntries_eq]

section
variable {key : String} {entries : List (Value × Value)}

theorem isKey_once (h : (entries.map Prod.fst).Nodup) :
    entries.Pairwise fun entry other => isKey key entry.1 = true → isKey key other.1 = false := by
  refine (List.pairwise_map.mp h).imp fun hne hfirst => Bool.eq_false_iff.mpr fun hother => hne ?_
  rw [isKey_eq_true.mp hfirst, isKey_eq_true.mp hother]

theorem entriesLeft_perm (h : (entries.map Prod.fst).Nodup) :
    (entriesLeft key entries).Perm (otherEntries key entries) :=
  swapRemove_perm (isKey_once h)

theorem entriesLeft_eq_iff (h : (entries.map Prod.fst).Nodup) :
    entriesLeft key entries = otherEntries key entries ↔
      ∀ before value after, entries = before ++ (.string key, value) :: after → after.length ≤ 1 := by
  apply (swapRemove_eq_filter_iff (isKey_once h) (List.Nodup.of_map _ h)).trans
  constructor
  · intro hlast before value after he
    exact hlast before (.string key, value) after he (isKey_eq_true.mpr rfl)
  · intro hlast before first after he hkey
    obtain ⟨name, value⟩ := first
    obtain rfl : name = .string key := isKey_eq_true.mp hkey
    exact hlast before value after he

/-- Entries of different keys in the same order of keys are the same. -/
theorem entriesLeft_eq_of_keys (h : (entries.map Prod.fst).Nodup)
    (hk : (entriesLeft key entries).map Prod.fst = (otherEntries key entries).map Prod.fst) :
    entriesLeft key entries = otherEntries key entries := by
  have hperm : (entriesLeft key entries).Perm (otherEntries key entries) := entriesLeft_perm h
  refine List.ext_getElem hperm.length_eq fun i hi hj => ?_
  have hleft : (entriesLeft key entries)[i] ∈ entries :=
    (List.mem_filter.mp (hperm.mem_iff.mp (List.getElem_mem hi))).1
  have hother : (otherEntries key entries)[i] ∈ entries := (List.mem_filter.mp (List.getElem_mem hj)).1
  refine List.inj_on_of_nodup_map h hleft hother ?_
  have hget := List.getElem_of_eq hk (by simpa using hi)
  simpa using hget

end

/-! ### Values -/

variable {key : String} {value : Value}

/-- Nothing but the entries of the key is lost, and nothing is changed but the order of entries. -/
theorem rearranged_withoutKey (h : KeysDiffer value) :
    Rearranged (withoutKey key value) (cleared key value) := by
  induction h with
  | @sequence items _ ih =>
    rw [withoutKey, cleared, withoutKeyInItems_eq, clearedItems_eq]
    exact .items [] ih
  | @mapping entries hk _ ih =>
    rw [withoutKey_mapping, cleared_mapping]
    refine .trans (.order ((entriesLeft_perm hk).map _)) (.entries [] fun entry hm => ?_)
    exact ih entry (List.mem_of_mem_filter hm)
  | tagged tag _ ih => exact .tagged tag ih
  | _ => exact .refl _

theorem withoutKey_eq_cleared_iff (h : KeysDiffer value) :
    withoutKey key value = cleared key value ↔ Trails key value := by
  induction h with
  | null => exact iff_of_true rfl .null
  | bool value => exact iff_of_true rfl (.bool value)
  | number value => exact iff_of_true rfl (.number value)
  | string value => exact iff_of_true rfl (.string value)
  | @sequence items _ ih =>
    rw [withoutKey, cleared, withoutKeyInItems_eq, clearedItems_eq, Value.sequence.injEq, List.map_inj_left]
    constructor
    · intro he
      exact .sequence fun item hm => (ih item hm).mp (he item hm)
    · intro ht item hm
      cases ht with
      | sequence hitems => exact (ih item hm).mpr (hitems item hm)
  | @mapping entries hk _ ih =>
    rw [withoutKey_mapping, cleared_mapping, Value.mapping.injEq]
    constructor
    · intro he
      have hkeys : (entriesLeft key entries).map Prod.fst = (otherEntries key entries).map Prod.fst := by
        simpa only [List.map_map, Function.comp_def] using congrArg (List.map Prod.fst) he
      have hleft := entriesLeft_eq_of_keys hk hkeys
      rw [hleft, List.map_inj_left] at he
      refine .mapping ((entriesLeft_eq_iff hk).mp hleft) fun entry hm => ?_
      exact (ih entry (List.mem_of_mem_filter hm)).mp (Prod.mk.inj (he entry hm)).2
    · intro ht
      cases ht with
      | mapping hlast hentries =>
        rw [(entriesLeft_eq_iff hk).mpr hlast]
        refine List.map_congr_left fun entry hm => congrArg (Prod.mk entry.1) ?_
        exact (ih entry (List.mem_of_mem_filter hm)).mpr (hentries entry hm)
  | @tagged tag value _ ih =>
    rw [withoutKey, cleared, Value.tagged.injEq]
    constructor
    · intro he
      exact .tagged tag (ih.mp he.2)
    · intro ht
      cases ht with
      | tagged _ hvalue => exact ⟨rfl, ih.mpr hvalue⟩

/-- What is left is the value with the entries of the key dropped, up to the order of entries, and it is
in that order exactly if wherever the key occurs no more than one entry stands behind it. -/
theorem withoutKey_order (key : String) (h : KeysDiffer value) :
    Rearranged (withoutKey key value) (cleared key value) ∧
      (withoutKey key value = cleared key value ↔ Trails key value) :=
  ⟨rearranged_withoutKey h, withoutKey_eq_cleared_iff h⟩

/-- Paths with a change log in front of them. -/
def loggedPaths : Value :=
  .mapping [(.string changelogKey, .null), (.string "/groups", .null), (.string "/teams", .null)]

/-- The last path comes to stand before the first one. -/
theorem loggedPaths_reordered :
    KeysDiffer loggedPaths ∧ Rearranged (withoutKey changelogKey loggedPaths)
      (cleared changelogKey loggedPaths) ∧
      withoutKey changelogKey loggedPaths ≠ cleared changelogKey loggedPaths := by
  have hdiffer : KeysDiffer loggedPaths := by
    refine .mapping (by simp [changelogKey]) fun entry hm => ?_
    simp only [List.mem_cons, List.not_mem_nil, or_false] at hm
    obtain rfl | rfl | rfl := hm <;> exact .null
  obtain ⟨hleft, hiff⟩ := withoutKey_order changelogKey hdiffer
  refine ⟨hdiffer, hleft, fun he => ?_⟩
  cases hiff.mp he with
  | mapping hlast _ => exact absurd (hlast [] _ _ rfl) (by decide)

end CrdForge.OpenApi
