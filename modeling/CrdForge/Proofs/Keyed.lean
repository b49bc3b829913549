import CrdForge.Keyed

/-! What a list of named entries holds after an insertion.

Looking a name up finds the entry that was inserted last, whether or not the list was sorted before, so none
of this needs an invariant. -/
namespace CrdForge.Keyed

variable {α β : Type}

/-! ### Looking up -/

theorem lookup_cons (name key : String) (value : α) (rest : List (String × α)) :
    ((key, value) :: rest).lookup name = if name = key then some value else rest.lookup name := by
  by_cases h : name = key
  · simp [h]
  · have hb : (name == key) = false := beq_eq_false_iff_ne.mpr h
    simp [List.lookup_cons, h, hb]

@[simp] theorem lookup_insert (key : String) (value : α) (entries : List (String × α)) (name : String) :
    (insert key value entries).lookup name = if name = key then some value else entries.lookup name := by
  induction entries with
  | nil => simp [insert, lookup_cons]
  | cons entry rest ih =>
    obtain ⟨k, v⟩ := entry
    simp only [insert]
    split
    · simp [lookup_cons]
    · split
      · next h =>
        subst h
        simp only [lookup_cons]
        split <;> rfl
      · next h =>
        simp only [lookup_cons, ih]
        by_cases hk : name = k
        · simp [hk, Ne.symm h]
        · simp [hk]

theorem lookup_map (f : α → β) (entries : List (String × α)) (name : String) :
    (entries.map fun (name, a) => (name, f a)).lookup name = (entries.lookup name).map f := by
  induction entries with
  | nil => rfl
  | cons entry rest ih =>
    obtain ⟨key, a⟩ := entry
    rw [List.map_cons, lookup_cons, lookup_cons, ih]
    split <;> rfl

theorem has_iff {key : String} {entries : List (String × α)} :
    has key entries = true ↔ ∃ value, entries.lookup key = some value := by
  simp [has, Option.isSome_iff_exists]

@[simp] theorem has_insert (key name : String) (value : α) (entries : List (String × α)) :
    has name (insert key value entries) = (name == key || has name entries) := by
  by_cases h : name = key <;> simp [has, h]

theorem mem_of_lookup {key : String} {value : α} {entries : List (String × α)}
    (h : entries.lookup key = some value) : (key, value) ∈ entries := by
  induction entries with
  | nil => simp at h
  | cons entry rest ih =>
    obtain ⟨k, v⟩ := entry
    rw [lookup_cons] at h
    split at h
    · next hk => simp_all
    · exact List.mem_cons_of_mem _ (ih h)

theorem has_of_mem {entry : String × α} {entries : List (String × α)} (h : entry ∈ entries) :
    has entry.1 entries = true := by
  induction entries with
  | nil => simp at h
  | cons other rest ih =>
    obtain ⟨k, v⟩ := other
    simp only [has, lookup_cons]
    split
    · rfl
    · next hk =>
      rcases List.mem_cons.mp h with rfl | h
      · exact absurd rfl hk
      · exact ih h

theorem mem_keys {key : String} {entries : List (String × α)} :
    key ∈ keys entries ↔ has key entries = true := by
  constructor
  · intro h
    obtain ⟨entry, hm, rfl⟩ := List.mem_map.mp h
    exact has_of_mem hm
  · intro h
    obtain ⟨value, hl⟩ := has_iff.mp h
    exact List.mem_map.mpr ⟨(key, value), mem_of_lookup hl, rfl⟩

/-- Where names are given once, each entry is found. -/
theorem lookup_of_mem {key : String} {value : α} {entries : List (String × α)} (hd : (keys entries).Nodup)
    (hm : (key, value) ∈ entries) : entries.lookup key = some value := by
  induction entries with
  | nil => cases hm
  | cons entry rest ih =>
    obtain ⟨k, v⟩ := entry
    obtain ⟨hk, hrest⟩ := List.nodup_cons.mp hd
    rw [lookup_cons]
    rcases List.mem_cons.mp hm with he | hlater
    · cases he
      exact if_pos rfl
    · have hhas : has key rest = true := has_of_mem hlater
      have hne : key ≠ k := by
        rintro rfl
        exact hk (mem_keys.mpr hhas)
      rw [if_neg hne]
      exact ih hrest hlater

/-! ### Entries -/

theorem mem_insert {key : String} {value : α} {entries : List (String × α)} {entry : String × α}
    (h : entry ∈ insert key value entries) : entry = (key, value) ∨ entry ∈ entries := by
  induction entries with
  | nil => simpa [insert] using h
  | cons other rest ih =>
    obtain ⟨k, v⟩ := other
    simp only [insert] at h
    split at h
    · simpa using h
    · split at h
      · rcases List.mem_cons.mp h with rfl | h
        · exact .inl rfl
        · exact .inr (List.mem_cons_of_mem _ h)
      · rcases List.mem_cons.mp h with rfl | h
        · exact .inr (List.mem_cons_self ..)
        · exact (ih h).imp_right (List.mem_cons_of_mem _)

@[simp] theorem insert_ne_nil (key : String) (value : α) (entries : List (String × α)) :
    insert key value entries ≠ [] := by
  cases entries with
  | nil => simp [insert]
  | cons entry rest =>
    simp only [insert]
    split
    · simp
    · split <;> simp

@[simp] theorem insert_insert (key : String) (value other : α) (entries : List (String × α)) :
    insert key value (insert key other entries) = insert key value entries := by
  have hk : ¬ key < key := String.lt_irrefl key
  induction entries with
  | nil => simp [insert]
  | cons entry rest ih =>
    obtain ⟨k, v⟩ := entry
    by_cases hl : key < k
    · simp [insert, hl]
    · by_cases he : key = k
      · subst he
        simp [insert]
      · simp [insert, hl, he, ih]

/-! ### Order -/

/-- Each name stands before those of the entries that follow. -/
def Sorted (entries : List (String × α)) : Prop := entries.Pairwise fun entry other => entry.1 < other.1

theorem Sorted.insert {entries : List (String × α)} (h : Sorted entries) (key : String) (value : α) :
    Sorted (Keyed.insert key value entries) := by
  induction entries with
  | nil => simp [Keyed.insert, Sorted]
  | cons entry rest ih =>
    obtain ⟨k, v⟩ := entry
    obtain ⟨hfirst, hrest⟩ := List.pairwise_cons.mp h
    rw [Keyed.insert]
    split
    · next hlt =>
      refine List.pairwise_cons.mpr ⟨fun other ho => ?_, h⟩
      rcases List.mem_cons.mp ho with rfl | ho
      · exact hlt
      · exact String.lt_trans hlt (hfirst other ho)
    · split
      · next heq =>
        subst heq
        exact List.pairwise_cons.mpr ⟨hfirst, hrest⟩
      · next hlt hne =>
        have hgt : k < key := Std.lt_of_le_of_ne (String.not_lt.mp hlt) (Ne.symm hne)
        refine List.pairwise_cons.mpr ⟨fun other ho => ?_, ih hrest⟩
        rcases mem_insert ho with rfl | ho
        · exact hgt
        · exact hfirst other ho

theorem Sorted.map {entries : List (String × α)} (h : Sorted entries) (f : α → β) :
    Sorted (entries.map fun (name, a) => (name, f a)) :=
  List.pairwise_map.mpr h

theorem Sorted.lookup_of_mem {entries : List (String × α)} (h : Sorted entries) {key : String} {value : α}
    (hm : (key, value) ∈ entries) : entries.lookup key = some value := by
  induction entries with
  | nil => simp at hm
  | cons entry rest ih =>
    obtain ⟨k, v⟩ := entry
    obtain ⟨hfirst, hrest⟩ := List.pairwise_cons.mp h
    rw [lookup_cons]
    rcases List.mem_cons.mp hm with he | hm
    · cases he
      exact if_pos rfl
    · have hne : key ≠ k := fun he => String.lt_irrefl k (he ▸ hfirst _ hm)
      rw [if_neg hne]
      exact ih hrest hm

theorem lookup_eq_none_of_lt {entries : List (String × α)} {key : String}
    (h : ∀ entry ∈ entries, key < entry.1) :
    entries.lookup key = none := by
  induction entries with
  | nil => rfl
  | cons entry rest ih =>
    have hk := h entry (List.mem_cons_self ..)
    have hne : key ≠ entry.1 := fun he => String.lt_irrefl _ (he ▸ hk)
    rw [lookup_cons, if_neg hne]
    exact ih fun other ho => h other (List.mem_cons_of_mem _ ho)

theorem Sorted.lookup_of_lt {key : String} {first : String × α} {rest : List (String × α)}
    (h : Sorted (first :: rest)) (hk : key < first.1) : (first :: rest).lookup key = none :=
  lookup_eq_none_of_lt fun entry he => by
    rcases List.mem_cons.mp he with rfl | he
    · exact hk
    · exact String.lt_trans hk ((List.pairwise_cons.mp h).1 entry he)

/-- A sorted list is known by what is found in it. -/
theorem Sorted.ext {entries others : List (String × α)} (h : Sorted entries) (h' : Sorted others)
    (hl : ∀ name, entries.lookup name = others.lookup name) : entries = others := by
  induction entries generalizing others with
  | nil =>
    cases others with
    | nil => rfl
    | cons other rest =>
      have hk := hl other.1
      rw [lookup_cons, if_pos rfl] at hk
      cases hk
  | cons entry rest ih =>
    cases others with
    | nil =>
      have hk := hl entry.1
      rw [lookup_cons, if_pos rfl] at hk
      cases hk
    | cons other others =>
      obtain ⟨k, v⟩ := entry
      obtain ⟨k', v'⟩ := other
      have hk := hl k
      have hk' := hl k'
      rw [lookup_cons, if_pos rfl] at hk
      rw [lookup_cons k' k', if_pos rfl] at hk'
      have heq : k = k' := by
        by_cases hlt : k < k'
        · rw [h'.lookup_of_lt hlt] at hk
          cases hk
        · by_cases hgt : k' < k
          · rw [h.lookup_of_lt hgt] at hk'
            cases hk'
          · exact String.le_antisymm (String.not_lt.mp hgt) (String.not_lt.mp hlt)
      subst heq
      rw [lookup_cons, if_pos rfl] at hk
      obtain rfl := Option.some.inj hk
      obtain ⟨hfirst, hrest⟩ := List.pairwise_cons.mp h
      obtain ⟨hfirst', hrest'⟩ := List.pairwise_cons.mp h'
      rw [ih hrest hrest' fun name => ?_]
      by_cases hn : name = k
      · rw [hn, lookup_eq_none_of_lt hfirst, lookup_eq_none_of_lt hfirst']
      · have hname := hl name
        rwa [lookup_cons, lookup_cons, if_neg hn, if_neg hn] at hname

/-! ### Names -/

@[simp] theorem mem_insertName {name other : String} {names : List String} :
    name ∈ insertName other names ↔ name = other ∨ name ∈ names := by
  induction names with
  | nil => simp [insertName]
  | cons first rest ih =>
    simp only [insertName]
    split
    · simp only [List.mem_cons, ih]
      exact or_left_comm
    · simp

@[simp] theorem mem_ascending {name : String} {names : List String} :
    name ∈ ascending names ↔ name ∈ names := by
  induction names with
  | nil => simp [ascending]
  | cons first rest ih =>
    rw [ascending, List.foldr_cons, ← ascending, mem_insertName, ih, List.mem_cons]

@[simp] theorem mem_distinct {name : String} {names : List String} :
    name ∈ distinct names ↔ name ∈ names := by
  induction names with
  | nil => simp [distinct]
  | cons first rest ih =>
    rw [distinct, List.foldr_cons, ← distinct, List.mem_cons, ← ih]
    split
    · next h =>
      have hf : first ∈ distinct rest := List.contains_iff_mem.mp h
      constructor
      · exact Or.inr
      · rintro (rfl | h)
        · exact hf
        · exact h
    · exact mem_insertName

theorem insertName_perm (name : String) (names : List String) :
    (insertName name names).Perm (name :: names) := by
  induction names with
  | nil => exact .refl _
  | cons first rest ih =>
    rw [insertName]
    split
    · exact (ih.cons first).trans (.swap name first rest)
    · exact .refl _

theorem ascending_perm (names : List String) : (ascending names).Perm names := by
  induction names with
  | nil => exact .refl _
  | cons first rest ih => exact (insertName_perm first (ascending rest)).trans (ih.cons first)

/-- A name that is not there yet is put where it belongs. -/
theorem insertName_ascends {name : String} {names : List String} (h : names.Pairwise (· < ·))
    (hn : name ∉ names) :
    (insertName name names).Pairwise (· < ·) := by
  induction names with
  | nil => exact List.pairwise_singleton _ _
  | cons first rest ih =>
    obtain ⟨hfirst, hrest⟩ := List.pairwise_cons.mp h
    rw [List.mem_cons, not_or] at hn
    rw [insertName]
    split
    · next hlt =>
      refine List.pairwise_cons.mpr ⟨fun other ho => ?_, ih hrest hn.2⟩
      rcases mem_insertName.mp ho with rfl | ho
      · exact hlt
      · exact hfirst other ho
    · next hge =>
      have hlt : name < first := Std.lt_of_le_of_ne (String.not_lt.mp hge) hn.1
      refine List.pairwise_cons.mpr ⟨fun other ho => ?_, h⟩
      rcases List.mem_cons.mp ho with rfl | ho
      · exact hlt
      · exact String.lt_trans hlt (hfirst other ho)

theorem ascending_ascends {names : List String} (h : names.Nodup) : (ascending names).Pairwise (· < ·) := by
  induction names with
  | nil => exact .nil
  | cons first rest ih =>
    obtain ⟨hfirst, hrest⟩ := List.nodup_cons.mp h
    exact insertName_ascends (ih hrest) (mt mem_ascending.mp hfirst)

theorem distinct_ascends (names : List String) : (distinct names).Pairwise (· < ·) := by
  induction names with
  | nil => exact .nil
  | cons first rest ih =>
    rw [distinct, List.foldr_cons, ← distinct]
    split
    · exact ih
    · next h => exact insertName_ascends ih fun hm => h (List.contains_iff_mem.mpr hm)

end CrdForge.Keyed
