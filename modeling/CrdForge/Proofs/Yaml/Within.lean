import CrdForge.Proofs.Json.Entries
import CrdForge.Proofs.Run
import CrdForge.Yaml.Shape

/-! What stands in values, and so in what is read from them.

Names of entries and floats are handed on by reading: a reader `Gives` what it can only have found in the
value. JSON is read with its entries sorted and its floats finite, and it is null for an absent value, or
for a float that is not finite. -/
namespace CrdForge

namespace Run
variable {ε α β : Type}

theorem bind_of_ok {result : Except ε α} {a : α} (h : result = .ok a) (next : α → Except ε β) :
    (result >>= next) = next a := by
  rw [h]
  rfl

theorem mapM_ok_iff {step : α → Except ε β} {xs : List α} {ys : List β} :
    xs.mapM step = .ok ys ↔ List.Forall₂ (fun x y => step x = .ok y) xs ys := by
  constructor
  · intro h
    induction xs generalizing ys with
    | nil =>
      cases h
      exact .nil
    | cons x rest ih =>
      rw [List.mapM_cons] at h
      obtain ⟨y, hy, h⟩ := except_bind_ok h
      obtain ⟨ys', hys, h⟩ := except_bind_ok h
      cases h
      exact .cons hy (ih hys)
  · intro h
    induction h with
    | nil => rfl
    | cons hx _ ih =>
      rw [List.mapM_cons, hx, ih]
      rfl

theorem Yields.self {F : ε → Prop} (result : Except ε α) (h : ∀ failure, F failure) :
    Yields (result = .ok ·) F result := by
  cases result with
  | ok a => rfl
  | error failure => exact h failure

theorem Yields.pure {Q : α → Prop} {F : ε → Prop} {a : α} (h : Q a) : Yields Q F (pure a : Except ε α) := h

theorem Yields.and {Q R : α → Prop} {F : ε → Prop} {result : Except ε α} (h : Yields Q F result)
    (h' : Yields R F result) : Yields (fun a => Q a ∧ R a) F result := by
  cases result with
  | ok a => exact ⟨h, h'⟩
  | error failure => exact h

/-- What holds of the answer to each step holds of all answers. -/
theorem Yields.mapM {step : α → Except ε β} {Q : β → Prop} {F : ε → Prop} {xs : List α}
    (h : ∀ x ∈ xs, Yields Q F (step x)) : Yields (fun ys => ∀ y ∈ ys, Q y) F (xs.mapM step) := by
  induction xs with
  | nil => exact fun _ hm => nomatch hm
  | cons x rest ih =>
    rw [List.mapM_cons]
    refine (h x (List.mem_cons_self ..)).bind fun y hy => ?_
    refine (ih fun x hm => h x (List.mem_cons_of_mem _ hm)).bind fun ys hys => ?_
    exact List.forall_mem_cons.mpr ⟨hy, hys⟩

end Run

namespace Keyed
variable {α : Type} {names : String → Prop} {entries read : List (String × α)}

/-! ### Entries with distinct names -/

/-- Whether all names are of a kind, and no two entries have the same. -/
structure Distinct (names : String → Prop) (entries : List (String × α)) : Prop where
  nodup : (keys entries).Nodup
  named : ∀ entry ∈ entries, names entry.1

theorem mem_put {key : String} {value : α} {entry : String × α} (h : entry ∈ put key value entries) :
    entry = (key, value) ∨ entry ∈ entries := by
  induction entries with
  | nil => exact .inl (List.mem_singleton.mp h)
  | cons other rest ih =>
    rw [put] at h
    split at h
    · exact (List.mem_cons.mp h).imp_right (List.mem_cons_of_mem _)
    · rcases List.mem_cons.mp h with rfl | h
      · exact .inr (List.mem_cons_self ..)
      · exact (ih h).imp_right (List.mem_cons_of_mem _)

theorem put_of_not_mem {key : String} (value : α) (h : key ∉ keys entries) :
    put key value entries = entries ++ [(key, value)] := by
  induction entries with
  | nil => rfl
  | cons other rest ih =>
    obtain ⟨hne, hrest⟩ := not_or.mp (mt List.mem_cons.mpr h)
    rw [put, if_neg hne, ih hrest]
    rfl

theorem keys_put (key : String) (value : α) (entries : List (String × α)) :
    keys (put key value entries) = if key ∈ keys entries then keys entries else keys entries ++ [key] := by
  induction entries with
  | nil => rfl
  | cons other rest ih =>
    rw [put]
    by_cases hk : key = other.1
    · have hmem : key ∈ keys (other :: rest) := List.mem_cons.mpr (.inl hk)
      rw [if_pos hk, if_pos hmem, keys, List.map_cons, hk]
      rfl
    · have hmem : key ∈ keys (other :: rest) ↔ key ∈ keys rest :=
        ⟨fun hm => (List.mem_cons.mp hm).resolve_left hk, List.mem_cons_of_mem _⟩
      rw [if_neg hk, keys, List.map_cons, ← keys, ih]
      simp only [hmem]
      split <;> rfl

theorem Distinct.put (h : Distinct names entries) {key : String} (value : α) (hk : names key) :
    Distinct names (put key value entries) where
  nodup := by
    rw [keys_put]
    split
    · exact h.nodup
    · next hm =>
      refine List.nodup_append.mpr ⟨h.nodup, List.pairwise_singleton .., fun name hn other ho => ?_⟩
      rintro rfl
      exact hm (List.mem_singleton.mp ho ▸ hn)
  named entry he := by
    rcases mem_put he with rfl | he
    · exact hk
    · exact h.named entry he

theorem Distinct.foldl_put (h : Distinct names read) (hn : ∀ entry ∈ entries, names entry.1) :
    Distinct names (entries.foldl (fun read entry => Keyed.put entry.1 entry.2 read) read) := by
  induction entries generalizing read with
  | nil => exact h
  | cons entry rest ih =>
    exact ih (h.put entry.2 (hn entry (List.mem_cons_self ..))) fun other ho =>
      hn other (List.mem_cons_of_mem _ ho)

theorem mem_foldl_put {entry : String × α}
    (h : entry ∈ entries.foldl (fun read entry => put entry.1 entry.2 read) read) :
    entry ∈ entries ∨ entry ∈ read := by
  induction entries generalizing read with
  | nil => exact .inr h
  | cons first rest ih =>
    rcases ih h with h | h
    · exact .inl (List.mem_cons_of_mem _ h)
    · exact (mem_put h).imp_left fun he => List.mem_cons.mpr (.inl he)

/-- Entries that are put one after another stay as they are if their names differ. -/
theorem foldl_put_eq (h : (keys (read ++ entries)).Nodup) :
    entries.foldl (fun read entry => put entry.1 entry.2 read) read = read ++ entries := by
  induction entries generalizing read with
  | nil => exact (List.append_nil _).symm
  | cons entry rest ih =>
    have hm : entry.1 ∉ keys read := by
      rw [keys, List.map_append] at h
      exact fun hm => (List.nodup_append.mp h).2.2 _ hm _ (List.mem_cons_self ..) rfl
    have happend : read ++ [entry] ++ rest = read ++ entry :: rest := by
      rw [List.append_assoc, List.singleton_append]
    rw [List.foldl_cons, put_of_not_mem entry.2 hm, ih (happend ▸ h), happend]

theorem Sorted.nodup_keys (h : Sorted entries) : (keys entries).Nodup :=
  List.pairwise_map.mpr (h.imp fun hlt => Std.ne_of_lt hlt)

theorem mem_sort {entry : String × α} (h : entry ∈ sort entries) : entry ∈ entries := by
  suffices ∀ read : List (String × α),
    entry ∈ entries.foldl (fun sorted entry => insert entry.1 entry.2 sorted) read →
      entry ∈ entries ∨ entry ∈ read from (this [] h).resolve_right nofun
  clear h
  induction entries with
  | nil => exact fun _ => .inr
  | cons first rest ih =>
    intro read h
    rcases ih _ h with h | h
    · exact .inl (List.mem_cons_of_mem _ h)
    · exact (mem_insert h).imp_left fun he => List.mem_cons.mpr (.inl he)

end Keyed

namespace Json
variable {names : String → Prop} {floats : Float → Prop}

/-! ### JSON -/

/-- Whether names of entries and floats are of a kind, and no object has two entries of a name. -/
inductive Within (names : String → Prop) (floats : Float → Prop) : Json → Prop
  | null : Within names floats .null
  | bool (value : Bool) : Within names floats (.bool value)
  | int (value : Int) : Within names floats (.number (.int value))
  | float {value : Float} : floats value → Within names floats (.number (.float value))
  | string (value : String) : Within names floats (.string value)
  | array {items : List Json} : (∀ item ∈ items, Within names floats item) →
    Within names floats (.array items)
  | object {entries : List (String × Json)} : Keyed.Distinct names entries →
    (∀ entry ∈ entries, Within names floats entry.2) → Within names floats (.object entries)

/-- A value as it is read: entries are sorted, floats finite, and names of a kind. -/
structure Tidy (names : String → Prop) (value : Json) : Prop where
  sorted : value.sorted = value
  within : value.Within names (·.isFinite = true)

theorem Tidy.array {items : List Json} (h : ∀ item ∈ items, item.Tidy names) :
    (Json.array items).Tidy names where
  sorted := sorted_array fun item hm => (h item hm).sorted
  within := .array fun item hm => (h item hm).within

theorem Tidy.object {entries : List (String × Json)} (hs : Keyed.Sorted entries)
    (h : ∀ entry ∈ entries, names entry.1 ∧ entry.2.Tidy names) : (Json.object entries).Tidy names where
  sorted := by
    rw [sorted_object hs]
    refine congrArg Json.object ((List.map_congr_left fun entry he => ?_).trans (List.map_id entries))
    exact congrArg (Prod.mk entry.1) (h entry he).2.sorted
  within := .object ⟨hs.nodup_keys, fun entry he => (h entry he).1⟩ fun entry he => (h entry he).2.within

end Json

namespace Yaml.Value
variable {names : String → Prop} {floats : Float → Prop} {value : Value}

/-! ### Values -/

/-- A statement about values from statements about what they consist of. Keys do not count. -/
@[elab_as_elim]
theorem induction {P : Value → Prop} (null : P .null) (bool : ∀ value, P (.bool value))
    (number : ∀ value, P (.number value)) (string : ∀ value, P (.string value))
    (sequence : ∀ items, (∀ item ∈ items, P item) → P (.sequence items))
    (mapping : ∀ entries : List (Value × Value), (∀ entry ∈ entries, P entry.2) → P (.mapping entries))
    (tagged : ∀ tag value, P value → P (.tagged tag value)) : ∀ value, P value
  | .null => null
  | .bool value => bool value
  | .number value => number value
  | .string value => string value
  | .sequence items => sequence items fun item _ =>
    induction null bool number string sequence mapping tagged item
  | .mapping entries => mapping entries fun entry _ =>
    induction null bool number string sequence mapping tagged entry.2
  | .tagged tag value => tagged tag value (induction null bool number string sequence mapping tagged value)
termination_by value => sizeOf value
decreasing_by
  · decreasing_tactic
  · next hm =>
    have hlt := List.sizeOf_lt_of_mem hm
    rw [Prod.mk.sizeOf_spec] at hlt
    rw [Value.mapping.sizeOf_spec]
    omega
  · decreasing_tactic

theorem itemsHaveTag_eq_false {items : List Value} :
    itemsHaveTag items = false ↔ ∀ item ∈ items, item.hasTag = false := by
  induction items with
  | nil => exact ⟨fun _ => nofun, fun _ => rfl⟩
  | cons item rest ih => rw [itemsHaveTag, Bool.or_eq_false_iff, ih, List.forall_mem_cons]

theorem entriesHaveTag_eq_false {entries : List (Value × Value)} :
    entriesHaveTag entries = false ↔ ∀ entry ∈ entries, entry.1.hasTag = false ∧ entry.2.hasTag = false := by
  induction entries with
  | nil => exact ⟨fun _ => nofun, fun _ => rfl⟩
  | cons entry rest ih =>
    rw [entriesHaveTag, entryHasTag, Bool.or_eq_false_iff, Bool.or_eq_false_iff, ih, List.forall_mem_cons]

/-- What is read as a text is that text if it has no tag. -/
theorem eq_string_of_text {value : Value} {name : String} (ht : value.hasTag = false)
    (h : value.text = .ok name) :
    value = .string name := by
  cases value with
  | string text => exact congrArg Value.string (Except.ok.inj h)
  | tagged => cases ht
  | _ => cases h

/-- Whether names of entries and floats are of a kind. -/
inductive Within (names : String → Prop) (floats : Float → Prop) : Value → Prop
  | null : Within names floats .null
  | bool (value : Bool) : Within names floats (.bool value)
  | int (value : Int) : Within names floats (.number (.int value))
  | float {value : Float} : floats value → Within names floats (.number (.float value))
  | string (value : String) : Within names floats (.string value)
  | sequence {items : List Value} : (∀ item ∈ items, Within names floats item) →
    Within names floats (.sequence items)
  | mapping {entries : List (Value × Value)} :
    (∀ entry ∈ entries, ∀ name, entry.1.text = .ok name → names name) →
    (∀ entry ∈ entries, Within names floats entry.2) → Within names floats (.mapping entries)
  | tagged (tag : String) {value : Value} : Within names floats value →
    Within names floats (.tagged tag value)

/-- Names and floats of any kind stand in any value. -/
theorem within_any (value : Value) : value.Within (fun _ => True) fun _ => True := by
  induction value using Value.induction with
  | null => exact .null
  | bool value => exact .bool value
  | number value =>
    cases value with
    | int value => exact .int value
    | float value => exact .float trivial
  | string value => exact .string value
  | sequence items ih => exact .sequence ih
  | mapping entries ih => exact .mapping (fun _ _ _ _ => trivial) ih
  | tagged tag value ih => exact .tagged tag ih

theorem Within.untagged (h : value.Within names floats) : value.untagged.Within names floats := by
  induction value using Value.induction with
  | tagged tag value ih =>
    cases h with
    | tagged _ h => exact ih h
  | _ => exact h

theorem itemsJson_eq (items : List Value) : itemsJson items = items.mapM json := by
  induction items with
  | nil => rfl
  | cons item rest ih => rw [itemsJson, ih, List.mapM_cons]

theorem entriesJson_eq (entries : List (Value × Value)) : entriesJson entries = entries.mapM entryJson := by
  induction entries with
  | nil => rfl
  | cons entry rest ih => rw [entriesJson, ih, List.mapM_cons]

/-! ### Readers -/

section
variable {α : Type} {read : Value → Except Misfit α} {P : α → Prop}

/-- What is read, if anything is, from values with names and floats of a kind. -/
def Gives (names : String → Prop) (floats : Float → Prop) (read : Value → Except Misfit α)
    (P : α → Prop) : Prop :=
  ∀ value, value.Within names floats → Run.Yields P (fun _ => True) (read value)

theorem gives_json : Gives names floats json (Json.Tidy names) := by
  intro value h
  induction value using Value.induction with
  | null => exact ⟨rfl, .null⟩
  | bool value => exact ⟨rfl, .bool value⟩
  | number value =>
    cases value with
    | int value => exact ⟨rfl, .int value⟩
    | float value =>
      rw [json]
      cases hf : value.isFinite with
      | true => exact ⟨rfl, .float hf⟩
      | false => exact ⟨rfl, .null⟩
  | string value => exact ⟨rfl, .string value⟩
  | sequence items ih =>
    cases h with
    | sequence h =>
      rw [json, itemsJson_eq]
      exact (Run.Yields.mapM fun item hm => ih item hm (h item hm)).bind fun _ hall => Json.Tidy.array hall
  | mapping entries ih =>
    cases h with
    | mapping hn h =>
      have hentry : ∀ entry ∈ entries,
        Run.Yields (fun read => names read.1 ∧ read.2.Tidy names) (fun _ => True)
          (entryJson entry) := by
        intro entry he
        rw [entryJson]
        refine (Run.Yields.self entry.1.text fun _ => trivial).bind fun name hname => ?_
        exact (ih entry he (h entry he)).bind fun _ hj => ⟨hn entry he name hname, hj⟩
      rw [json, entriesJson_eq]
      refine (Run.Yields.mapM hentry).bind fun _ hall => ?_
      exact Json.Tidy.object (Keyed.sort_sorted _) fun entry he => hall entry (Keyed.mem_sort he)
  | tagged tag value => trivial

/-- JSON is null only for an absent value and for a float that is not finite. -/
theorem Within.json_null (h : value.Within names floats) (hr : value.json = .ok .null) :
    value = .null ∨ ∃ x, floats x ∧ x.isFinite = false := by
  cases h with
  | null => exact .inl rfl
  | @float x hx =>
    rw [json] at hr
    cases hf : x.isFinite with
    | true =>
      rw [hf] at hr
      cases hr
    | false => exact .inr ⟨x, hx, hf⟩
  | sequence | mapping =>
    rw [json] at hr
    obtain ⟨_, _, hr⟩ := Run.except_bind_ok hr
    cases hr
  | _ => cases hr

theorem Gives.optional (h : Gives names floats read P) :
    Gives names floats (optional read) fun found => ∀ a, found = some a → P a := by
  intro value hv
  rw [Value.optional]
  split
  · exact nofun
  · exact (h value hv).map fun a ha _ hs => Option.some.inj hs ▸ ha

theorem Gives.list (h : Gives names floats read P) :
    Gives names floats (list read) fun items => ∀ a ∈ items, P a := by
  intro value hv
  have huntagged := hv.untagged
  rw [Value.list]
  split
  · next items heq =>
    rw [heq] at huntagged
    cases huntagged with
    | sequence hall => exact Run.Yields.mapM fun item hm => h item (hall item hm)
  · exact nofun
  · trivial

/-- Fields have the names and hold the values of the entries. -/
theorem gives_fields : Gives names floats fields fun given =>
    ∀ entry ∈ given, names entry.1 ∧ entry.2.Within names floats := by
  intro value hv
  have huntagged := hv.untagged
  rw [fields]
  split
  · next entries heq =>
    rw [heq] at huntagged
    cases huntagged with
    | mapping hn hall =>
      refine Run.Yields.mapM fun entry he => ?_
      refine (Run.Yields.self entry.1.text fun _ => trivial).bind fun name hname => ?_
      exact ⟨hn entry he name hname, hall entry he⟩
  · exact nofun
  · trivial

theorem Gives.field (h : Gives names floats read P) {given : List (String × Value)}
    (hg : ∀ entry ∈ given, entry.2.Within names floats) (name : String) {otherwise : α} (ho : P otherwise) :
    Run.Yields P (fun _ => True) (field given name otherwise read) := by
  rw [Value.field]
  split
  · exact ho
  · next key value heq =>
    have hm : (key, value) ∈ given := List.mem_of_mem_filter (heq ▸ List.mem_cons_self ..)
    exact h value (hg _ hm)
  · trivial

theorem Gives.named (h : Gives names floats read P) : Gives names floats (named read) fun entries =>
    Keyed.Distinct names entries ∧ ∀ entry ∈ entries, P entry.2 := by
  intro value hv
  rw [Value.named]
  refine (gives_fields value hv).bind fun given hg => ?_
  have hfield : ∀ field ∈ given, Run.Yields (fun entry => names entry.1 ∧ P entry.2) (fun _ => True)
      (do return (field.1, ← read field.2)) := fun field hm =>
    (h field.2 (hg field hm).2).bind fun a ha => show names field.1 ∧ P a from ⟨(hg field hm).1, ha⟩
  refine (Run.Yields.mapM hfield).bind fun entries hall => ?_
  refine ⟨Keyed.Distinct.foldl_put ⟨List.nodup_nil, nofun⟩ fun entry he => (hall entry he).1,
    fun entry he => ?_⟩
  exact (hall entry ((Keyed.mem_foldl_put he).resolve_right nofun)).2

section
variable {given : List (String × Value)} (h : Gives names floats read P)
  (hg : ∀ entry ∈ given, entry.2.Within names floats) (name : String)
include h hg

theorem Gives.optionalField : Run.Yields (fun found => ∀ a, found = some a → P a) (fun _ => True)
    (Value.field given name none (Value.optional read)) := h.optional.field hg name nofun

theorem Gives.listField : Run.Yields (fun items => ∀ a ∈ items, P a) (fun _ => True)
    (Value.field given name [] (Value.list read)) := h.list.field hg name nofun

theorem Gives.namedField :
    Run.Yields (fun entries => Keyed.Distinct names entries ∧ ∀ entry ∈ entries, P entry.2)
    (fun _ => True) (Value.field given name [] (Value.named read)) :=
  h.named.field hg name ⟨⟨List.nodup_nil, nofun⟩, nofun⟩

end

end

end Yaml.Value

end CrdForge
