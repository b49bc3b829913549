import CrdForge.OpenApi.VendorKey
import CrdForge.Proofs.Yaml.FromJson

/-! What is left of a value without a vendor's key.

The key is looked for as a plain text, so nothing is left of it in a value
without tags: a key with a tag is read as the same name, but it is not taken
out. A value in which the key does not occur stays as it is. -/
namespace CrdForge.OpenApi

open Yaml (Value)

/-! ### One entry -/

section
variable {α : Type} {test : α → Bool} {items : List α}

theorem swapRemove_of_none (h : ∀ x ∈ items, test x = false) : swapRemove test items = items := by
  rw [swapRemove, List.findIdx?_eq_none_iff.mpr h]

theorem filter_of_none (h : ∀ x ∈ items, test x = false) : items.filter (fun x => !test x) = items :=
  List.filter_eq_self.mpr fun x hx => congrArg not (h x hx)

/-- The last element behind the one that is removed moves to the front of those behind it. -/
theorem swapRemove_append_cons {before after : List α} {first : α} (hb : ∀ x ∈ before, test x = false)
    (hf : test first = true) :
    swapRemove test (before ++ first :: after) = before ++ (after.getLast?.toList ++ after.dropLast) := by
  have hi : (before ++ first :: after).findIdx? test = some before.length := by
    rw [List.findIdx?_append, List.findIdx?_eq_none_iff.mpr hb, List.findIdx?_cons, hf]
    simp
  have hback : (before ++ first :: after).drop (before.length + 1) = after := by
    rw [List.drop_append, List.drop_eq_nil_of_le (Nat.le_succ _), Nat.add_sub_cancel_left]
    rfl
  rw [swapRemove, hi]
  dsimp only
  rw [hback, List.take_left]
  split
  · next hlast =>
    obtain rfl : after = [] := List.drop_eq_nil_of_le (Nat.le_of_eq hlast.symm) ▸ hback.symm
    simp
  · next hlast =>
    have hlt : ¬ (before ++ first :: after).length ≤ before.length + 1 := by
      rw [List.length_append, List.length_cons] at hlast ⊢
      omega
    rw [← List.append_assoc, ← hback, List.getLast?_drop, if_neg hlt, hback]

/-- If an element passes the test and at most one does, the others do not. -/
theorem test_others {before after : List α} {first : α}
    (hp : (before ++ first :: after).Pairwise fun a b => test a = true → test b = false)
    (hf : test first = true) :
    ∀ x ∈ before ++ after, test x = false := by
  obtain ⟨-, hback, hcross⟩ := List.pairwise_append.mp hp
  intro x hx
  rcases List.mem_append.mp hx with hx | hx
  · refine Bool.eq_false_iff.mpr fun ht => ?_
    exact Bool.eq_false_iff.mp (hcross x hx first (List.mem_cons_self ..) ht) hf
  · exact (List.pairwise_cons.mp hback).1 x hx hf

theorem filter_others {before after : List α} {first : α} (h : ∀ x ∈ before ++ after, test x = false)
    (hf : test first = true) : (before ++ first :: after).filter (fun x => !test x) = before ++ after := by
  rw [List.filter_append, List.filter_cons_of_neg (by simp [hf]), ← List.filter_append, filter_of_none h]

/-- What is left are the elements that do not pass the test, if at most one passes it. -/
theorem swapRemove_perm (hp : items.Pairwise fun a b => test a = true → test b = false) :
    (swapRemove test items).Perm (items.filter fun x => !test x) := by
  cases hfind : items.find? test with
  | none =>
    have hnone : ∀ x ∈ items, test x = false := by simpa using hfind
    rw [swapRemove_of_none hnone, filter_of_none hnone]
  | some first =>
    obtain ⟨hpass, before, after, rfl, -⟩ := List.find?_eq_some_iff_append.mp hfind
    have hothers := test_others hp hpass
    rw [swapRemove_append_cons (fun x hx => hothers x (List.mem_append_left _ hx)) hpass,
      filter_others hothers hpass]
    refine .append_left before ?_
    obtain rfl | ⟨front, last, rfl⟩ := after.eq_nil_or_concat
    · rfl
    · rw [List.concat_eq_append, List.getLast?_concat, List.dropLast_concat]
      exact List.perm_append_comm

/-- If at most one element passes the test, none that is left does. -/
theorem mem_swapRemove_of_pairwise {x : α} (hp : items.Pairwise fun a b => test a = true → test b = false)
    (h : x ∈ swapRemove test items) : x ∈ items ∧ test x = false := by
  obtain ⟨hx, ht⟩ := List.mem_filter.mp ((swapRemove_perm hp).mem_iff.mp h)
  exact ⟨hx, by simpa using ht⟩

end

/-! ### All entries -/

theorem withoutKeyInItems_eq (key : String) (items : List Value) :
    withoutKeyInItems key items = items.map (withoutKey key) := by
  induction items with
  | nil => rfl
  | cons item rest ih => rw [withoutKeyInItems, ih, List.map_cons]

theorem withoutKeyInEntries_eq (key : String) (entries : List (Value × Value)) :
    withoutKeyInEntries key entries = entries.map fun entry => (entry.1, withoutKey key entry.2) := by
  induction entries with
  | nil => rfl
  | cons entry rest ih => rw [withoutKeyInEntries, ih, List.map_cons, withoutKeyInEntry]

/-- JSON in which the key does not occur is written as a value that stays as it is. -/
theorem withoutKey_ofJson {key : String} {floats : Float → Prop} {value : Json}
    (h : value.Within (· ≠ key) floats) :
    withoutKey key (.ofJson value) = .ofJson value := by
  induction h with
  | @array items _ ih =>
    rw [Value.ofJson, withoutKey, withoutKeyInItems_eq, Value.itemsOfJson_eq, List.map_map]
    exact congrArg Value.sequence (List.map_congr_left ih)
  | @object entries hd _ ih =>
    have hentries : withoutKeyInEntries key (Value.entriesOfJson entries) = Value.entriesOfJson entries := by
      rw [withoutKeyInEntries_eq, Value.entriesOfJson_eq, List.map_map]
      exact List.map_congr_left fun entry he => congrArg (Prod.mk (Value.string entry.1)) (ih entry he)
    rw [Value.ofJson, withoutKey, hentries, swapRemove_of_none]
    rw [Value.entriesOfJson_eq]
    exact List.forall_mem_map.mpr fun entry he => beq_eq_false_iff_ne.mpr (hd.named entry he)
  | _ => rfl

/-- Whether no mapping has the same text as a key twice. -/
inductive Unique : Value → Prop
  | null : Unique .null
  | bool (value : Bool) : Unique (.bool value)
  | number (value : Number) : Unique (.number value)
  | string (value : String) : Unique (.string value)
  | sequence {items : List Value} : (∀ item ∈ items, Unique item) → Unique (.sequence items)
  | mapping {entries : List (Value × Value)} :
    (entries.Pairwise fun entry other => ∀ name, entry.1 = .string name → other.1 ≠ .string name) →
    (∀ entry ∈ entries, Unique entry.2) → Unique (.mapping entries)
  | tagged (tag : String) {value : Value} : Unique value → Unique (.tagged tag value)

theorem isKey_eq_true {key : String} {value : Value} : isKey key value = true ↔ value = .string key := by
  cases value with
  | string text => exact beq_iff_eq.trans ⟨congrArg Value.string, Value.string.inj⟩
  | _ => exact ⟨nofun, nofun⟩

/-- Without tags nothing is left of the key. -/
theorem within_withoutKey {key : String} {names : String → Prop} {floats : Float → Prop} {value : Value}
    (hu : Unique value) (ht : value.hasTag = false) (h : value.Within names floats) :
    (withoutKey key value).Within (· ≠ key) floats := by
  induction hu with
  | null => exact .null
  | bool value => exact .bool value
  | number value =>
    cases h with
    | int value => exact .int value
    | float hx => exact .float hx
  | string value => exact .string value
  | sequence _ ih =>
    cases h with
    | sequence h =>
      have htags := Value.itemsHaveTag_eq_false.mp ht
      rw [withoutKey, withoutKeyInItems_eq]
      exact .sequence (List.forall_mem_map.mpr fun item hm => ih item hm (htags item hm) (h item hm))
  | @mapping entries hp _ ih =>
    cases h with
    | mapping _ h =>
      have htags := Value.entriesHaveTag_eq_false.mp ht
      have hpair : (entries.map fun entry => (entry.1, withoutKey key entry.2)).Pairwise fun entry other =>
          isKey key entry.1 = true → isKey key other.1 = false := by
        refine List.pairwise_map.mpr (hp.imp fun hdiffer hfirst => Bool.eq_false_iff.mpr fun hother => ?_)
        exact hdiffer key (isKey_eq_true.mp hfirst) (isKey_eq_true.mp hother)
      have hkept : ∀ entry ∈ swapRemove (fun entry => isKey key entry.1) (withoutKeyInEntries key entries),
          (∃ given ∈ entries, entry = (given.1, withoutKey key given.2)) ∧ entry.1 ≠ .string key := by
        rw [withoutKeyInEntries_eq]
        intro entry he
        obtain ⟨hm, hkey⟩ := mem_swapRemove_of_pairwise hpair he
        obtain ⟨given, hg, rfl⟩ := List.mem_map.mp hm
        exact ⟨⟨given, hg, rfl⟩, fun hk => Bool.eq_false_iff.mp hkey (isKey_eq_true.mpr hk)⟩
      rw [withoutKey]
      refine .mapping (fun entry he name hname hk => ?_) fun entry he => ?_
      -- Only the plain text is taken out, but without tags nothing else is read as that name.
      · obtain ⟨⟨given, hg, rfl⟩, hne⟩ := hkept entry he
        exact hne (hk ▸ Value.eq_string_of_text (htags given hg).1 hname)
      · obtain ⟨⟨given, hg, rfl⟩, -⟩ := hkept entry he
        exact ih given hg (htags given hg).2 (h given hg)
  | tagged tag _ ih => cases ht

/-! ### Keys of mappings -/

/-- No object has two entries of a name. -/
theorem unique_ofJson {names : String → Prop} {floats : Float → Prop} {value : Json}
    (h : value.Within names floats) :
    Unique (.ofJson value) := by
  induction h with
  | null => exact .null
  | bool value => exact .bool value
  | int value => exact .number (.int value)
  | @float value _ => exact .number (.float value)
  | string value => exact .string value
  | array _ ih =>
    rw [Value.ofJson, Value.itemsOfJson_eq]
    exact .sequence (List.forall_mem_map.mpr ih)
  | object hd _ ih =>
    rw [Value.ofJson, Value.entriesOfJson_eq]
    refine .mapping (List.pairwise_map.mpr ((List.pairwise_map.mp hd.nodup).imp fun hne name he ho => hne ?_))
      (List.forall_mem_map.mpr ih)
    exact (Value.string.inj he).trans (Value.string.inj ho).symm

theorem Unique.withTag {value : Value} (h : Unique value) (tag : Option Yaml.Tag) :
    Unique (Yaml.withTag tag value) := by
  unfold Yaml.withTag
  split
  · exact .tagged _ h
  · exact h

theorem unique_scalarValue (tag : Option Yaml.Tag) (style : Yaml.ScalarStyle) (text : String) :
    Run.Yields Unique (fun _ => True) (Yaml.scalarValue tag style text) := by
  have hplain (scalar : Yaml.Scalar) : Run.Yields Unique (fun _ => True) (scalar.value text) := by
    cases scalar with
    | null => exact .null
    | bool value => exact .bool value
    | number value => exact .number value
    | hugeInteger => trivial
    | text => exact .string text
  have huntagged : Run.Yields Unique (fun _ => True)
      (if style = .plain then (Yaml.Scalar.ofPlain text).value text else .ok (.string text)) := by
    split
    · exact hplain _
    · exact .string text
  unfold Yaml.scalarValue
  dsimp only
  split
  · exact huntagged
  · exact huntagged
  · exact huntagged
  · exact .string text
  · split
    · exact .bool _
    · trivial
  · split
    · exact hplain _
    · trivial
  · split
    · exact .number _
    · trivial
  · split
    · exact .null
    · trivial

theorem itemValues_eq (items : List Yaml.Node) : Yaml.itemValues items = items.mapM Yaml.Node.value := by
  induction items with
  | nil => rfl
  | cons item rest ih => rw [Yaml.itemValues, ih, List.mapM_cons]

/-- Each entry is read after it was compared with those before it. -/
theorem unique_entryValues {entries : List (Yaml.Node × Yaml.Node)}
    (h : ∀ entry ∈ entries, Run.Yields Unique (fun _ => True) entry.2.value) {read : List (Value × Value)}
    (hr : Unique (.mapping read)) :
    Run.Yields (fun values => Unique (.mapping values)) (fun _ => True) (Yaml.entryValues entries read) := by
  induction entries generalizing read with
  | nil => exact hr
  | cons entry rest ih =>
    obtain ⟨hfirst, hrest⟩ := List.forall_mem_cons.mp h
    have hentry : Run.Yields (fun value => Unique value.2) (fun _ => True) (Yaml.entryValue entry) := by
      rw [Yaml.entryValue]
      refine (Run.Yields.self entry.1.value fun _ => trivial).bind fun key _ => ?_
      exact hfirst.bind fun value hv => .pure hv
    rw [Yaml.entryValues]
    refine hentry.bind fun value hv => ?_
    dsimp only
    split
    · trivial
    · next hkey =>
      refine ih hrest ?_
      cases hr with
      | mapping hp hr =>
        refine .mapping
          (List.pairwise_append.mpr ⟨hp, List.pairwise_singleton .., fun other ho last hl => ?_⟩) ?_
        · intro name he hlast
          obtain rfl := List.mem_singleton.mp hl
          refine hkey (List.any_eq_true.mpr ⟨other, ho, ?_⟩)
          rw [he, show value.1 = .string name from hlast]
          exact beq_self_eq_true name
        · exact List.forall_mem_append.mpr ⟨hr, List.forall_mem_singleton.mpr hv⟩

/-- The value of a node has no text as a key twice. -/
theorem unique_value : ∀ node : Yaml.Node, Run.Yields Unique (fun _ => True) node.value
  | .scalar tag style text => (unique_scalarValue tag style text).bind fun _ hv => .pure (hv.withTag tag)
  | .sequence tag items => by
    rw [Yaml.Node.value, itemValues_eq]
    refine (Run.Yields.mapM fun item _ => unique_value item).bind fun values hv => ?_
    exact .pure (Unique.withTag (.sequence hv) tag)
  | .mapping tag entries => by
    rw [Yaml.Node.value]
    refine (unique_entryValues (fun entry _ => unique_value entry.2) (.mapping .nil nofun)).bind
      fun values hv => ?_
    exact .pure (hv.withTag tag)
  | .beyondBounds => trivial
termination_by node => sizeOf node
decreasing_by
  · decreasing_tactic
  · next hm =>
    have hlt := List.sizeOf_lt_of_mem hm
    rw [Prod.mk.sizeOf_spec] at hlt
    rw [Yaml.Node.mapping.sizeOf_spec]
    omega

end CrdForge.OpenApi
