import CrdForge.Proofs.Json.Entries
import CrdForge.Yaml.Reading

/-! Trees that show JSON values, and what is read from them.

A tree shows a value if it is one of the ways to write that value without aliases and tags: texts in any
style in which they stay texts. What reads the value of every tree that shows it `Restores` it, and
structures are put together from what restores their fields. -/
namespace CrdForge.Yaml

/-! ### Trees of values -/

/-- Whether an unquoted text is taken for nothing but itself. -/
def isPlainText (text : String) : Bool :=
  match Scalar.ofPlain text with
  | .text => true
  | _ => false

mutual
/-- Whether a tree is a way to write a value. -/
def Tree.shows (tree : Tree) (value : Json) : Bool :=
  match tree with
  | .scalar none style text =>
    match value, style with
    | .string value, style => text == value && (style != .plain || isPlainText text)
    | .bool value, .plain => text == if value then "true" else "false"
    | .number n, .plain => text == Json.numberText n
    | .null, .plain => text == "null"
    | _, _ => false
  | .sequence none trees =>
    match value with
    | .array items => itemsShow trees items
    | _ => false
  | .mapping none entries =>
    match value with
    | .object named => entriesShow entries named
    | _ => false
  | _ => false
termination_by structural tree

def itemsShow : List Tree → List Json → Bool
  | [], [] => true
  | tree :: trees, item :: items => tree.shows item && itemsShow trees items
  | _, _ => false
termination_by structural x => x

def entriesShow : List (Tree × Tree) → List (String × Json) → Bool
  | [], [] => true
  | entry :: entries, value :: named => entryShows entry value && entriesShow entries named
  | _, _ => false
termination_by structural x => x

def entryShows : Tree × Tree → String × Json → Bool
  | (key, tree), (name, value) => key.shows (.string name) && tree.shows value
termination_by structural x => x
end

theorem shows_doubleQuoted (text : String) :
    (Tree.scalar none .doubleQuoted text).shows (.string text) = true := by
  simp [Tree.shows]

mutual
/-- The tree of a value shows it. -/
theorem shows_ofJson (value : Json) : (Tree.ofJson value).shows value = true := by
  cases value with
  | string text => exact shows_doubleQuoted text
  | array items => exact itemsShow_ofJson items
  | object named => exact entriesShow_ofJson named
  | _ => simp [Tree.ofJson, Tree.shows]

theorem itemsShow_ofJson (items : List Json) : itemsShow (Tree.ofJson.itemsOfJson items) items = true := by
  cases items with
  | nil => rfl
  | cons item rest =>
    rw [Tree.ofJson.itemsOfJson, itemsShow, shows_ofJson item, itemsShow_ofJson rest, Bool.true_and]

theorem entriesShow_ofJson (named : List (String × Json)) :
    entriesShow (Tree.ofJson.entriesOfJson named) named = true := by
  cases named with
  | nil => rfl
  | cons entry rest =>
    rw [Tree.ofJson.entriesOfJson, entriesShow, entryShows, shows_doubleQuoted, shows_ofJson entry.2,
      entriesShow_ofJson rest, Bool.and_true, Bool.and_true]
end

/-! ### What is shown -/

section
variable {tree : Tree}

theorem scalar_of_shows {value : String} (h : tree.shows (.string value) = true) : ∃ style,
    tree = .scalar none style value ∧ (style = .plain → isPlainText value = true) := by
  rcases tree with _ | ⟨_ | _, style, text⟩ | ⟨_ | _, _⟩ | ⟨_ | _, _⟩ <;> try cases h
  case scalar.none =>
    rw [Tree.shows, Bool.and_eq_true, Bool.or_eq_true, beq_iff_eq, bne_iff_ne] at h
    obtain ⟨rfl, hs⟩ := h
    exact ⟨style, rfl, fun hp => hs.resolve_left fun hn => hn hp⟩

theorem plain_of_shows {value : Bool} (h : tree.shows (.bool value) = true) :
    tree = .scalar none .plain (if value then "true" else "false") := by
  rcases tree with _ | ⟨_ | _, _ | _, text⟩ | ⟨_ | _, _⟩ | ⟨_ | _, _⟩ <;> try cases h
  case scalar.none.plain =>
    rw [Tree.shows, beq_iff_eq] at h
    rw [h]

theorem forall₂_of_itemsShow : ∀ {trees : List Tree} {items : List Json}, itemsShow trees items = true →
    List.Forall₂ (fun tree item => tree.shows item = true) trees items
  | [], [], _ => .nil
  | [], _ :: _, h | _ :: _, [], h => by cases h
  | tree :: trees, item :: items, h => by
    rw [itemsShow, Bool.and_eq_true] at h
    exact .cons h.1 (forall₂_of_itemsShow h.2)

theorem sequence_of_shows {items : List Json} (h : tree.shows (.array items) = true) :
    ∃ trees, tree = .sequence none trees ∧
      List.Forall₂ (fun tree item => tree.shows item = true) trees items := by
  rcases tree with _ | ⟨_ | _, _ | _, _⟩ | ⟨_ | _, trees⟩ | ⟨_ | _, _⟩ <;> try cases h
  case sequence.none => exact ⟨trees, rfl, forall₂_of_itemsShow (by rwa [Tree.shows] at h)⟩

theorem forall₂_of_entriesShow : ∀ {entries : List (Tree × Tree)} {named : List (String × Json)},
    entriesShow entries named = true → List.Forall₂
      (fun entry value => entry.1.shows (.string value.1) = true ∧ entry.2.shows value.2 = true) entries named
  | [], [], _ => .nil
  | [], _ :: _, h | _ :: _, [], h => by cases h
  | entry :: entries, value :: named, h => by
    rw [entriesShow, entryShows, Bool.and_eq_true, Bool.and_eq_true] at h
    exact .cons h.1 (forall₂_of_entriesShow h.2)

theorem mapping_of_shows {named : List (String × Json)} (h : tree.shows (.object named) = true) :
    ∃ entries, tree = .mapping none entries ∧ List.Forall₂
      (fun entry value => entry.1.shows (.string value.1) = true ∧ entry.2.shows value.2 = true)
        entries named := by
  rcases tree with _ | ⟨_ | _, _ | _, _⟩ | ⟨_ | _, _⟩ | ⟨_ | _, entries⟩ <;> try cases h
  case mapping.none => exact ⟨entries, rfl, forall₂_of_entriesShow (by rwa [Tree.shows] at h)⟩

end

namespace Reading

/-! ### What is read -/

variable {α β : Type}

/-- Whether reading comes to a result, whatever the document is, and follows no alias. -/
def Reads (step : Reading α) (a : α) : Prop := ∀ document left, step document left = .ok (a, left)

theorem reads_pure (a : α) : Reads (pure a) a := fun _ _ => rfl

theorem Reads.bind {step : Reading α} {next : α → Reading β} {a : α} {b : β} (h : Reads step a)
    (h' : Reads (next a) b) : Reads (step >>= next) b := by
  intro document left
  show (step document left).bind _ = _
  rw [h document left]
  exact h' document left

theorem Reads.map {step : Reading α} {a : α} (h : Reads step a) (f : α → β) : Reads (f <$> step) (f a) := by
  rw [map_eq_pure_bind]
  exact h.bind (reads_pure _)

theorem reads_mapM {γ : Type} {read : γ → Reading α} {trees : List γ} {values : List α}
    (h : List.Forall₂ (fun tree value => Reads (read tree) value) trees values) :
    Reads (trees.mapM read) values := by
  induction h with
  | nil => exact reads_pure []
  | cons hx _ ih =>
    rw [List.mapM_cons]
    exact hx.bind (ih.bind (reads_pure _))

/-- What is no alias is found where it stands. -/
theorem reads_follow {tree : Tree} (h : ∀ anchor, tree ≠ .alias anchor) : Reads (follow tree) tree := by
  intro document left
  rcases tree with anchor | _ | _ | _
  · exact absurd rfl (h anchor)
  all_goals rfl

/-! ### Restored values -/

/-- Whether a value is read from every tree that shows it. -/
def Restores (toJson : α → Json) (read : Tree → Reading α) : Prop :=
  ∀ a tree, tree.shows (toJson a) = true → Reads (read tree) a

theorem restores_text : Restores Json.string text := by
  intro value tree h
  obtain ⟨style, rfl, -⟩ := scalar_of_shows h
  exact (reads_follow (by simp)).bind (reads_pure value)

theorem restores_flag : Restores Json.bool flag := by
  intro value tree h
  obtain rfl := plain_of_shows h
  refine (reads_follow (by simp)).bind ?_
  cases value <;> exact reads_pure _

/-- A text that is there is no word for null. -/
theorem reads_optional {value : String} {tree : Tree} (h : tree.shows (.string value) = true) :
    Reads (optional text tree) (some value) := by
  have hread := (restores_text value tree h).map some
  obtain ⟨style, rfl, hplain⟩ := scalar_of_shows h
  refine (reads_follow (by simp)).bind ?_
  by_cases hs : style = .plain
  · subst hs
    have hnull : Scalar.isNull value = false := by
      have hp := hplain rfl
      cases hn : Scalar.isNull value with
      | false => rfl
      | true => simp [isPlainText, Scalar.ofPlain, hn] at hp
    simp only [hnull]
    exact hread
  · cases style <;> first | exact absurd rfl hs | exact hread

theorem Restores.list {toJson : α → Json} {read : Tree → Reading α} (h : Restores toJson read) :
    Restores (fun values => .array (values.map toJson)) (list read) := by
  intro values tree hs
  obtain ⟨trees, rfl, ht⟩ := sequence_of_shows hs
  refine (reads_follow (by simp)).bind (reads_mapM ?_)
  exact (List.forall₂_map_right_iff.mp ht).imp fun tree value hv => h value tree hv

theorem restores_texts : Restores Json.strings (Reading.list text) := restores_text.list

/-! ### Fields -/

/-- Fields whose trees show named values. -/
def Given (given : List (String × Tree)) (named : List (String × Json)) : Prop :=
  List.Forall₂ (fun field value => field.1 = value.1 ∧ field.2.shows value.2 = true) given named

/-- The fields of a structure. -/
theorem reads_fields {tree : Tree} {named : List (String × Json)} (h : tree.shows (.object named) = true) :
    ∃ given, Reads (fields tree) given ∧ Given given named := by
  obtain ⟨entries, rfl, he⟩ := mapping_of_shows h
  suffices ∃ given, Reads (entries.mapM fun entry => do return (← text entry.1, entry.2)) given ∧
      Given given named by
    obtain ⟨given, hr, hg⟩ := this
    exact ⟨given, (reads_follow (by simp)).bind hr, hg⟩
  clear h
  induction he with
  | nil => exact ⟨[], reads_pure [], .nil⟩
  | @cons entry value entries named hfirst _ ih =>
    obtain ⟨given, hr, hg⟩ := ih
    refine ⟨(value.1, entry.2) :: given, ?_, .cons ⟨rfl, hfirst.2⟩ hg⟩
    rw [List.mapM_cons]
    have hentry : Reads (do return (← text entry.1, entry.2)) (value.1, entry.2) :=
      (restores_text value.1 entry.1 hfirst.1).bind (reads_pure (value.1, entry.2))
    exact hentry.bind (hr.bind (reads_pure _))

namespace Given
variable {given : List (String × Tree)} {named : List (String × Json)} {name : String} {value : Json}
  {read : Tree → Reading α} {a otherwise : α} (h : Given given named)
include h

theorem filter (name : String) : Given (given.filter (·.1 == name)) (named.filter (·.1 == name)) := by
  induction h with
  | nil => exact .nil
  | @cons field value given named hfirst _ ih =>
    rw [List.filter_cons, List.filter_cons, hfirst.1]
    split
    · exact .cons hfirst ih
    · exact ih

theorem single (hn : named.filter (·.1 == name) = [(name, value)]) :
    ∃ tree, given.filter (·.1 == name) = [(name, tree)] ∧ tree.shows value = true := by
  have hf := h.filter name
  rw [hn] at hf
  generalize given.filter (·.1 == name) = found at hf
  cases hf with
  | @cons field _ _ _ hfirst hrest =>
    cases hrest
    obtain ⟨field, tree⟩ := field
    obtain ⟨rfl, hs⟩ := hfirst
    exact ⟨tree, rfl, hs⟩

theorem required (hr : ∀ tree, tree.shows value = true → Reads (read tree) a)
    (hn : named.filter (·.1 == name) = [(name, value)]) : Reads (requiredField given name read) a := by
  obtain ⟨tree, hf, hs⟩ := h.single hn
  rw [requiredField, hf]
  exact hr tree hs

theorem field (hr : ∀ tree, tree.shows value = true → Reads (read tree) a)
    (hn : named.filter (·.1 == name) = [(name, value)]) : Reads (field given name otherwise read) a := by
  obtain ⟨tree, hf, hs⟩ := h.single hn
  rw [Reading.field, hf]
  exact hr tree hs

theorem absent (a : α) (read : Tree → Reading α) (hn : named.filter (·.1 == name) = []) :
    Reads (Reading.field given name a read) a := by
  have hf := h.filter name
  rw [hn] at hf
  rw [Reading.field, List.forall₂_nil_right_iff.mp hf]
  exact reads_pure a

/-- A text that is left out when it is not there. -/
theorem optional (value : Option String)
    (hn : named.filter (·.1 == name) = Json.optional name (value.map .string)) :
    Reads (Reading.field given name none (Reading.optional text)) value := by
  cases value with
  | none => exact h.absent none _ hn
  | some value => exact h.field (fun _ hs => reads_optional hs) hn

end Given

end Reading

end CrdForge.Yaml
