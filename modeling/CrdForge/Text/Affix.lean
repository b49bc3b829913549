/-! Texts that start with or follow another. -/
namespace CrdForge.Text

/-- What follows the given start of a text. -/
def after? (start text : String) : Option String :=
  if start.toList.isPrefixOf text.toList then some (String.ofList (text.toList.drop start.toList.length))
  else none

theorem after?_eq_some_iff {start text rest : String} :
    after? start text = some rest ↔ text = start ++ rest := by
  rw [after?]
  constructor
  · intro h
    split at h
    · next hp =>
      obtain ⟨more, hm⟩ := List.isPrefixOf_iff_prefix.mp hp
      obtain rfl := Option.some.inj h
      apply String.toList_inj.mp
      simp [← hm]
    · cases h
  · rintro rfl
    simp

/-- Whether a text starts with another. -/
def startsWith (start text : String) : Bool := start.toList.isPrefixOf text.toList

/-- What stands before and after the first occurrence of a character. -/
def splitAt? (mark : Char) (text : String) : Option (String × String) :=
  match text.toList.dropWhile (· != mark) with
  | _ :: rest => some (String.ofList (text.toList.takeWhile (· != mark)), String.ofList rest)
  | [] => none

theorem splitAt?_eq_some_iff {mark : Char} {text before after : String} :
    splitAt? mark text = some (before, after) ↔
      text = before ++ String.singleton mark ++ after ∧ mark ∉ before.toList := by
  rw [splitAt?]
  constructor
  · intro h
    split at h
    · next c rest hrest =>
      obtain ⟨rfl, rfl⟩ := Prod.mk.inj (Option.some.inj h)
      -- What is left starts with the mark, since characters were taken up to it.
      have hne : text.toList.dropWhile (· != mark) ≠ [] := by simp [hrest]
      obtain rfl : c = mark := by simpa [hrest] using List.head_dropWhile_not (· != mark) hne
      constructor
      · apply String.toList_inj.mp
        simp [← hrest]
      · intro hm
        rw [String.toList_ofList] at hm
        simpa using List.all_eq_true.mp List.all_takeWhile c hm
    · cases h
  · rintro ⟨rfl, hm⟩
    have hbefore : ∀ c ∈ before.toList, (c != mark) = true := by
      intro c hc
      apply bne_iff_ne.mpr
      rintro rfl
      exact hm hc
    have hsplit : (before ++ String.singleton mark ++ after).toList =
      before.toList ++ mark :: after.toList := by simp
    rw [hsplit, List.dropWhile_append_of_pos hbefore, List.takeWhile_append_of_pos hbefore]
    simp

/-- What stands between the occurrences of a character. -/
def splitAll (mark : Char) : List Char → List (List Char)
  | [] => [[]]
  | c :: rest =>
    if c = mark then [] :: splitAll mark rest
    else match splitAll mark rest with
      | [] => [[c]]
      | part :: parts => (c :: part) :: parts

/-- What follows the last occurrence of a character, or the whole text. -/
def afterLast (mark : Char) (text : String) : String :=
  String.ofList (text.toList.reverse.takeWhile (· != mark)).reverse

end CrdForge.Text
