import CrdForge.Proofs.Text.Lower
import CrdForge.Text.Plural

/-! The plural of a word in lower case is such a word.

A rule takes characters of the word and adds an ending of its own, so it brings in no capital letters; and it
leaves something, since a rule without an ending to add has a stem to keep. -/
namespace CrdForge.Text.Plural

/-! ### Single rules -/

theorem dropEnding_subset {text ending rest : List Char} (h : dropEnding text ending = some rest) :
    rest ⊆ text := by
  induction ending generalizing text with
  | nil =>
    cases text <;> cases h <;> exact List.Subset.refl _
  | cons e ending ih =>
    cases text with
    | nil => simp [dropEnding] at h
    | cons c text =>
      rw [dropEnding] at h
      split at h
      · exact List.subset_cons_of_subset c (ih h)
      · cases h

theorem splitStem_spec {text : List Char} {stem : List Slot} {taken left : List Char}
    (h : splitStem text stem = some (taken, left)) :
    taken ⊆ text ∧ left ⊆ text ∧ taken.length = stem.length := by
  induction stem generalizing text taken with
  | nil =>
    cases text <;> cases h <;> exact ⟨List.nil_subset _, List.Subset.refl _, rfl⟩
  | cons slot stem ih =>
    cases text with
    | nil => simp [splitStem] at h
    | cons c text =>
      rw [splitStem] at h
      split at h
      · obtain ⟨⟨taken, left⟩, hs, he⟩ := Option.map_eq_some_iff.mp h
        cases he
        obtain ⟨ht, hl, hlen⟩ := ih hs
        refine ⟨List.cons_subset_cons c ht, List.subset_cons_of_subset c hl, ?_⟩
        rw [List.length_cons, List.length_cons, hlen]
      · cases h

/-- A rule makes a word of characters of the word before and of its
replacement, after as many characters as one of its stems has. -/
theorem result?_spec {rule : Rule} {word changed : String} (h : rule.result? word = some changed) :
    ∃ kept, changed = String.ofList kept ++ rule.replacement ∧ kept ⊆ word.toList ∧
      ∃ stem ∈ rule.stems, stem.length ≤ kept.length := by
  obtain ⟨ending, _, he⟩ := List.exists_of_findSome?_eq_some h
  obtain ⟨before, hd, he⟩ := Option.bind_eq_some_iff.mp he
  obtain ⟨stem, hm, hs⟩ := List.exists_of_findSome?_eq_some he
  obtain ⟨⟨taken, left⟩, hsplit, rfl⟩ := Option.map_eq_some_iff.mp hs
  obtain ⟨ht, hl, hlen⟩ := splitStem_spec hsplit
  have hbefore : before ⊆ word.toList := fun c hc => by simpa using dropEnding_subset hd hc
  refine ⟨_, rfl, fun c hc => ?_, stem, hm, ?_⟩
  · rcases List.mem_append.mp (List.mem_reverse.mp hc) with hc | hc
    · exact hbefore (ht hc)
    · exact hbefore (hl (List.takeWhile_subset _ hc))
  · rw [List.length_reverse, List.length_append, hlen, List.length_reverse]
    exact Nat.le_add_right _ _

/-! ### Words -/

/-- Endings are in lower case, and a rule that adds none keeps a stem. -/
theorem rules_sound : (rules.all fun rule => (rule.replacement.toList.all fun c => lowerChar c == [c] &&
    c.toNat != 0x3a3) && (rule.replacement != "" || rule.stems.all fun stem => !stem.isEmpty)) = true := by
  decide +kernel

theorem irregular_sound : (irregular.all fun own => (own.2.toList.all fun c => lowerChar c == [c] &&
    c.toNat != 0x3a3) && own.2 != "") = true := by decide +kernel

theorem isLow_of_check {text : String}
    (h : (text.toList.all fun c => lowerChar c == [c] && c.toNat != 0x3a3) = true) :
    ∀ c ∈ text.toList, IsLow c := by
  intro c hc
  have hl := List.all_eq_true.mp h c hc
  rw [Bool.and_eq_true, beq_iff_eq, bne_iff_ne] at hl
  exact hl

theorem plural_sound {word : String} (hw : ∀ c ∈ word.toList, IsLow c) (hne : word ≠ "") :
    (∀ c ∈ (plural word).toList, IsLow c) ∧ plural word ≠ "" := by
  rw [plural]
  split
  · exact ⟨hw, hne⟩
  · split
    · next own ho =>
      have hm : (word, own) ∈ irregular := by
        obtain ⟨before, after, he⟩ := List.lookup_eq_some_iff.mp ho
        rw [he.1]
        simp
      have hs := List.all_eq_true.mp irregular_sound _ hm
      rw [Bool.and_eq_true, bne_iff_ne] at hs
      exact ⟨isLow_of_check hs.1, hs.2⟩
    · split
      · next changed hc =>
        obtain ⟨rule, hm, hr⟩ := List.exists_of_findSome?_eq_some hc
        have hs := List.all_eq_true.mp rules_sound rule hm
        rw [Bool.and_eq_true, Bool.or_eq_true, bne_iff_ne] at hs
        obtain ⟨kept, rfl, hk, stem, hstem, hlen⟩ := result?_spec hr
        refine ⟨fun c hc => ?_, fun he => ?_⟩
        · rw [String.toList_append, String.toList_ofList, List.mem_append] at hc
          exact hc.elim (fun hc => hw c (hk hc)) (isLow_of_check hs.1 c)
        · have hl := congrArg String.toList he
          rw [String.toList_append, String.toList_ofList, String.toList_empty, List.append_eq_nil_iff] at hl
          rcases hs.2 with hn | hn
          · exact hn (String.toList_eq_nil_iff.mp hl.2)
          · have hpos := List.all_eq_true.mp hn stem hstem
            rw [hl.1, List.length_nil, Nat.le_zero] at hlen
            simp [List.eq_nil_of_length_eq_zero hlen] at hpos
      · refine ⟨fun c hc => ?_, by simp⟩
        rw [String.toList_append, List.mem_append] at hc
        exact hc.elim (hw c) (isLow_of_check (by decide +kernel) c)

/-- The plural of a name in lower case is one, and is not empty. -/
theorem lower_plural {name : String} (h : name ≠ "") :
    Text.lower (plural (Text.lower name)) = plural (Text.lower name) ∧ plural (Text.lower name) ≠ "" := by
  obtain ⟨hl, hn⟩ := plural_sound (isLow_lower name) (lower_ne_empty h)
  exact ⟨lower_of_isLow hl, hn⟩

end CrdForge.Text.Plural
