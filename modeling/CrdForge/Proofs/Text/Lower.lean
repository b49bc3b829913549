import CrdForge.Text.Case

/-! Texts in lower case stay as they are when they are lower-cased.

Lower-casing sends runs of code points to others. No code point that is reached lies in a run itself, which is
checked run by run and not character by character. -/
namespace CrdForge.Text

/-- Whether lower-casing leaves a character alone wherever it stands. -/
def IsLow (c : Char) : Prop := lowerChar c = [c] ∧ c.toNat ≠ 0x3a3

/-! ### Runs -/

namespace CaseRun

/-- Whether a run sends a code point on. -/
def Covers (run : CaseRun) (point : Nat) : Prop :=
  run.first ≤ point ∧ point ≤ run.last ∧ (point - run.first) % run.step = 0

/-- Whether code points from `first` up to `last` in steps stay clear of a run. Where they lie among
those of the run, both take every second one. -/
def misses (first last step : Nat) (run : CaseRun) : Bool :=
  last.blt run.first || run.last.blt first ||
    (run.step == 2 && (step == 2 || first == last) && (first - run.first) % 2 == 1)

/-- Whether what a run sends to `first` up to `last` is lower-case. Only the
Kelvin sign is sent from beyond ASCII into it. -/
def settles (run : CaseRun) (first last : Nat) : Bool :=
  decide (0 ≤ (run.first : Int) + run.shift) && lowerRuns.toList.all (misses first last run.step) &&
    (last.blt 0x130 || Nat.blt 0x130 first) && (last.blt 0x3a3 || Nat.blt 0x3a3 first) &&
    (Nat.ble 0x80 first || run.last.blt 0x80 || (first == 0x6b && last == 0x6b)) &&
    (last.blt 0xd800 || (Nat.blt 0xdfff first && last.blt 0x110000))

theorem lowerRuns_settle : (lowerRuns.toList.all fun run =>
    run.settles ((run.first : Int) + run.shift).toNat ((run.last : Int) + run.shift).toNat) = true := by
  decide +kernel

theorem covers_of_image {point image : Nat} (h : image? lowerRuns point = some image) :
    ∃ run ∈ lowerRuns.toList, run.Covers point ∧ image = ((point : Int) + run.shift).toNat := by
  obtain ⟨run, hf, rfl⟩ := Option.map_eq_some_iff.mp h
  have hc := Array.find?_some hf
  simp only [Bool.and_eq_true, decide_eq_true_eq, beq_iff_eq, and_assoc] at hc
  exact ⟨run, by simpa using Array.mem_of_find?_eq_some hf, hc, rfl⟩

theorem image?_none {point : Nat} (h : ∀ run ∈ lowerRuns.toList, ¬ run.Covers point) :
    image? lowerRuns point = none := by
  refine Option.map_eq_none_iff.mpr (Array.find?_eq_none.mpr fun run hm hc => ?_)
  simp only [Bool.and_eq_true, decide_eq_true_eq, beq_iff_eq, and_assoc] at hc
  exact h run (by simpa using hm) hc

/-- What a run is sent to lies in no run. -/
theorem not_covers_of_misses {run other : CaseRun} {point : Nat} (hc : run.Covers point)
    (hm : misses ((run.first : Int) + run.shift).toNat
      ((run.last : Int) + run.shift).toNat run.step other = true) :
    ¬ other.Covers ((point : Int) + run.shift).toNat := by
  obtain ⟨hfirst, hlast, hstep⟩ := hc
  rintro ⟨hfirst', hlast', hstep'⟩
  simp only [misses, Bool.or_eq_true, Bool.and_eq_true, Nat.blt_eq, beq_iff_eq] at hm
  rcases hm with (hm | hm) | ⟨⟨htwo, hm⟩, hodd⟩
  · omega
  · omega
  · rw [htwo] at hstep'
    rcases hm with hm | hm
    · rw [hm] at hstep
      omega
    · omega

end CaseRun

/-! ### Characters -/

theorem toNat_ofNat {point : Nat} (h : point < 0xd800 ∨ 0xdfff < point ∧ point < 0x110000) :
    (Char.ofNat point).toNat = point := by
  rw [Char.ofNat, dif_pos h]
  rfl

theorem isLow_image {point image : Nat} (h : CaseRun.image? lowerRuns point = some image)
    (hp : 0x80 ≤ point) :
    IsLow (Char.ofNat image) := by
  obtain ⟨run, hm, hc, rfl⟩ := CaseRun.covers_of_image h
  have hs := List.all_eq_true.mp CaseRun.lowerRuns_settle run hm
  simp only [CaseRun.settles, Bool.and_eq_true, Bool.or_eq_true, decide_eq_true_eq, Nat.blt_eq, Nat.ble_eq,
    beq_iff_eq, List.all_eq_true] at hs
  obtain ⟨⟨⟨⟨⟨hpos, hmiss⟩, hdotted⟩, hsigma⟩, hascii⟩, hvalid⟩ := hs
  have hnone : CaseRun.image? lowerRuns ((point : Int) + run.shift).toNat = none :=
    CaseRun.image?_none fun other ho => CaseRun.not_covers_of_misses hc (hmiss other ho)
  obtain ⟨hfirst, hlast, -⟩ := hc
  generalize himage : ((point : Int) + run.shift).toNat = image at hnone
  have hnat : (Char.ofNat image).toNat = image := toNat_ofNat (by omega)
  refine ⟨?_, by rw [hnat]; omega⟩
  by_cases hk : image < 0x80
  · obtain rfl : image = 0x6b := by omega
    decide
  · rw [lowerChar, hnat, if_neg hk, if_neg (by omega), hnone]

/-- The combining dot and the two small sigmas lie in no run. -/
theorem image?_special {point : Nat} (h : point ∈ [0x307, 0x3c2, 0x3c3]) :
    CaseRun.image? lowerRuns point = none := by
  have hall : ([0x307, 0x3c2, 0x3c3].all fun point => lowerRuns.toList.all fun run =>
      point.blt run.first || run.last.blt point || (point - run.first) % run.step != 0) = true := by
        decide +kernel
  refine CaseRun.image?_none fun run hm ⟨hfirst, hlast, hstep⟩ => ?_
  have hc := List.all_eq_true.mp (List.all_eq_true.mp hall point h) run hm
  simp only [Bool.or_eq_true, Nat.blt_eq, bne_iff_ne] at hc
  omega

theorem isLow_special {c : Char} (h : c.toNat ∈ [0x307, 0x3c2, 0x3c3]) : IsLow c := by
  have hp : c.toNat = 0x307 ∨ c.toNat = 0x3c2 ∨ c.toNat = 0x3c3 := by simpa using h
  refine ⟨?_, by omega⟩
  rw [lowerChar, if_neg (by omega), if_neg (by omega), image?_special h]

theorem isLow_toLower :
    ((List.range 128).all fun n => lowerChar (Char.ofNat n).toLower == [(Char.ofNat n).toLower] &&
    (Char.ofNat n).toLower.toNat != 0x3a3) = true := by decide +kernel

/-- What a character is lower-cased to is lower-case. -/
theorem isLow_of_mem_lowerChar {c d : Char} (h : d ∈ lowerChar c) (hc : c.toNat ≠ 0x3a3) : IsLow d := by
  rw [lowerChar] at h
  split at h
  · next hascii =>
    obtain rfl := List.mem_singleton.mp h
    have hl := List.all_eq_true.mp isLow_toLower c.toNat (List.mem_range.mpr hascii)
    rw [Char.ofNat_toNat, Bool.and_eq_true, beq_iff_eq, bne_iff_ne] at hl
    exact hl
  · next hascii =>
    split at h
    · rcases List.mem_cons.mp h with rfl | h
      · exact ⟨by decide, by decide⟩
      · obtain rfl := List.mem_singleton.mp h
        exact isLow_special (by decide)
    · next hdotted =>
      split at h
      · next image hi =>
        obtain rfl := List.mem_singleton.mp h
        exact isLow_image hi (by omega)
      · next hi =>
        obtain rfl := List.mem_singleton.mp h
        refine ⟨?_, hc⟩
        rw [lowerChar, if_neg hascii, if_neg hdotted, hi]

/-! ### Texts -/

theorem isLow_of_mem_lowerAfter {before chars : List Char} {d : Char}
    (h : d ∈ lowerAfter before chars) : IsLow d := by
  induction chars generalizing before with
  | nil => simp [lowerAfter] at h
  | cons c rest ih =>
    rw [lowerAfter, List.mem_append] at h
    rcases h with h | h
    · split at h
      · obtain rfl := List.mem_singleton.mp h
        split <;> exact isLow_special (by decide)
      · next hc => exact isLow_of_mem_lowerChar h hc
    · exact ih h

theorem lowerAfter_of_isLow {before chars : List Char} (h : ∀ c ∈ chars, IsLow c) :
    lowerAfter before chars = chars := by
  induction chars generalizing before with
  | nil => rfl
  | cons c rest ih =>
    obtain ⟨hl, hc⟩ := h c (List.mem_cons_self ..)
    rw [lowerAfter, if_neg hc, hl, ih fun d hd => h d (List.mem_cons_of_mem _ hd)]
    rfl

/-- Lower-casing leaves nothing but lower-case characters. -/
theorem isLow_lower (text : String) : ∀ c ∈ (lower text).toList, IsLow c := by
  intro c h
  rw [lower, String.toList_ofList] at h
  exact isLow_of_mem_lowerAfter h

theorem lower_of_isLow {text : String} (h : ∀ c ∈ text.toList, IsLow c) : lower text = text := by
  rw [lower, lowerAfter_of_isLow h, String.ofList_toList]

theorem lowerChar_ne_nil (c : Char) : lowerChar c ≠ [] := by
  rw [lowerChar]
  split
  · simp
  · split
    · simp
    · split <;> simp

theorem lower_ne_empty {text : String} (h : text ≠ "") : lower text ≠ "" := by
  intro he
  have hl : lowerAfter [] text.toList = [] := by
    rw [← String.toList_ofList (l := lowerAfter [] text.toList), ← lower, he]
    rfl
  cases ht : text.toList with
  | nil => exact h (String.toList_eq_nil_iff.mp ht)
  | cons c rest =>
    rw [ht, lowerAfter, List.append_eq_nil_iff] at hl
    have hc := hl.1
    split at hc
    · simp at hc
    · exact lowerChar_ne_nil c hc

end CrdForge.Text
