import CrdForge.Proofs.Host.Writing

/-! What is left as it was when directories are made and a file is written.

Directories are made only where nothing was (`makeDirectories_grows`), and a file that is written takes
the place of what its name leads to, or nothing changes (`writeFile_cases`). A name may lead to a file
that is there only once directories were made, but then it goes back up through one of them
(`FileSystem.Grows.has`). -/
namespace CrdForge.Host

open Run

namespace FileSystem
variable {files middle grown : FileSystem} {location start : Location} {entry : Entry} {name : String}

/-! ### More directories -/

/-- Whether files are others with more directories. -/
structure Grows (files grown : FileSystem) : Prop where
  here : grown.here = files.here
  entries : ∀ location, grown.entry? location = files.entry? location ∨
    files.entry? location = none ∧ grown.entry? location = some .directory

namespace Grows

theorem refl (files : FileSystem) : Grows files files := ⟨rfl, fun _ => .inl rfl⟩

theorem trans (h : Grows files middle) (h' : Grows middle grown) : Grows files grown where
  here := h'.here.trans h.here
  entries location := by
    rcases h'.entries location with he | ⟨hn, hd⟩
    · rw [he]
      exact h.entries location
    · rcases h.entries location with he | ⟨-, he⟩
      · exact .inr ⟨he ▸ hn, hd⟩
      · rw [hn] at he
        cases he

theorem put (hn : files.entry? location = none) : Grows files (files.put location .directory) where
  here := rfl
  entries other := by
    have hne : location ≠ [] := by
      rintro rfl
      cases hn
    by_cases he : other = location
    · subst he
      exact .inr ⟨hn, entry?_put hne⟩
    · exact .inl (entry?_put_of_ne he)

theorem keeps (h : Grows files grown) (he : files.entry? location = some entry) :
    grown.entry? location = some entry := by
  rcases h.entries location with hs | ⟨hn, -⟩
  · rw [hs, he]
  · rw [hn] at he
    cases he

end Grows

/-! ### Names that do not go up -/

/-- Whether everything is in a directory that is there. -/
def Rooted (files : FileSystem) : Prop :=
  ∀ location part entry, files.entry? (location ++ [part]) = some entry →
    files.entry? location = some .directory

theorem Rooted.above (h : files.Rooted) {more : List String} (hm : more ≠ [])
    (he : files.entry? (location ++ more) = some entry) : files.entry? location = some .directory := by
  induction more generalizing location entry with
  | nil => exact absurd rfl hm
  | cons part rest ih =>
    cases rest with
    | nil => exact h location part entry he
    | cons next rest =>
      rw [List.append_cons] at he
      exact h location part .directory (ih (by simp) he)

/-- Parts that do not go up lead to where they start, or below. -/
theorem follow_below {parts : List String} (hup : ".." ∉ parts)
    (h : files.follow start parts = .ok location) :
    ∃ more, location = start ++ more := by
  induction parts generalizing start with
  | nil => exact ⟨[], by rw [List.append_nil, Except.ok.inj h]⟩
  | cons part rest ih =>
    rw [List.mem_cons, not_or] at hup
    rw [follow] at h
    split at h
    · cases h
    · split at h
      · exact ih hup.2 h
      · rw [if_neg (Ne.symm hup.1)] at h
        split at h
        · cases h
        · obtain ⟨more, rfl⟩ := ih hup.2 h
          exact ⟨part :: more, (List.append_cons ..).symm⟩
    · cases h

/-- No directory that was made is passed on the way down to what was there. -/
theorem Grows.follow (hr : files.Rooted) (h : Grows files grown) {parts : List String} (hup : ".." ∉ parts)
    (hl : grown.follow start parts = .ok location) (he : files.entry? location = some entry) :
    files.follow start parts = .ok location := by
  induction parts generalizing start with
  | nil => exact hl
  | cons part rest ih =>
    obtain ⟨more, hmore⟩ := follow_below hup hl
    rw [List.mem_cons, not_or] at hup
    rw [FileSystem.follow] at hl ⊢
    split at hl
    · cases hl
    · next hd =>
      have hstart : files.entry? start = some .directory := by
        by_cases hm : more = []
        · rw [hmore, hm, List.append_nil] at he
          rw [← hd, he, h.keeps he]
        · exact hr.above hm (hmore ▸ he)
      rw [hstart]
      dsimp only
      split at hl
      · next hstay => rw [if_pos hstay, ih hup.2 hl]
      · next hstay =>
        rw [if_neg hstay, if_neg (Ne.symm hup.1)]
        rw [if_neg (Ne.symm hup.1)] at hl
        split at hl
        · cases hl
        · next hlong => rw [if_neg hlong, ih hup.2 hl]
    · cases hl

/-- A name that does not go up and leads to what was there led to it before directories were made. -/
theorem Grows.has (hr : files.Rooted) (h : Grows files grown) (hup : ".." ∉ PathName.parts name)
    (hl : grown.locate name = .ok location) (he : files.entry? location = some entry) :
    files.has name = true := by
  obtain ⟨_, hname, hl⟩ := except_bind_ok hl
  rw [h.here] at hl
  have hlocate : files.locate name = .ok location := by
    rw [locate, hname]
    exact h.follow hr hup hl he
  rw [FileSystem.has, find, hlocate]
  simp only [bind, Except.bind, he]
  rfl

/-- What becomes of each entry when directories were made and something took
the place of what is no directory. -/
theorem Grows.put_entries (h : Grows files grown) {target : Location}
    (hd : grown.entry? target ≠ some .directory) (entry : Entry) (location : Location) :
    FileSystem.entry? (grown.put target entry) location = files.entry? location ∨
      files.entry? location = none ∧ FileSystem.entry? (grown.put target entry) location = some .directory ∨
      location = target ∧ files.entry? location ≠ some .directory := by
  by_cases he : location = target
  · subst he
    exact .inr (.inr ⟨rfl, fun hdirectory => hd (h.keeps hdirectory)⟩)
  · rw [entry?_put_of_ne he]
    rcases h.entries location with hs | hn
    · exact .inl hs
    · exact .inr (.inl hn)

end FileSystem

open FileSystem (Grows)

/-! ### Changes -/

variable {files : FileSystem}

theorem makeDirectory_grows (name : String) :
    Maintains (Grows files) (fun _ => True) (makeDirectory name) := by
  refine .bind .get fun found hfound => .bind (.liftExcept _) fun _ _ =>
    .bind (.liftExcept _) fun location _ => ?_
  split
  · exact .throw _
  · next hn => exact .set (hfound.trans (.put (by simpa using hn)))

theorem makeDirectoriesWithin_grows (depth : Nat) (name : String) :
    Maintains (Grows files) (fun _ => True) (makeDirectoriesWithin depth name) := by
  induction depth generalizing name with
  | zero => exact .throw _
  | succ depth ih =>
    rw [makeDirectoriesWithin]
    split
    · exact .pure trivial
    · -- a failure is looked into, and what is missing is made if that is why
      have hmake (missing : Change Unit) (hm : Maintains (Grows files) (fun _ => True) missing) :
          Maintains (Grows files) (fun _ => True) (tryCatch (makeDirectory name) fun fault => do
            if fault = .notFound then missing
            else if (← get).hasDirectory name then return
            else throw fault) := by
        refine (makeDirectory_grows name).tryCatch fun fault => ?_
        split
        · exact hm
        · refine .bind .get fun found _ => ?_
          split
          · exact .pure trivial
          · exact .throw _
      refine hmake _ ?_
      split
      · exact .throw _
      · exact .bind (ih _) fun _ _ => hmake _ (.throw _)

/-- Directories are made only where nothing was, also when not all of them can be made. -/
theorem makeDirectories_grows (files : FileSystem) (name : String) :
    Grows files (makeDirectories name files).2 :=
  (makeDirectoriesWithin_grows _ name files (.refl files)).1

/-- A file takes the place of what its name leads to, or nothing changes. -/
theorem writeFile_cases (files : FileSystem) (name content : String) :
    (∃ location, files.locate name = .ok location ∧ files.entry? location ≠ some .directory ∧
      writeFile name content files = (.ok (), files.put location (.text content))) ∨
    ∃ fault, writeFile name content files = (.error fault, files) := by
  rw [writeFile, get_bind, bind_eq, liftExcept_eq]
  cases FileSystem.checkName name with
  | error fault => exact .inr ⟨fault, rfl⟩
  | ok =>
    rcases hw : withoutSlashes name with ⟨trimmed, slashes⟩
    dsimp only
    rw [bind_eq, liftExcept_eq]
    cases hl : files.locate (if slashes then PathName.beforeLast trimmed else trimmed) with
    | error fault => exact .inr ⟨fault, rfl⟩
    | ok location =>
      dsimp only
      split
      · exact .inr ⟨.isDirectory, rfl⟩
      · next hfile =>
        rw [Bool.or_eq_true, not_or, Bool.not_eq_true, beq_iff_eq] at hfile
        obtain ⟨rfl, hd⟩ := hfile
        obtain rfl := withoutSlashes_eq hw
        exact .inl ⟨location, hl, hd, rfl⟩

end CrdForge.Host
