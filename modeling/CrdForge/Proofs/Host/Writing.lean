import CrdForge.Host.FileSystem
import CrdForge.Proofs.Run

/-! What is written to a file is what is read from it.

Only directories are passed on the way to a file, and a file never takes the place of one, so each name
that led somewhere leads there still. -/
namespace CrdForge.Host

open Run

namespace FileSystem
variable {files : FileSystem} {location other : Location} {entry : Entry}

theorem lookup_others (entries : List (Location × Entry)) (hne : other ≠ location) :
    (entries.filter (·.1 != location)).lookup other = entries.lookup other := by
  induction entries with
  | nil => rfl
  | cons first rest ih =>
    obtain ⟨place, entry⟩ := first
    rw [List.filter_cons]
    split
    · rw [List.lookup_cons, List.lookup_cons, ih]
    · next hl =>
      have he : place = location := by simpa using hl
      rw [ih, List.lookup_cons, he, beq_eq_false_iff_ne.mpr hne]

theorem entry?_put (hne : location ≠ []) :
    FileSystem.entry? (files.put location entry) location = some entry := by
  simp [FileSystem.entry?, put, hne]

theorem entry?_put_of_ne (hne : other ≠ location) :
    FileSystem.entry? (files.put location entry) other = files.entry? other := by
  rw [FileSystem.entry?, FileSystem.entry?, put, List.lookup_cons, beq_eq_false_iff_ne.mpr hne,
    lookup_others _ hne]

/-- A name that led somewhere leads there when something other than a directory was replaced. -/
theorem follow_put (hd : files.entry? location ≠ some .directory) {start target : Location}
    {parts : List String} (h : files.follow start parts = .ok target) :
    (files.put location entry).follow start parts = .ok target := by
  induction parts generalizing start with
  | nil => exact h
  | cons part rest ih =>
    rw [follow] at h ⊢
    split at h
    · cases h
    · next he =>
      rw [entry?_put_of_ne (by rintro rfl; exact hd he), he]
      dsimp only
      split at h
      · next hstay => rw [if_pos hstay, ih h]
      · next hstay =>
        rw [if_neg hstay]
        split at h
        · next hup => rw [if_pos hup, ih h]
        · next hup =>
          rw [if_neg hup]
          split at h
          · cases h
          · next hlong => rw [if_neg hlong, ih h]
    · cases h

theorem locate_put (hd : files.entry? location ≠ some .directory) {name : String}
    (h : files.locate name = .ok location) : (files.put location entry).locate name = .ok location := by
  obtain ⟨_, hname, h⟩ := except_bind_ok h
  rw [locate, hname]
  exact follow_put hd h

/-- What was put where a name leads is read by that name. -/
theorem read_put (hd : files.entry? location ≠ some .directory) {name content : String}
    (h : files.locate name = .ok location) :
    (files.put location (.text content)).read name = .ok content := by
  have hne : location ≠ [] := by
    rintro rfl
    exact hd rfl
  rw [read, find, locate_put hd h]
  simp only [bind, Except.bind, pure, Except.pure, entry?_put hne]

end FileSystem

/-- A name is left as it is unless slashes are taken off. -/
theorem withoutSlashes_eq {name trimmed : String} (h : withoutSlashes name = (trimmed, false)) :
    trimmed = name := by
  rw [withoutSlashes] at h
  split at h
  · exact (congrArg Prod.fst h).symm
  · have hne : (_ != name) = false := congrArg Prod.snd h
    exact (congrArg Prod.fst h).symm.trans (by simpa using hne)

/-- A file that was written holds what was written. -/
theorem read_of_writeFile {files files' : FileSystem} {name content : String}
    (h : writeFile name content files = (.ok (), files')) : files'.read name = .ok content := by
  obtain ⟨_, _, hget, h⟩ := bind_ok h
  obtain ⟨rfl, rfl⟩ := get_ok hget
  obtain ⟨_, _, hname, h⟩ := bind_ok h
  obtain ⟨-, rfl⟩ := liftExcept_ok hname
  rcases hw : withoutSlashes name with ⟨trimmed, slashes⟩
  rw [hw] at h
  obtain ⟨location, _, hlift, h⟩ := bind_ok h
  obtain ⟨hlocate, rfl⟩ := liftExcept_ok hlift
  dsimp only at h
  split at h
  · obtain ⟨_, _, hthrow, -⟩ := bind_ok h
    exact absurd hthrow throw_ok
  · next hfile =>
    cases h
    rw [Bool.or_eq_true, not_or, Bool.not_eq_true, beq_iff_eq] at hfile
    obtain ⟨rfl, hd⟩ := hfile
    obtain rfl := withoutSlashes_eq hw
    exact FileSystem.read_put hd hlocate

end CrdForge.Host
