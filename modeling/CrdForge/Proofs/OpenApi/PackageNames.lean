import CrdForge.OpenApi.Load

/-! Names of the directories of packages.

A capital letter from A to Z is written as an exclamation mark and its small letter. Names are therefore
the same in small letters (`toLower_escaped`): where the two kinds of letters are not told apart, no more
names meet than elsewhere. An exclamation mark of the reference itself is written as it is, though. So
what is read back from a name is the reference only up to the capital letters that its own marks stand
for (`unescaped_escaped`), and references are written alike exactly if they are read alike
(`escaped_eq_iff`). -/
namespace CrdForge.OpenApi

open Host (FileSystem)
open Host.PathName (isAbsolute isAbsolute_iff join)

variable {c d : Char} {chars rest : List Char}

/-! ### Letters -/

/-- What is checked for ASCII holds of every letter, since there are no others. -/
theorem of_isAlpha {P : Char → Prop} (h : ∀ n < 128, P (Char.ofNat n)) (hc : c.isAlpha) : P c := by
  have hascii : c.toNat < 128 := by
    rcases Bool.or_eq_true_iff.mp hc with hupper | hlower
    · have hlast : c.val ≤ 'Z'.val := (of_decide_eq_true hupper).2
      exact Nat.lt_of_le_of_lt (UInt32.le_iff_toNat_le.mp hlast) (by decide)
    · have hlast : c.val ≤ 'z'.val := of_decide_eq_true (Bool.and_eq_true_iff.mp hlower).2
      exact Nat.lt_of_le_of_lt (UInt32.le_iff_toNat_le.mp hlast) (by decide)
  simpa only [Char.ofNat_toNat] using h c.toNat hascii

theorem capital_toLower (h : c.isUpper) : c.toLower.isLower ∧ c.toLower.toUpper = c :=
  of_isAlpha (P := fun c => c.isUpper → c.toLower.isLower ∧ c.toLower.toUpper = c) (by decide)
    (Bool.or_eq_true_iff.mpr (.inl h)) h

theorem small_toUpper (h : d.isLower) : ¬ d.isUpper ∧ d.toUpper.isUpper ∧ d.toUpper.toLower = d :=
  of_isAlpha (P := fun d => d.isLower → ¬ d.isUpper ∧ d.toUpper.isUpper ∧ d.toUpper.toLower = d) (by decide)
    (Bool.or_eq_true_iff.mpr (.inr h)) h

theorem toLower_eq_self (h : ¬ c.isUpper) : c.toLower = c :=
  dif_neg fun hcodes => h (decide_eq_true hcodes)

/-! ### Marks -/

/-- How a character of a reference is written in a name. -/
def marked (c : Char) : List Char := if c.isUpper then ['!', c.toLower] else [c]

/-- Reads an exclamation mark and a small letter as the capital one. -/
def readMarks : List Char → List Char
  | [] => []
  | [c] => [c]
  | c :: d :: rest => if c = '!' ∧ d.isLower then d.toUpper :: readMarks rest else c :: readMarks (d :: rest)

/-- The reference that a name is read as. -/
def unescaped (name : String) : String := String.ofList (readMarks name.toList)

theorem marked_capital (h : c.isUpper) : marked c = ['!', c.toLower] := if_pos h

theorem marked_other (h : ¬ c.isUpper) : marked c = [c] := if_neg h

theorem marked_small (h : d.isLower) : marked d = [d] := marked_other (small_toUpper h).1

theorem marked_toUpper (h : d.isLower) : marked d.toUpper = ['!', d] := by
  obtain ⟨-, hcapital, hback⟩ := small_toUpper h
  rw [marked_capital hcapital, hback]

theorem map_toLower_marked (c : Char) : (marked c).map Char.toLower = marked c := by
  by_cases h : c.isUpper
  · have hsmall : ¬ c.toLower.isUpper := (small_toUpper (capital_toLower h).1).1
    rw [marked_capital h, List.map_cons, List.map_singleton, toLower_eq_self hsmall]
    rfl
  · rw [marked_other h, List.map_singleton, toLower_eq_self h]

/-- What is written starts with the first character, or with a mark in place of it. -/
theorem head?_flatMap_marked (chars : List Char) :
    (chars.flatMap marked).head? = chars.head?.map fun c => if c.isUpper then '!' else c := by
  cases chars with
  | nil => rfl
  | cons c rest =>
    rw [List.flatMap_cons, List.head?_cons, Option.map_some]
    by_cases h : c.isUpper
    · rw [marked_capital h, if_pos h]
      rfl
    · rw [marked_other h, if_neg h]
      rfl

/-! ### Reading -/

theorem readMarks_mark (h : d.isLower) : readMarks ('!' :: d :: rest) = d.toUpper :: readMarks rest :=
  if_pos ⟨rfl, h⟩

theorem readMarks_cons (h : c = '!' → ∀ d ∈ chars.head?, ¬ d.isLower) :
    readMarks (c :: chars) = c :: readMarks chars := by
  cases chars with
  | nil => rfl
  | cons d rest => exact if_neg fun ⟨hc, hd⟩ => h hc d rfl hd

theorem readMarks_capital (h : c.isUpper) : readMarks ('!' :: c.toLower :: rest) = c :: readMarks rest := by
  obtain ⟨hsmall, hback⟩ := capital_toLower h
  rw [readMarks_mark hsmall, hback]

/-- A mark with a small letter after it is read as it would be read before it was written. -/
theorem readMarks_flatMap_mark (h : d.isLower) :
    readMarks (('!' :: d :: rest).flatMap marked) = d.toUpper :: readMarks (rest.flatMap marked) := by
  have hbang : marked '!' = ['!'] := by decide
  rw [List.flatMap_cons, List.flatMap_cons, hbang, marked_small h, List.singleton_append,
    List.singleton_append, readMarks_mark h]

/-- Any other character is read as itself. A mark that has no small letter
after it gets none when it is written. -/
theorem readMarks_flatMap_cons (h : c = '!' → ∀ d ∈ chars.head?, ¬ d.isLower) :
    readMarks ((c :: chars).flatMap marked) = c :: readMarks (chars.flatMap marked) := by
  rw [List.flatMap_cons]
  by_cases hc : c.isUpper
  · rw [marked_capital hc]
    exact readMarks_capital hc
  · rw [marked_other hc, List.singleton_append]
    apply readMarks_cons
    intro hmark d hd
    rw [head?_flatMap_marked] at hd
    obtain ⟨first, hfirst, rfl⟩ := Option.map_eq_some_iff.mp hd
    split
    · decide
    · exact h hmark first hfirst

/-- What is written is read as what it was written for would be. -/
theorem readMarks_flatMap (chars : List Char) : readMarks (chars.flatMap marked) = readMarks chars := by
  -- A mark takes the letter after it along, so the induction is on the reading and not on the list.
  fun_induction readMarks chars with
  | case1 => rfl
  | case2 c => exact readMarks_flatMap_cons fun _ => nofun
  | case3 c d rest h ih =>
    obtain ⟨rfl, hd⟩ := h
    rw [readMarks_flatMap_mark hd, ih]
  | case4 c d rest h ih =>
    have hmark : c = '!' → ∀ e ∈ (d :: rest).head?, ¬ e.isLower := by
      rintro hc _ ⟨⟩ hd
      exact h ⟨hc, hd⟩
    rw [readMarks_flatMap_cons hmark, ih]

/-- A capital letter is written as the mark and the small letter that it was read from. -/
theorem flatMap_readMarks (chars : List Char) : (readMarks chars).flatMap marked = chars.flatMap marked := by
  fun_induction readMarks chars with
  | case1 => rfl
  | case2 c => rfl
  | case3 c d rest h ih =>
    obtain ⟨rfl, hd⟩ := h
    rw [List.flatMap_cons, List.flatMap_cons, List.flatMap_cons, ih, marked_toUpper hd,
      marked_other (by decide), marked_small hd]
    rfl
  | case4 c d rest h ih => rw [List.flatMap_cons, List.flatMap_cons, ih]

theorem readMarks_eq_self (h : '!' ∉ chars) : readMarks chars = chars := by
  induction chars with
  | nil => rfl
  | cons c rest ih =>
    rw [List.mem_cons, not_or] at h
    rw [readMarks_cons fun hc => absurd hc.symm h.1, ih h.2]

/-! ### Names -/

variable {reference other name : String}

theorem toList_toLower (name : String) : name.toLower.toList = name.toList.map Char.toLower :=
  String.toList_map

theorem toList_escaped (name : String) : (escaped name).toList = name.toList.flatMap marked := by
  rw [escaped, String.toList_ofList]
  rfl

theorem escaped_append (name other : String) : escaped (name ++ other) = escaped name ++ escaped other := by
  apply String.toList_inj.mp
  simp only [toList_escaped, String.toList_append, List.flatMap_append]

/-- **A name is the same in small letters.** -/
theorem toLower_escaped (name : String) : (escaped name).toLower = escaped name := by
  apply String.toList_inj.mp
  rw [toList_toLower, toList_escaped, List.map_flatMap]
  simp only [map_toLower_marked]

theorem unescaped_escaped (name : String) : unescaped (escaped name) = unescaped name := by
  rw [unescaped, unescaped, toList_escaped, readMarks_flatMap]

theorem escaped_unescaped (name : String) : escaped (unescaped name) = escaped name := by
  apply String.toList_inj.mp
  rw [toList_escaped, toList_escaped, unescaped, String.toList_ofList, flatMap_readMarks]

/-- **Two references are written alike exactly if they are read alike.** -/
theorem escaped_eq_iff : escaped reference = escaped other ↔ unescaped reference = unescaped other := by
  constructor
  · intro h
    rw [← unescaped_escaped reference, h, unescaped_escaped]
  · intro h
    rw [← escaped_unescaped reference, h, escaped_unescaped]

example : escaped "!A!b" = "!!a!b" ∧ unescaped "!!a!b" = "!AB" ∧ unescaped "!A!b" = "!AB" := by decide

theorem unescaped_eq_self (h : '!' ∉ name.toList) : unescaped name = name := by
  rw [unescaped, readMarks_eq_self h, String.ofList_toList]

/-! ### References -/

/-- Whether a text gives a module and, after the first at sign, a version. -/
def IsReference (reference : String) : Prop :=
  ∃ module version : String,
    reference = module ++ "@" ++ version ∧ '@' ∉ module.toList ∧ module ≠ "" ∧ version ≠ ""

/-- A package has a name if its reference is one, and the name is that of the whole reference. -/
theorem packageName?_eq_some_iff :
    packageName? reference = some name ↔ IsReference reference ∧ name = escaped reference := by
  have hsplit (module version : String) : Text.splitAt? '@' reference = some (module, version) ↔
      reference = module ++ "@" ++ version ∧ '@' ∉ module.toList := Text.splitAt?_eq_some_iff
  have hescaped (module version : String) :
      escaped (module ++ "@" ++ version) = escaped module ++ "@" ++ escaped version := by
    rw [escaped_append, escaped_append, show escaped "@" = "@" by decide]
  rw [packageName?]
  constructor
  · intro h
    split at h
    · next module version hs =>
      obtain ⟨hr, hat⟩ := (hsplit module version).mp hs
      split at h
      · cases h
      · next hne =>
        simp only [Bool.or_eq_true, decide_eq_true_eq, not_or] at hne
        refine ⟨⟨module, version, hr, hat, hne⟩, ?_⟩
        rw [hr, hescaped]
        exact (Option.some.inj h).symm
    · cases h
  · rintro ⟨⟨module, version, hr, hat, hmodule, hversion⟩, rfl⟩
    rw [(hsplit module version).mpr ⟨hr, hat⟩]
    simp only [hmodule, hversion, decide_false, Bool.or_self, Bool.false_eq_true, if_false]
    rw [hr, hescaped]

/-! ### Directories -/

variable {files : FileSystem} {cache directory : String}

theorem toLower_append (name other : String) : (name ++ other).toLower = name.toLower ++ other.toLower := by
  apply String.toList_inj.mp
  simp only [toList_toLower, String.toList_append, List.map_append]

theorem isAbsolute_escaped (name : String) : isAbsolute (escaped name) = isAbsolute name := by
  rw [Bool.eq_iff_iff, isAbsolute_iff, isAbsolute_iff, toList_escaped, head?_flatMap_marked]
  constructor
  · intro h
    obtain ⟨c, hc, hslash⟩ := Option.map_eq_some_iff.mp h
    split at hslash
    · cases hslash
    · rw [hc, hslash]
  · intro h
    rw [h]
    rfl

/-- Names stay apart where they are joined to a cache, unless only one of them starts at the root. -/
theorem toLower_join_inj (h : isAbsolute name = isAbsolute other) :
    (join cache name).toLower = (join cache other).toLower ↔ name.toLower = other.toLower := by
  rw [join, join, h]
  split
  · rfl
  · split
    · rw [toLower_append, toLower_append, String.append_right_inj]
    · rw [toLower_append (cache ++ "/"), toLower_append (cache ++ "/"), String.append_right_inj]

theorem packageDirectory_refused_iff :
    packageDirectory files cache reference = .error (.invalidPackage reference) ↔
      ¬ IsReference reference := by
  rw [packageDirectory]
  cases hn : packageName? reference with
  | none =>
    refine iff_of_true rfl fun h => ?_
    rw [packageName?_eq_some_iff.mpr ⟨h, rfl⟩] at hn
    cases hn
  | some name =>
    refine iff_of_false ?_ (not_not_intro (packageName?_eq_some_iff.mp hn).1)
    dsimp only
    split
    · nofun
    · nofun

theorem directory_of_packageDirectory (h : packageDirectory files cache reference = .ok directory) :
    directory = join cache (escaped reference) := by
  rw [packageDirectory] at h
  split at h
  · cases h
  · next name hn =>
    obtain ⟨-, rfl⟩ := packageName?_eq_some_iff.mp hn
    dsimp only at h
    split at h
    · exact (Except.ok.inj h).symm
    · cases h

/-- **Two packages have one name exactly if their references are read alike**, whether capital letters
are told from small ones or not, so references without exclamation marks have names of their own. The
same holds of the directories that are found, unless only one of the references starts at the root: it is
not looked for in the cache. -/
theorem package_names_shared_iff
    (h : packageDirectory files cache reference ≠ .error (.invalidPackage reference))
    (ho : packageDirectory files cache other ≠ .error (.invalidPackage other)) :
    ∃ name otherName, packageName? reference = some name ∧ packageName? other = some otherName ∧
      (name.toLower = otherName.toLower ↔ unescaped reference = unescaped other) ∧
      ('!' ∉ reference.toList → '!' ∉ other.toList → reference ≠ other → name.toLower ≠ otherName.toLower) ∧
      (isAbsolute reference = isAbsolute other → ∀ directory otherDirectory,
        packageDirectory files cache reference = .ok directory →
        packageDirectory files cache other = .ok otherDirectory →
        (directory.toLower = otherDirectory.toLower ↔ unescaped reference = unescaped other)) := by
  have href : IsReference reference := Classical.not_not.mp (mt packageDirectory_refused_iff.mpr h)
  have hother : IsReference other := Classical.not_not.mp (mt packageDirectory_refused_iff.mpr ho)
  have hnames : (escaped reference).toLower = (escaped other).toLower ↔
      unescaped reference = unescaped other := by
    rw [toLower_escaped, toLower_escaped, escaped_eq_iff]
  refine ⟨escaped reference, escaped other, packageName?_eq_some_iff.mpr ⟨href, rfl⟩,
    packageName?_eq_some_iff.mpr ⟨hother, rfl⟩, hnames, ?_, ?_⟩
  · intro hmark hmark' hne hshared
    have hread := hnames.mp hshared
    rw [unescaped_eq_self hmark, unescaped_eq_self hmark'] at hread
    exact hne hread
  · intro habsolute directory otherDirectory hd hd'
    rw [directory_of_packageDirectory hd, directory_of_packageDirectory hd', ← hnames]
    apply toLower_join_inj
    rw [isAbsolute_escaped, isAbsolute_escaped, habsolute]

/-- A cache in which one package is installed, with two capital letters in the name of its module. -/
def tomlCache : FileSystem where
  entries := [
    (["cache"], .directory),
    (["cache", "github.com"], .directory),
    (["cache", "github.com", "!burnt!sushi"], .directory),
    (["cache", "github.com", "!burnt!sushi", "toml@v1.0.0"], .directory)]

/-- The name of the directory of a package, taken for a reference, leads to that package. -/
theorem toml_directory_shared :
    packageDirectory tomlCache "cache" "github.com/BurntSushi/toml@v1.0.0" =
        .ok "cache/github.com/!burnt!sushi/toml@v1.0.0" ∧
      packageDirectory tomlCache "cache" "github.com/!burnt!sushi/toml@v1.0.0" =
        .ok "cache/github.com/!burnt!sushi/toml@v1.0.0" ∧
      ∃ name otherName, packageName? "github.com/BurntSushi/toml@v1.0.0" = some name ∧
        packageName? "github.com/!burnt!sushi/toml@v1.0.0" = some otherName ∧
          name.toLower = otherName.toLower := by
  have hcapital : packageDirectory tomlCache "cache" "github.com/BurntSushi/toml@v1.0.0" =
      .ok "cache/github.com/!burnt!sushi/toml@v1.0.0" := by rfl
  have hmarked : packageDirectory tomlCache "cache" "github.com/!burnt!sushi/toml@v1.0.0" =
      .ok "cache/github.com/!burnt!sushi/toml@v1.0.0" := by rfl
  refine ⟨hcapital, hmarked, ?_⟩
  obtain ⟨name, otherName, hn, hn', hshared, -⟩ :=
    package_names_shared_iff (by rw [hcapital]; nofun) (by rw [hmarked]; nofun)
  exact ⟨name, otherName, hn, hn', hshared.mpr (by decide)⟩

end CrdForge.OpenApi
