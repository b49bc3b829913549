import CrdForge.Proofs.Conversion.Results

/-! What a sensitive field becomes.

With all plugins a reference to a secret stands in for it, whatever its source is. What comes after the
plugins looks at the source once more, and adds to the reference in two cases: a choice between
references keeps its branches beside it, and what expressly allows other properties still does
(`conceal_result`). -/
namespace CrdForge.Conversion

open Extension (Tree)

variable {setting : Setting} {shape : Shape} {path : List String} {source : OpenApi.Schema} {leaf : String}

/-- A reference to a secret, with what is added to it after the plugins have run. -/
def concealed (shape : Shape) (path : List String) (source : OpenApi.Schema) (leaf : String) : Crd.Schema :=
  { secretReference leaf source.description with
    oneOf := if isUnion source then branchShapes shape path source.oneOf else []
    preserveUnknown := if source.allowsAdditional then some true else none }

theorem isTagged_secretReference (source : OpenApi.Schema) (leaf : String) (description : Option String) :
    isTagged source (settle source (secretReference leaf description)) = false := by
  have hp : (settle source (secretReference leaf description)).properties.isEmpty = false :=
    List.isEmpty_eq_false_iff.mpr fun h => Keyed.insert_ne_nil _ _ _ h
  simp [isTagged, hp]

theorem settle_secretReference (source : OpenApi.Schema) (leaf : String) (description : Option String) :
    settle source (secretReference leaf description) = { secretReference leaf description with
      preserveUnknown := if source.allowsAdditional then some true else none } := by
  have hp : (secretReference leaf description).properties.isEmpty = false :=
    List.isEmpty_eq_false_iff.mpr fun h => Keyed.insert_ne_nil _ _ _ h
  have ho : isOpen { secretReference leaf description with
      type := some ((secretReference leaf description).type.getD "object") } = false := by
    simp [isOpen, hp]
  simp only [settle, ho, Bool.false_or]
  rfl

/-- What comes after the plugins adds nothing else to a reference to a secret. -/
theorem afterwards_secretReference (renames : List (String × String)) :
    reconcileRequired renames
      (unionShape shape path source (settle source (secretReference leaf source.description))) =
      concealed shape path source leaf := by
  rw [unionShape_untagged (isTagged_secretReference source leaf source.description), settle_secretReference]
  rfl

/-- Whatever the plugins made of its parts, a sensitive field becomes a reference to a secret. -/
theorem sourceShape_secret (hp : setting.plugins = PropertyPlugin.all) {result : Crd.Schema}
    (hl : (setting.site source path).secret? = some leaf)
    (h : sourceShape setting shape path source = some result) :
    result = concealed shape path source leaf := by
  obtain ⟨kept, hk, rfl⟩ := Option.map_eq_some_iff.mp h
  rw [hp] at hk
  obtain ⟨narrowed, -, rfl⟩ := outcome_all hk
  rw [hl]
  exact afterwards_secretReference _

theorem secret?_rooted (source : OpenApi.Schema)
    (hl : setting.filters.sensitive.contains (Path.render (rooted path)) = true) :
    ∃ leaf, (rooted path).getLast? = some leaf ∧ (setting.site source (rooted path)).secret? = some leaf := by
  obtain ⟨leaf, hleaf⟩ : ∃ leaf, (rooted path).getLast? = some leaf := by
    cases path with
    | nil => exact ⟨Path.root, rfl⟩
    | cons segment rest => exact ⟨_, List.getLast?_cons⟩
  exact ⟨leaf, hleaf, (if_pos hl).trans hleaf⟩

/-- A reference to a secret stays as it is if there is no choice whose branches have a conversion, and
other properties are not expressly allowed. -/
theorem concealed_eq_iff : concealed shape path source leaf = secretReference leaf source.description ↔
    source.allowsAdditional = false ∧
      (isUnion source = true → ∀ branch ∈ source.oneOf, shape branch path = none) := by
  have hbranches : branchShapes shape path source.oneOf = [] ↔
      ∀ branch ∈ source.oneOf, shape branch path = none :=
    List.filterMap_eq_nil_iff
  have hone : (secretReference leaf source.description).oneOf = [] := rfl
  have hunknown : (secretReference leaf source.description).preserveUnknown = none := rfl
  constructor
  · intro h
    have ho : (if isUnion source then branchShapes shape path source.oneOf else []) = [] :=
      (congrArg (·.oneOf) h).trans hone
    have hu : (if source.allowsAdditional then some true else none) = none :=
      (congrArg (·.preserveUnknown) h).trans hunknown
    refine ⟨by simpa using hu, fun hi => hbranches.mp ?_⟩
    rwa [if_pos hi] at ho
  · rintro ⟨ha, hb⟩
    have ho : (if isUnion source then branchShapes shape path source.oneOf else []) = [] := by
      split
      · next hi => exact hbranches.mpr (hb hi)
      · rfl
    rw [concealed, ho, ha]
    rfl

/-- **What a sensitive field becomes.** It is the reference to a secret in every field exactly if its
source does not expressly allow other properties and is no choice between references of which one has a
conversion; otherwise it keeps those beside the reference. -/
theorem conceal_result (hp : setting.plugins = PropertyPlugin.all) {place : Place} {schema : OpenApi.Schema}
    {result : Crd.Schema} {tree after : Tree} {depth : Nat} (hs : place.schema = some schema)
    (hl : setting.filters.sensitive.contains (Path.render (rooted place.path)) = true)
    (hc : convert setting place depth tree = (some result, after)) :
    ∃ source leaf, setting.document.resolve schema = some source ∧ (rooted place.path).getLast? = some leaf ∧
      result = concealed (shapeWithin setting (maxDepth - (depth + 1))) (rooted place.path) source leaf ∧
      (result = secretReference leaf source.description ↔ source.allowsAdditional = false ∧
        (isUnion source = true → ∀ branch ∈ source.oneOf,
          (convert setting ⟨some branch, place.node, rooted place.path⟩ (depth + 1) tree).1 = none)) := by
  have hr : shapeWithin setting (maxDepth - depth) schema place.path = some result := by
    have h := convertWithin_fst setting (maxDepth - depth) place tree
    rw [show convertWithin setting (maxDepth - depth) place tree = (some result, after) from hc, hs] at h
    exact h.symm
  obtain ⟨below, hbelow⟩ : ∃ below, maxDepth - depth = below + 1 := by
    cases hd : maxDepth - depth with
    | zero =>
      rw [hd] at hr
      cases hr
    | succ below => exact ⟨below, rfl⟩
  have hnext : maxDepth - (depth + 1) = below := by omega
  rw [hbelow] at hr
  obtain ⟨source, hsource, hshape⟩ := Option.bind_eq_some_iff.mp hr
  obtain ⟨leaf, hleaf, hsecret⟩ := secret?_rooted source hl
  have hresult := sourceShape_secret hp hsecret hshape
  have hbranch (branch : OpenApi.Schema) :
      (convert setting ⟨some branch, place.node, rooted place.path⟩ (depth + 1) tree).1 =
        shapeWithin setting below branch (rooted place.path) := by
    rw [convert, hnext, convertWithin_fst setting below]
    rfl
  refine ⟨source, leaf, hsource, hleaf, ?_, ?_⟩
  · rw [hnext]
    exact hresult
  · simp only [hbranch]
    rw [hresult, concealed_eq_iff]

/-- Users are known by one of two names. -/
def userSource : OpenApi.Schema where
  oneOf := [{ reference := some "#/components/schemas/Name" },
    { reference := some "#/components/schemas/Mail" }]

/-- Clients may say more than is listed. -/
def clientSource : OpenApi.Schema where
  type := some (.one "object")
  additional := some (.flag true)

/-- Both are sensitive. -/
def signInSetting : Setting where
  document := { components := { schemas := [("Name", { type := some (.one "string") })] } }
  filters := { sensitive := ["$.user", "$.client"] }

/-- A choice between references and an object that allows other properties
keep more than the reference to a secret. -/
theorem sensitive_keeps_more :
    (∃ result after, convert signInSetting ⟨some userSource, Tree.root, [Path.root, "user"]⟩ 1 Tree.empty =
        (some result, after) ∧ result ≠ secretReference "user" none) ∧
      ∃ result after, convert signInSetting
        ⟨some clientSource, Tree.root, [Path.root, "client"]⟩ 1 Tree.empty =
        (some result, after) ∧ result ≠ secretReference "client" none := by
  constructor
  · obtain ⟨result, hresult⟩ : ∃ result,
      (convert signInSetting ⟨some userSource, Tree.root, [Path.root, "user"]⟩ 1
      Tree.empty).1 = some result := ⟨_, rfl⟩
    obtain ⟨source, leaf, hsource, hleaf, -, hiff⟩ :=
      conceal_result rfl rfl (by decide) (Prod.ext hresult rfl)
    cases hsource
    cases hleaf
    refine ⟨result, _, Prod.ext hresult rfl, fun h => ?_⟩
    have hnone := (hiff.mp h).2 rfl _ (List.mem_cons_self ..)
    cases hnone
  · obtain ⟨result, hresult⟩ : ∃ result,
      (convert signInSetting ⟨some clientSource, Tree.root, [Path.root, "client"]⟩ 1
      Tree.empty).1 = some result := ⟨_, rfl⟩
    obtain ⟨source, leaf, hsource, hleaf, -, hiff⟩ :=
      conceal_result rfl rfl (by decide) (Prod.ext hresult rfl)
    cases hsource
    cases hleaf
    refine ⟨result, _, Prod.ext hresult rfl, fun h => ?_⟩
    cases (hiff.mp h).1

end CrdForge.Conversion
