import CrdForge.Proofs.Conversion.Shape

/-! The order of plugins.

A plugin that keeps a node narrows what the node requires or puts a reference to a secret in its place,
and which of these it does, with which properties, is up to where the node stands and what it lists.
Neither is changed by the other plugins, so two plugins make the same of a node in either order
(`outcome_comm`), and a conversion answers with the same schema for every order of its plugins
(`convert_perm`). -/
namespace CrdForge.Conversion

open Extension (Tree)

variable {site : Site} {setting : Setting} {plugins order : List PropertyPlugin}

/-! ### Single plugins -/

theorem requireOnly_comm (test other : String → Bool) (schema : Crd.Schema) :
    requireOnly test (requireOnly other schema) = requireOnly other (requireOnly test schema) := by
  simp only [requireOnly, List.filter_filter, Bool.and_comm]

theorem requireOnly_true (schema : Crd.Schema) : requireOnly (fun _ => true) schema = schema := by
  cases schema
  simp [requireOnly]

/-- A reference to a secret requires nothing, so nothing is left to narrow. -/
theorem requireOnly_secretReference (test : String → Bool) (leaf : String) (description : Option String) :
    requireOnly test (secretReference leaf description) = secretReference leaf description := rfl

namespace PropertyPlugin

/-- Which properties a plugin that keeps a node lets it require. -/
def requires (site : Site) (schema : Crd.Schema) : PropertyPlugin → String → Bool
  | .readOnly => fun property => !site.filters.readOnly || site.source.readOnly || site.hasReadOnly property
  | .readWrite => fun property => !site.filters.readWriteOnly || !site.hasReadOnly property
  | .skipped => fun property =>
    schema.properties.isEmpty || !site.filters.skipped.contains (Path.render (site.path ++ [property]))
  | .sensitive => fun _ => true

/-- What a plugin makes of a node that it keeps. -/
def change (site : Site) (plugin : PropertyPlugin) (schema : Crd.Schema) : Crd.Schema :=
  match plugin with
  | .sensitive => (site.secret?.map (secretReference · schema.description)).getD schema
  | plugin => requireOnly (plugin.requires site schema) schema

/-- A plugin leaves a node out because of where it stands, and changes it otherwise. -/
theorem outcome_eq (site : Site) (schema : Crd.Schema) (plugin : PropertyPlugin) :
    plugin.outcome site schema = if plugin.drops site then none else some (plugin.change site schema) := by
  cases plugin with
  | readOnly =>
    by_cases hf : site.filters.readOnly = true
    · by_cases hs : site.source.readOnly = true
      · simp [outcome, keepReadOnly, drops, change, requires, requireOnly_true, hf, hs]
      · by_cases hr : Path.isRoot site.path = true
        · simp [outcome, keepReadOnly, drops, change, requires, hf, hs, hr]
        · simp [outcome, keepReadOnly, drops, hf, hs, hr]
    · simp [outcome, keepReadOnly, drops, change, requires, requireOnly_true, hf]
  | readWrite =>
    by_cases hf : site.filters.readWriteOnly = true
    · by_cases hs : site.source.readOnly = true <;>
        simp [outcome, keepReadWrite, drops, change, requires, hf, hs]
    · simp [outcome, keepReadWrite, drops, change, requires, requireOnly_true, hf]
  | skipped =>
    by_cases hl : site.location ∈ site.filters.skipped
    · simp [outcome, keepUnlisted, drops, hl]
    · by_cases hs : site.filters.skipped = []
      · simp [outcome, keepUnlisted, drops, change, requires, requireOnly_true, hs]
      · by_cases hp : schema.properties = []
        · simp [outcome, keepUnlisted, drops, change, requires, requireOnly_true, hl, hp]
        · have hlisted : schema.properties.isEmpty = false := List.isEmpty_eq_false_iff.mpr hp
          simp [outcome, keepUnlisted, drops, change, requires, hl, hs, hlisted]
  | sensitive => rfl

/-- Narrowing what a node requires changes nothing that a plugin looks at. -/
theorem change_requireOnly (plugin : PropertyPlugin) (test : String → Bool) (schema : Crd.Schema)
    (h : plugin ≠ sensitive) :
    plugin.change site (requireOnly test schema) = requireOnly test (plugin.change site schema) := by
  cases plugin with
  | sensitive => exact absurd rfl h
  | _ => exact requireOnly_comm _ _ _

/-- A node is narrowed before a secret takes its place, or there is nothing to narrow. -/
theorem change_sensitive_comm (plugin : PropertyPlugin) (schema : Crd.Schema) :
    sensitive.change site (plugin.change site schema) =
      plugin.change site (sensitive.change site schema) := by
  cases hs : site.secret? with
  | none =>
    have hsame (schema : Crd.Schema) : sensitive.change site schema = schema := by
      simp only [change, hs]
      rfl
    rw [hsame, hsame]
  | some leaf =>
    have hsecret (schema : Crd.Schema) :
        sensitive.change site schema = secretReference leaf schema.description := by
      simp only [change, hs]
      rfl
    cases plugin with
    | sensitive => rfl
    | _ =>
      rw [hsecret, hsecret]
      exact (requireOnly_secretReference _ leaf _).symm

theorem change_comm (first second : PropertyPlugin) (schema : Crd.Schema) :
    second.change site (first.change site schema) = first.change site (second.change site schema) := by
  by_cases hf : first = sensitive
  · subst hf
    exact (change_sensitive_comm second schema).symm
  · by_cases hs : second = sensitive
    · subst hs
      exact change_sensitive_comm first schema
    · have hchange : first.change site schema = requireOnly (first.requires site schema) schema := by
        cases first with
        | sensitive => exact absurd rfl hf
        | _ => rfl
      rw [hchange, change_requireOnly second _ schema hs]
      cases first with
      | sensitive => exact absurd rfl hf
      | _ =>
        cases second with
        | sensitive => exact absurd rfl hs
        | _ => rfl

/-- **Two plugins make the same of a node in either order.** -/
theorem outcome_comm (first second : PropertyPlugin) (schema : Crd.Schema) :
    (first.outcome site schema).bind (second.outcome site ·) =
      (second.outcome site schema).bind (first.outcome site ·) := by
  simp only [outcome_eq]
  by_cases hf : first.drops site = true
  · by_cases hs : second.drops site = true <;> simp [hf, hs]
  · by_cases hs : second.drops site = true
    · simp [hf, hs]
    · simp [hf, hs, change_comm first second schema]

end PropertyPlugin

/-! ### Chains -/

/-- A chain of plugins makes the same of a node in every order. -/
theorem outcome_perm (h : order.Perm plugins) (schema : Crd.Schema) :
    outcome site order schema = outcome site plugins schema := by
  induction h generalizing schema with
  | nil => rfl
  | cons plugin _ ih =>
    show (plugin.outcome site schema).bind _ = (plugin.outcome site schema).bind _
    rw [funext ih]
  | swap first second rest =>
    show (second.outcome site schema).bind (fun kept => (first.outcome site kept).bind (outcome site rest)) =
      (first.outcome site schema).bind (fun kept => (second.outcome site kept).bind (outcome site rest))
    rw [← Option.bind_assoc, ← Option.bind_assoc, PropertyPlugin.outcome_comm]
  | trans _ _ ih ih' => rw [ih, ih']

theorem shapeWithin_perm (h : order.Perm setting.plugins) (depth : Nat) :
    shapeWithin { setting with plugins := order } depth = shapeWithin setting depth := by
  induction depth with
  | zero => rfl
  | succ depth ih =>
    funext schema path
    simp only [shapeWithin, ih]
    congr 1
    funext source
    exact congrArg (Option.map _) (outcome_perm h _)

/-- **In every order of its plugins a conversion answers with the same schema**, or with none. -/
theorem convert_perm (h : order.Perm setting.plugins) (place : Place) (depth : Nat) (tree : Tree) :
    (convert { setting with plugins := order } place depth tree).1 =
      (convert setting place depth tree).1 := by
  unfold convert
  rw [convertWithin_fst, convertWithin_fst, shapeWithin_perm h]

/-- An account, of which something is read-only, something skipped and something sensitive. -/
def account : OpenApi.Schema where
  type := some (.one "object")
  required := ["id", "name", "note", "password"]
  properties := [("id", { readOnly := true }), ("name", {}), ("note", {}), ("password", {})]

def accountSetting : Setting where
  document := {}
  filters := { readWriteOnly := true, skipped := ["$.note"], sensitive := ["$.password"] }

/-- A secret that takes the place of a property first instead of last leaves the same account. -/
theorem account_reversed :
    PropertyPlugin.all.reverse.Perm accountSetting.plugins ∧
      ∃ result, (convert accountSetting ⟨some account, Tree.root, [Path.root]⟩ 0 .empty).1 = some result ∧
        (convert { accountSetting with plugins := PropertyPlugin.all.reverse }
          ⟨some account, Tree.root, [Path.root]⟩ 0
          .empty).1 = some result ∧
        Keyed.keys result.properties = ["name", "passwordSecretRef"] ∧
        result.required = ["name", "passwordSecretRef"] := by
  have hperm : PropertyPlugin.all.reverse.Perm accountSetting.plugins := List.reverse_perm _
  have hsome : ((convert accountSetting ⟨some account, Tree.root, [Path.root]⟩ 0 .empty).1.any fun result =>
      Keyed.keys result.properties == ["name", "passwordSecretRef"] &&
        result.required == ["name", "passwordSecretRef"]) = true := by decide +kernel
  obtain ⟨result, hr, hlisted⟩ := Option.any_eq_true _ _ |>.mp hsome
  rw [Bool.and_eq_true, beq_iff_eq, beq_iff_eq] at hlisted
  exact ⟨hperm, result, hr, (convert_perm hperm _ 0 .empty).trans hr, hlisted⟩

end CrdForge.Conversion
