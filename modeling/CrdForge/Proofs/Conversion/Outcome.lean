import CrdForge.Conversion.Convert

/-! What becomes of a converted node.

Whether the plugins of a chain keep a node depends on where it stands and on its source, not on the schema
that was made of it (`outcome_isSome`), and a chain does two things: it answers with a schema, and it may
conceal what was said at the node and below it (`applyAll_eq`). -/
namespace CrdForge.Conversion

open Extension (NodeId Tree)

/-! ### Steps

A step is a function of the tree, so these hold by computation. -/

section Step
variable {α β : Type}

@[simp] theorem pure_apply (a : α) (tree : Tree) : (pure a : Step α) tree = (a, tree) := rfl

@[simp] theorem bind_apply (step : Step α) (next : α → Step β) (tree : Tree) :
    (step >>= next) tree = next (step tree).1 (step tree).2 := rfl

@[simp] theorem map_apply (f : α → β) (step : Step α) (tree : Tree) :
    (f <$> step) tree = (f (step tree).1, (step tree).2) := rfl

@[simp] theorem modify_apply (change : Tree → Tree) (tree : Tree) :
    (modify change : Step PUnit) tree = (⟨⟩, change tree) := rfl

@[simp] theorem modifyGet_apply (change : Tree → α × Tree) (tree : Tree) :
    (modifyGet change : Step α) tree = change tree := rfl

end Step

/-! ### Single plugins -/

/-- The leaf of the field that a reference to a secret stands in for at a site, if one does. -/
def Site.secret? (site : Site) : Option String :=
  if site.filters.sensitive.contains site.location then site.path.getLast? else none

/-- Says at a node that it refers to a secret, and nothing below it. -/
def Site.conceal (site : Site) (tree : Tree) : Tree :=
  ((tree.modify site.node fun node => { node with properties := [], items := none })
    |>.annotate site.node Extension.clusterMapping secretMapping)
    |>.annotate site.node Extension.apiMapping (secretOrigin site)

namespace PropertyPlugin

/-- Whether a plugin leaves a node out. -/
def drops (site : Site) : PropertyPlugin → Bool
  | .readOnly => site.filters.readOnly && !site.source.readOnly && !Path.isRoot site.path
  | .readWrite => site.filters.readWriteOnly && site.source.readOnly
  | .skipped => site.filters.skipped.contains site.location
  | .sensitive => false

/-- What a plugin makes of the schema of a node. -/
def outcome (site : Site) (schema : Crd.Schema) : PropertyPlugin → Option Crd.Schema
  | .readOnly => keepReadOnly site schema
  | .readWrite => keepReadWrite site schema
  | .skipped => keepUnlisted site schema
  | .sensitive => some ((site.secret?.map (secretReference · schema.description)).getD schema)

/-- Whether a plugin conceals what is said at a node. -/
def conceals (site : Site) (plugin : PropertyPlugin) : Bool := plugin == sensitive && site.secret?.isSome

theorem outcome_isSome (site : Site) (schema : Crd.Schema) (plugin : PropertyPlugin) :
    (plugin.outcome site schema).isSome = !plugin.drops site := by
  cases plugin with
  | readOnly =>
    simp only [outcome, keepReadOnly, drops]
    cases site.filters.readOnly <;> cases site.source.readOnly <;> cases Path.isRoot site.path <;> rfl
  | readWrite =>
    simp only [outcome, keepReadWrite, drops]
    cases site.filters.readWriteOnly <;> cases site.source.readOnly <;> rfl
  | skipped =>
    simp only [outcome, keepUnlisted, drops]
    cases site.filters.skipped.contains site.location
    · simp only [Bool.false_eq_true, if_false]
      split <;> rfl
    · rfl
  | sensitive => rfl

theorem hideSensitive_eq (site : Site) (schema : Crd.Schema) (tree : Tree) :
    hideSensitive site schema tree =
      ((site.secret?.map (secretReference · schema.description)).getD schema,
        if site.secret?.isSome then site.conceal tree else tree) := by
  by_cases hs : site.location ∈ site.filters.sensitive
  · cases h : site.path.getLast? with
    | none => simp [hideSensitive, Site.secret?, hs, h]
    | some leaf => simp [hideSensitive, Site.secret?, hs, h, Site.conceal]
  · simp [hideSensitive, Site.secret?, hs]

theorem apply_eq (site : Site) (schema : Crd.Schema) (plugin : PropertyPlugin) (tree : Tree) :
    plugin.apply site schema tree =
      (plugin.outcome site schema, if plugin.conceals site then site.conceal tree else tree) := by
  cases plugin with
  | sensitive => simp [apply, hideSensitive_eq, outcome, conceals]
  | _ => rfl

end PropertyPlugin

/-! ### Chains -/

/-- What a chain of plugins makes of the schema of a node. -/
def outcome (site : Site) : List PropertyPlugin → Crd.Schema → Option Crd.Schema
  | [], schema => some schema
  | plugin :: rest, schema => (plugin.outcome site schema).bind (outcome site rest)

/-- Whether a chain of plugins keeps a node. -/
def keeps (site : Site) (plugins : List PropertyPlugin) : Bool := plugins.all fun plugin => !plugin.drops site

/-- What a chain of plugins does to what is said at a node, given how it is concealed. Plugins after the
first one that leaves the node out do nothing. -/
def concealing {σ : Type} (site : Site) (conceal : σ → σ) : List PropertyPlugin → σ → σ
  | [], said => said
  | plugin :: rest, said =>
    let said := if plugin.conceals site then conceal said else said
    if plugin.drops site then said else concealing site conceal rest said

theorem outcome_isSome (site : Site) (plugins : List PropertyPlugin) (schema : Crd.Schema) :
    (outcome site plugins schema).isSome = keeps site plugins := by
  induction plugins generalizing schema with
  | nil => rfl
  | cons plugin rest ih =>
    have h := plugin.outcome_isSome site schema
    cases ho : plugin.outcome site schema with
    | none => simp_all [outcome, keeps]
    | some kept => simp_all [outcome, keeps]

theorem applyAll_eq (site : Site) (plugins : List PropertyPlugin) (schema : Crd.Schema) (tree : Tree) :
    applyAll site plugins schema tree =
      (outcome site plugins schema, concealing site site.conceal plugins tree) := by
  induction plugins generalizing schema tree with
  | nil => rfl
  | cons plugin rest ih =>
    have h := plugin.outcome_isSome site schema
    simp only [applyAll, bind_apply, plugin.apply_eq, outcome, concealing]
    cases ho : plugin.outcome site schema with
    | none => simp_all
    | some kept => simp_all

/-- With all plugins in their usual order, what is said is concealed last of all. -/
theorem concealing_all {σ : Type} (site : Site) (conceal : σ → σ) (said : σ) :
    concealing site conceal PropertyPlugin.all said =
      if keeps site PropertyPlugin.all && site.secret?.isSome then conceal said else said := by
  have hr : PropertyPlugin.readOnly.conceals site = false := rfl
  have hw : PropertyPlugin.readWrite.conceals site = false := rfl
  have hk : PropertyPlugin.skipped.conceals site = false := rfl
  have hs : PropertyPlugin.sensitive.conceals site = site.secret?.isSome := rfl
  have hd : PropertyPlugin.sensitive.drops site = false := rfl
  simp only [PropertyPlugin.all, concealing, keeps, List.all_cons, List.all_nil, hr, hw, hk, hs, hd]
  by_cases h₁ : PropertyPlugin.readOnly.drops site = true
  · simp [h₁]
  · by_cases h₂ : PropertyPlugin.readWrite.drops site = true
    · simp [h₁, h₂]
    · by_cases h₃ : PropertyPlugin.skipped.drops site = true <;> simp [h₁, h₂, h₃]

end CrdForge.Conversion
