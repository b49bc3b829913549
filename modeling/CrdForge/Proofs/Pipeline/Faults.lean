import CrdForge.Pipeline.PluginSet
import Mathlib.Data.Fintype.Pigeonhole
import Mathlib.Data.Set.Finite.List
import Mathlib.Data.List.Nodup

/-! What may be wrong with declarations of sets of plugins.

Each reason for which declarations make no sets is a statement about them alone (`Unresolved.Warranted`),
in which neither the queue nor what was resolved occurs. Declarations of which one of them is true make
no sets (`Unresolved.Warranted.not_resolvable`). -/
namespace CrdForge.Pipeline

open Config (SetDeclaration)

variable {catalog : Catalog} {declarations : List SetDeclaration}

/-- Whether a set is declared to inherit from another. -/
def Inherits (declarations : List SetDeclaration) (child parent : String) : Prop :=
  ∃ declaration ∈ declarations, declaration.name = child ∧ declaration.inherit = some parent

/-- Whether declarations make sets. -/
structure Resolvable (catalog : Catalog) (declarations : List SetDeclaration) : Prop where
  distinct : (declarations.map (·.name)).Nodup
  declared : ∀ declaration ∈ declarations, ∀ parent, declaration.inherit = some parent →
    parent ∈ declarations.map (·.name)
  acyclic : ∀ name, ¬ Relation.TransGen (Inherits declarations) name name
  known : ∀ declaration ∈ declarations, ∀ plugin ∈ declaration.plugins, plugin ∈ catalog.names
  oneDefault : (declarations.filter (·.default)).length ≤ 1

/-- Whether nothing but the number of default sets keeps declarations from making sets. -/
structure Orderly (catalog : Catalog) (declarations : List SetDeclaration) : Prop where
  distinct : (declarations.map (·.name)).Nodup
  declared : ∀ declaration ∈ declarations, ∀ parent, declaration.inherit = some parent →
    parent ∈ declarations.map (·.name)
  acyclic : ∀ name, ¬ Relation.TransGen (Inherits declarations) name name
  known : ∀ declaration ∈ declarations, ∀ plugin ∈ declaration.plugins, plugin ∈ catalog.names

/-- Whether the plugins of a set are known, and so are those of all sets that it inherits from. -/
inductive Settles (catalog : Catalog) (declarations : List SetDeclaration) : String → Prop
  | intro {declaration : SetDeclaration} : declaration ∈ declarations →
    (∀ plugin ∈ declaration.plugins, plugin ∈ catalog.names) →
    (∀ parent, declaration.inherit = some parent → Settles catalog declarations parent) →
    Settles catalog declarations declaration.name

/-- Whether the way from a set to its parent, to the parent of that and so
on stays within declared sets and has no end. -/
def Endless (declarations : List SetDeclaration) (set : String) : Prop :=
  ∃ chain : Nat → String, chain 0 = set ∧ ∀ i, Inherits declarations (chain i) (chain (i + 1))

/-- Whether these are the default sets, with parents before those that
inherit from them, and too many of them is all that is wrong. -/
structure Rivals (catalog : Catalog) (declarations : List SetDeclaration) (sets : List String) : Prop where
  defaults : sets.Perm ((declarations.filter (·.default)).map (·.name))
  several : 2 ≤ sets.length
  ordered : sets.Pairwise fun earlier later => ¬ Relation.TransGen (Inherits declarations) earlier later
  orderly : Orderly catalog declarations

/-- Whether what is said to be wrong is wrong. -/
def Unresolved.Warranted (catalog : Catalog) (declarations : List SetDeclaration) : Unresolved → Prop
  | .duplicateSet set => 2 ≤ (declarations.map (·.name)).count set
  | .unknownParent set parent => Inherits declarations set parent ∧ parent ∉ declarations.map (·.name)
  | .pluginNotFound set plugin =>
    (∃ declaration ∈ declarations, declaration.name = set ∧ plugin ∈ declaration.plugins) ∧
      plugin ∉ catalog.names ∧
      ∀ ancestor, Relation.TransGen (Inherits declarations) set ancestor →
        Settles catalog declarations ancestor
  | .circularDependency set => (declarations.map (·.name)).Nodup ∧ Endless declarations set
  | .multipleDefaults sets => Rivals catalog declarations sets

/-! ### Parents -/

/-- Sets of different names have one parent at most. -/
theorem inherit_of_inherits (hn : (declarations.map (·.name)).Nodup) {declaration : SetDeclaration}
    (hm : declaration ∈ declarations) {parent : String} (hi : Inherits declarations declaration.name parent) :
    declaration.inherit = some parent := by
  obtain ⟨other, ho, hname, hi⟩ := hi
  obtain rfl := List.inj_on_of_nodup_map hn ho hm hname
  exact hi

theorem Settles.parent (hn : (declarations.map (·.name)).Nodup) {set parent : String}
    (h : Settles catalog declarations set) (hi : Inherits declarations set parent) :
    Settles catalog declarations parent := by
  cases h with
  | intro hm _ hparent => exact hparent parent (inherit_of_inherits hn hm hi)

/-- All that a set inherits from settles if its parent does. -/
theorem settles_of_parent (hn : (declarations.map (·.name)).Nodup) {set ancestor : String}
    (h : ∀ parent, Inherits declarations set parent → Settles catalog declarations parent)
    (ha : Relation.TransGen (Inherits declarations) set ancestor) :
    Settles catalog declarations ancestor := by
  induction ha with
  | single hi => exact h _ hi
  | tail _ hi ih => exact ih.parent hn hi

/-! ### Chains without an end -/

/-- Where every set has a parent among the same sets, the way to parents has no end. -/
theorem endless_of_closed {names : List String}
    (h : ∀ name ∈ names, ∃ parent ∈ names, Inherits declarations name parent) {set : String}
    (hs : set ∈ names) :
    Endless declarations set := by
  choose next hnext hinherits using h
  let chain (i : Nat) : { name // name ∈ names } :=
    (fun name => ⟨next name.1 name.2, hnext name.1 name.2⟩)^[i] ⟨set, hs⟩
  refine ⟨fun i => (chain i).1, rfl, fun i => ?_⟩
  have hstep : chain (i + 1) = ⟨next (chain i).1 (chain i).2, hnext _ _⟩ := Function.iterate_succ_apply' ..
  dsimp only
  rw [hstep]
  exact hinherits _ _

/-- There are finitely many declared sets, so a way without an end comes back to where it was. -/
theorem Endless.cycle {set : String} (h : Endless declarations set) :
    ∃ name, Relation.TransGen (Inherits declarations) name name := by
  obtain ⟨chain, -, hchain⟩ := h
  have hdeclared (i : Nat) : chain i ∈ declarations.map (·.name) := by
    obtain ⟨declaration, hm, hname, -⟩ := hchain i
    exact hname ▸ List.mem_map_of_mem hm
  have hlater {i j : Nat} (hij : i < j) : Relation.TransGen (Inherits declarations) (chain i) (chain j) := by
    induction hij with
    | refl => exact .single (hchain i)
    | step _ ih => exact .tail ih (hchain _)
  have : Finite { name // name ∈ declarations.map (·.name) } := (List.finite_toSet _).to_subtype
  obtain ⟨i, j, hne, he⟩ := Finite.exists_ne_map_eq_of_infinite
    fun i => (⟨chain i, hdeclared i⟩ : { name // name ∈ declarations.map (·.name) })
  have he : chain i = chain j := congrArg Subtype.val he
  rcases Nat.lt_or_gt_of_ne hne with hij | hji
  · have hcycle := hlater hij
    rw [← he] at hcycle
    exact ⟨chain i, hcycle⟩
  · have hcycle := hlater hji
    rw [he] at hcycle
    exact ⟨chain j, hcycle⟩

/-! ### Declarations that make no sets -/

theorem Orderly.resolvable (h : Orderly catalog declarations)
    (hd : (declarations.filter (·.default)).length ≤ 1) : Resolvable catalog declarations :=
  ⟨h.distinct, h.declared, h.acyclic, h.known, hd⟩

/-- Declarations with something wrong make no sets. -/
theorem Unresolved.Warranted.not_resolvable {fault : Unresolved} (h : fault.Warranted catalog declarations) :
    ¬ Resolvable catalog declarations := by
  intro hr
  cases fault with
  | duplicateSet set => exact absurd (List.nodup_iff_count_le_one.mp hr.distinct set) (Nat.not_le.mpr h)
  | unknownParent set parent =>
    obtain ⟨⟨declaration, hm, -, hi⟩, hp⟩ := h
    exact hp (hr.declared declaration hm parent hi)
  | pluginNotFound set plugin =>
    obtain ⟨⟨declaration, hm, -, hp⟩, hk, -⟩ := h
    exact hk (hr.known declaration hm plugin hp)
  | circularDependency set =>
    obtain ⟨name, hcycle⟩ := h.2.cycle
    exact hr.acyclic name hcycle
  | multipleDefaults sets =>
    have hlength := h.defaults.length_eq
    rw [List.length_map] at hlength
    have hone := hr.oneDefault
    have hseveral := h.several
    omega

end CrdForge.Pipeline
