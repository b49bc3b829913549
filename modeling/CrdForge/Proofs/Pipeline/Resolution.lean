import CrdForge.Proofs.Pipeline.Faults
import CrdForge.Proofs.Run

/-! Which declarations make sets of plugins, and which sets they make.

Every state of the queue is `Sound`: what was resolved was derived from sets before it, and of what waits
those at the end wait for a parent that waits as well. A step of the queue keeps this and comes closer to
the end, or shows what is wrong with the declarations (`Queue.Sound.step`). So the queue is empty after
as many steps as it is given, and declarations make sets exactly if nothing is wrong with them
(`resolveSets_ok_iff`). -/
namespace CrdForge

open Config (SetDeclaration)

namespace Pipeline

open Run

/-! ### Names of plugins -/

theorem Plugin.find_name (plugin : Plugin) : Plugin.all.find? (·.name == plugin.name) = some plugin := by
  rcases plugin with _ | plugin | plugin | plugin
  · rfl
  all_goals cases plugin <;> rfl

/-- A plugin is known by its name. -/
theorem Plugin.name_injective : Function.Injective Plugin.name := fun first second h =>
  Option.some.inj ((h ▸ first.find_name).symm.trans second.find_name)

theorem Catalog.plugin?_eq_none {catalog : Catalog} {name : String} :
    catalog.plugin? name = none ↔ name ∉ catalog.names := by
  simp [plugin?, names]

theorem Catalog.name_of_plugin? {catalog : Catalog} {name : String} {plugin : Plugin}
    (h : catalog.plugin? name = some plugin) : plugin.name = name := by
  simpa using List.find?_some h

/-! ### Lists without repetitions -/

section
variable {α : Type} [BEq α] [LawfulBEq α] {xs ys : List α} {x : α}

theorem eraseDups_of_nodup (h : xs.Nodup) : xs.eraseDups = xs := by
  induction xs with
  | nil => rfl
  | cons x rest ih =>
    obtain ⟨hx, hrest⟩ := List.nodup_cons.mp h
    have hf : rest.filter (fun y => !y == x) = rest :=
      List.filter_eq_self.mpr fun y hy => by
        have hne : y ≠ x := fun he => hx (he ▸ hy)
        simpa using hne
    rw [List.eraseDups_cons, hf, ih hrest]

theorem nodup_eraseDups (xs : List α) : xs.eraseDups.Nodup := by
  induction hn : xs.length using Nat.strongRecOn generalizing xs with
  | ind n ih =>
    cases xs with
    | nil => exact List.nodup_nil
    | cons x rest =>
      rw [List.eraseDups_cons, List.nodup_cons, List.mem_eraseDups]
      refine ⟨by simp, ih _ ?_ _ rfl⟩
      rw [← hn]
      exact Nat.lt_succ_of_le (List.length_filter_le _ _)

/-- What is there already adds nothing. -/
theorem eraseDups_append_cons_of_mem (h : x ∈ xs) : (xs ++ x :: ys).eraseDups = (xs ++ ys).eraseDups := by
  rw [List.eraseDups_append, List.eraseDups_append, List.cons_removeAll, if_neg (by simpa using h)]

end

/-! ### Names of declarations -/

theorem repeated?_eq_none {before names : List String} :
    repeated? before names = none ↔ names.Nodup ∧ ∀ name ∈ names, name ∉ before := by
  induction names generalizing before with
  | nil => simp [repeated?]
  | cons name rest ih =>
    rw [repeated?]
    split
    · next hb =>
      have hb : name ∈ before := by simpa using hb
      simp [hb]
    · next hb =>
      have hb : name ∉ before := by simpa using hb
      rw [ih, List.nodup_cons]
      constructor
      · rintro ⟨hrest, hn⟩
        refine ⟨⟨fun hm => hn name hm (List.mem_cons_self ..), hrest⟩, fun other ho => ?_⟩
        rcases List.mem_cons.mp ho with rfl | ho
        · exact hb
        · exact fun hm => hn other ho (List.mem_cons_of_mem _ hm)
      · rintro ⟨⟨hn, hrest⟩, hall⟩
        refine ⟨hrest, fun other ho hm => ?_⟩
        rcases List.mem_cons.mp hm with rfl | hm
        · exact hn ho
        · exact hall other (List.mem_cons_of_mem _ ho) hm

variable {catalog : Catalog} {declarations : List SetDeclaration}

/-! ### Single sets -/

/-- The names of the plugins that a declaration inherits from one of the sets before it. -/
inductive Inherited (sets : List PluginSet) (declaration : SetDeclaration) : List String → Prop
  | root : declaration.inherit = none → Inherited sets declaration []
  | child {parent : PluginSet} : parent ∈ sets → declaration.inherit = some parent.name →
    Inherited sets declaration (parent.plugins.map Plugin.name)

/-- The parent of a declaration is one of the sets before it. -/
theorem Inherited.parent {sets : List PluginSet} {declaration : SetDeclaration} {names : List String}
    (h : Inherited sets declaration names) {parent : String} (hp : declaration.inherit = some parent) :
    ∃ set ∈ sets, set.name = parent := by
  cases h with
  | root hnone => simp [hp] at hnone
  | @child set hset hi => exact ⟨set, hset, Option.some.inj (hi.symm.trans hp)⟩

/-- Whether a set has the plugins of its declaration behind inherited ones, each of them once. -/
structure Derived (catalog : Catalog) (sets : List PluginSet) (declaration : SetDeclaration)
    (set : PluginSet) :
    Prop where
  name : set.name = declaration.name
  plugins : ∃ inherited, Inherited sets declaration inherited ∧
    set.plugins.map Plugin.name = (inherited ++ declaration.plugins).eraseDups
  known : ∀ plugin ∈ declaration.plugins, plugin ∈ catalog.names

theorem addPlugins_spec (catalog : Catalog) (set : String) {plugins : List Plugin}
    (hn : (plugins.map Plugin.name).Nodup) (names : List String) :
    match addPlugins catalog set plugins names with
    | .ok all => all.map Plugin.name = (plugins.map Plugin.name ++ names).eraseDups ∧
      ∀ name ∈ names, name ∈ catalog.names
    | .error fault => ∃ name ∈ names, name ∉ catalog.names ∧ fault = .pluginNotFound set name := by
  induction names generalizing plugins with
  | nil =>
    refine ⟨?_, by simp⟩
    rw [List.append_nil, eraseDups_of_nodup hn]
  | cons name rest ih =>
    rw [addPlugins]
    cases hp : catalog.plugin? name with
    | none => exact ⟨name, List.mem_cons_self .., Catalog.plugin?_eq_none.mp hp, rfl⟩
    | some plugin =>
      obtain rfl : plugin.name = name := Catalog.name_of_plugin? hp
      have hknown : plugin.name ∈ catalog.names := by
        by_contra hc
        rw [Catalog.plugin?_eq_none.mpr hc] at hp
        cases hp
      have hmem : plugin.name ∈ plugins.map Plugin.name ↔ plugin ∈ plugins :=
        List.mem_map_of_injective Plugin.name_injective
      -- Either way the names after this one go on as if it stood at the end of those before.
      have hnext :
        ((if plugins.contains plugin then plugins else plugins ++ [plugin]).map Plugin.name).Nodup ∧
          ((if plugins.contains plugin then plugins else plugins ++ [plugin]).map Plugin.name ++
            rest).eraseDups =
            (plugins.map Plugin.name ++ plugin.name :: rest).eraseDups := by
        split
        · next hc =>
          have hc : plugin ∈ plugins := by simpa using hc
          exact ⟨hn, (eraseDups_append_cons_of_mem (hmem.mpr hc)).symm⟩
        · next hc =>
          have hc : plugin ∉ plugins := by simpa using hc
          have hd : (plugins.map Plugin.name).Disjoint [plugin.name] := by simpa using fun h => hc (hmem.mp h)
          rw [List.map_append]
          refine ⟨List.Nodup.append hn (List.nodup_singleton _) hd, ?_⟩
          rw [List.append_assoc]
          rfl
      have hrest := ih hnext.1
      rw [hnext.2] at hrest
      dsimp only
      generalize addPlugins catalog set _ rest = result at hrest ⊢
      cases result with
      | ok all =>
        refine ⟨hrest.1, fun other ho => ?_⟩
        rcases List.mem_cons.mp ho with rfl | ho
        · exact hknown
        · exact hrest.2 other ho
      | error =>
        obtain ⟨other, ho, hk⟩ := hrest
        exact ⟨other, List.mem_cons_of_mem _ ho, hk⟩

/-- Declarations whose sets were derived one after another, each from sets before it. -/
inductive Resolves (catalog : Catalog) : List SetDeclaration → List PluginSet → Prop
  | nil : Resolves catalog [] []
  | snoc {done : List SetDeclaration} {sets : List PluginSet} {declaration : SetDeclaration}
    {set : PluginSet} :
    Resolves catalog done sets → Derived catalog sets declaration set → set.default = declaration.default →
    Resolves catalog (done ++ [declaration]) (sets ++ [set])

namespace Resolves
variable {done : List SetDeclaration} {sets : List PluginSet}

theorem names (h : Resolves catalog done sets) : sets.map (·.name) = done.map (·.name) := by
  induction h with
  | nil => rfl
  | snoc _ hd _ ih =>
    rw [List.map_append, List.map_append, ih, List.map_singleton, List.map_singleton, hd.name]

theorem nodup (h : Resolves catalog done sets) {set : PluginSet} (hs : set ∈ sets) :
    (set.plugins.map Plugin.name).Nodup := by
  induction h with
  | nil => cases hs
  | snoc _ hd _ ih =>
    rcases List.mem_append.mp hs with hs | hs
    · exact ih hs
    · obtain rfl := List.mem_singleton.mp hs
      obtain ⟨inherited, -, hp⟩ := hd.plugins
      rw [hp]
      exact nodup_eraseDups _

/-- What was resolved settles. -/
theorem settles (h : Resolves catalog done sets) (hsub : done ⊆ declarations) {set : PluginSet}
    (hs : set ∈ sets) :
    Settles catalog declarations set.name := by
  induction h generalizing set with
  | nil => cases hs
  | @snoc done sets declaration last _ hd _ ih =>
    obtain ⟨hdone, hlast⟩ := List.append_subset.mp hsub
    rcases List.mem_append.mp hs with hs | hs
    · exact ih hdone hs
    · obtain rfl := List.mem_singleton.mp hs
      obtain ⟨inherited, hi, -⟩ := hd.plugins
      rw [hd.name]
      refine .intro (hlast (List.mem_singleton_self _)) hd.known fun parent hp => ?_
      obtain ⟨set, hset, rfl⟩ := hi.parent hp
      exact ih hdone hset

end Resolves

theorem resolveOne_spec (catalog : Catalog) {sets : List PluginSet} {declaration : SetDeclaration}
    {inherited : List Plugin} (hi : Inherited sets declaration (inherited.map Plugin.name))
    (hn : (inherited.map Plugin.name).Nodup) :
    match resolveOne catalog declaration inherited with
    | .ok set => Derived catalog sets declaration set ∧ set.default = declaration.default
    | .error fault =>
      ∃ plugin ∈ declaration.plugins, plugin ∉ catalog.names ∧
        fault = .pluginNotFound declaration.name plugin := by
  have h := addPlugins_spec catalog declaration.name hn declaration.plugins
  rw [resolveOne]
  generalize addPlugins catalog declaration.name inherited declaration.plugins = result at h ⊢
  cases result with
  | ok plugins => exact ⟨⟨rfl, ⟨_, hi, h.1⟩, h.2⟩, rfl⟩
  | error => exact h

/-! ### The queue -/

/-- Whether a declaration waits for a parent that has no set yet. -/
def Stuck (declarations : List SetDeclaration) (sets : List PluginSet)
    (declaration : SetDeclaration) : Prop :=
  ∃ parent ∈ declarations.map (·.name), declaration.inherit = some parent ∧ parent ∉ sets.map (·.name)

theorem inherited?_spec (declarations : List SetDeclaration) {done : List SetDeclaration}
    {sets : List PluginSet} (h : Resolves catalog done sets) (declaration : SetDeclaration) :
    match inherited? (declarations.map (·.name)) sets declaration with
    | .ok (some plugins) => Inherited sets declaration (plugins.map Plugin.name) ∧
      (plugins.map Plugin.name).Nodup
    | .ok none => Stuck declarations sets declaration
    | .error fault => ∃ parent, declaration.inherit = some parent ∧ parent ∉ declarations.map (·.name) ∧
        fault = .unknownParent declaration.name parent := by
  rw [inherited?]
  cases hi : declaration.inherit with
  | none => exact ⟨.root hi, List.nodup_nil⟩
  | some parent =>
    dsimp only
    by_cases hd : parent ∈ declarations.map (·.name)
    · rw [if_neg (by simpa using hd)]
      cases hf : sets.find? (·.name == parent) with
      | none => exact ⟨parent, hd, hi, by simpa using List.find?_eq_none.mp hf⟩
      | some set =>
        have hm : set ∈ sets := List.mem_of_find?_eq_some hf
        have hn : set.name = parent := by simpa using List.find?_some hf
        exact ⟨.child hm (hn ▸ hi), h.nodup hm⟩
    · rw [if_pos (by simpa using hd)]
      exact ⟨parent, rfl, hd, rfl⟩

namespace Queue
variable {queue : Queue}

/-- What holds of every state of a queue: all declarations were resolved or wait, and those that went
back to the end since a set was resolved last are stuck. -/
structure Sound (catalog : Catalog) (declarations : List SetDeclaration) (queue : Queue) : Prop where
  resolved : ∃ done, Resolves catalog done queue.resolved ∧ (done ++ queue.waiting).Perm declarations
  stalled : ∃ fresh back, queue.waiting = fresh ++ back ∧ queue.stalled = back.map (·.name) ∧
    (fresh = [] → back = []) ∧ ∀ declaration ∈ back, Stuck declarations queue.resolved declaration

/-- How many steps are left at most. -/
def stepsLeft (queue : Queue) : Nat := maxSteps queue.waiting.length - queue.stalled.length

theorem maxSteps_succ (count : Nat) : maxSteps (count + 1) = maxSteps count + (count + 1) := by
  have h : (count + 1) * (count + 1 + 1) = count * (count + 1) + 2 * (count + 1) := by
    rw [Nat.mul_comm (count + 1), ← Nat.add_mul]
  rw [maxSteps, maxSteps, h]
  omega

theorem start_sound (catalog : Catalog) (declarations : List SetDeclaration) :
    Sound catalog declarations { waiting := declarations } :=
  ⟨⟨[], .nil, .refl _⟩, declarations, [], (List.append_nil _).symm, rfl, fun _ => rfl, by simp⟩

/-- All that wait wait for one that waits if all of them are stuck. -/
theorem endless_of_stuck {done : List SetDeclaration} (hdone : Resolves catalog done queue.resolved)
    (hperm : (done ++ queue.waiting).Perm declarations)
    (hstuck : ∀ declaration ∈ queue.waiting, Stuck declarations queue.resolved declaration) {set : String}
    (hs : set ∈ queue.waiting.map (·.name)) : Endless declarations set := by
  refine endless_of_closed (fun name hname => ?_) hs
  obtain ⟨declaration, hm, rfl⟩ := List.mem_map.mp hname
  obtain ⟨parent, hp, hi, hresolved⟩ := hstuck declaration hm
  refine ⟨parent, ?_, declaration, hperm.subset (List.mem_append_right _ hm), rfl, hi⟩
  have hp := (hperm.map (·.name)).symm.subset hp
  rw [List.map_append, List.mem_append, ← hdone.names] at hp
  exact hp.resolve_left hresolved

namespace Sound
variable {declaration : SetDeclaration} {rest : List SetDeclaration} (h : Sound catalog declarations queue)
  (hw : queue.waiting = declaration :: rest)
include h hw

/-- The first that waits did not go back since a set was resolved last. -/
theorem split : ∃ fresh back, rest = fresh ++ back ∧ queue.stalled = back.map (·.name) ∧
    ∀ other ∈ back, Stuck declarations queue.resolved other := by
  obtain ⟨-, fresh, back, hwaiting, hstalled, hfresh, hstuck⟩ := h
  cases fresh with
  | nil =>
    rw [hfresh rfl, hw] at hwaiting
    cases hwaiting
  | cons first fresh =>
    rw [hw, List.cons_append] at hwaiting
    exact ⟨fresh, back, (List.cons.inj hwaiting).2, hstalled, hstuck⟩

theorem resolve {set : PluginSet} (hd : Derived catalog queue.resolved declaration set)
    (hdefault : set.default = declaration.default) :
    let next : Queue := ⟨rest, queue.resolved ++ [set], []⟩
    Sound catalog declarations next ∧ next.stepsLeft < queue.stepsLeft := by
  obtain ⟨done, hdone, hperm⟩ := h.resolved
  obtain ⟨fresh, back, rfl, hstalled, -⟩ := h.split hw
  refine ⟨⟨⟨done ++ [declaration], .snoc hdone hd hdefault, ?_⟩, fresh ++ back, [], ?_⟩, ?_⟩
  · rw [List.append_assoc, List.singleton_append, ← hw]
    exact hperm
  · exact ⟨(List.append_nil _).symm, rfl, fun _ => rfl, by simp⟩
  · rw [stepsLeft, stepsLeft, hw, hstalled, List.length_cons, maxSteps_succ]
    simp only [List.length_append, List.length_nil, List.length_map]
    omega

variable (hs : Stuck declarations queue.resolved declaration)
include hs

theorem putBack (hl : queue.stalled.length < rest.length) :
    let next : Queue := ⟨rest ++ [declaration], queue.resolved, queue.stalled ++ [declaration.name]⟩
    Sound catalog declarations next ∧ next.stepsLeft < queue.stepsLeft := by
  obtain ⟨done, hdone, hperm⟩ := h.resolved
  obtain ⟨fresh, back, rfl, hstalled, hstuck⟩ := h.split hw
  rw [hstalled, List.length_append, List.length_map] at hl
  refine ⟨⟨⟨done, hdone, ?_⟩, fresh, back ++ [declaration], ?_⟩, ?_⟩
  · refine .trans (.append_left done ?_) hperm
    rw [hw]
    exact List.perm_append_singleton _ _
  · refine ⟨List.append_assoc .., by simp [hstalled], fun hf => ?_, fun other ho => ?_⟩
    · -- Then all of the rest went back, and so would all that wait.
      rw [hf] at hl
      exact absurd hl (by simp)
    · rcases List.mem_append.mp ho with ho | ho
      · exact hstuck other ho
      · exact List.mem_singleton.mp ho ▸ hs
  · rw [stepsLeft, stepsLeft, hw, hstalled, List.length_cons]
    simp only [List.length_append, List.length_map, List.length_singleton]
    rw [maxSteps_succ]
    omega

/-- Where all that wait went back, the first that did waits without end. -/
theorem circular (hl : rest.length ≤ queue.stalled.length) :
    Endless declarations ((queue.stalled ++ [declaration.name]).headD declaration.name) := by
  obtain ⟨done, hdone, hperm⟩ := h.resolved
  obtain ⟨fresh, back, rfl, hstalled, hstuck⟩ := h.split hw
  rw [hstalled, List.length_append, List.length_map] at hl
  obtain rfl : fresh = [] := List.eq_nil_of_length_eq_zero (by omega)
  rw [List.nil_append] at hw
  refine endless_of_stuck hdone hperm (fun other ho => ?_) ?_
  · rw [hw] at ho
    rcases List.mem_cons.mp ho with rfl | ho
    · exact hs
    · exact hstuck other ho
  · rw [hw, hstalled]
    cases back with
    | nil => exact List.mem_cons_self ..
    | cons first more => exact List.mem_cons_of_mem _ (List.mem_cons_self ..)

end Sound

/-- **A step keeps a queue sound and comes closer to its end, or says what is wrong.** -/
theorem Sound.step (h : Sound catalog declarations queue) (hw : queue.waiting ≠ []) :
    match queue.step catalog (declarations.map (·.name)) with
    | .ok next => Sound catalog declarations next ∧ next.stepsLeft < queue.stepsLeft
    | .error fault => (declarations.map (·.name)).Nodup → fault.Warranted catalog declarations := by
  obtain ⟨declaration, rest, hw⟩ := List.exists_cons_of_ne_nil hw
  obtain ⟨done, hdone, hperm⟩ := h.resolved
  have hm : declaration ∈ declarations := hperm.subset (by simp [hw])
  have hstep := inherited?_spec declarations hdone declaration
  rw [Queue.step, hw]
  dsimp only [bind, Except.bind]
  generalize inherited? (declarations.map (·.name)) queue.resolved declaration = parent at hstep ⊢
  cases parent with
  | error fault =>
    obtain ⟨parent, hi, hp, rfl⟩ := hstep
    exact fun _ => ⟨⟨declaration, hm, rfl, hi⟩, hp⟩
  | ok parent =>
    cases parent with
    | some inherited =>
      have hset := resolveOne_spec catalog hstep.1 hstep.2
      dsimp only
      generalize resolveOne catalog declaration inherited = set at hset ⊢
      cases set with
      | error fault =>
        obtain ⟨plugin, hp, hk, rfl⟩ := hset
        intro hn
        refine ⟨⟨declaration, hm, rfl, hp⟩, hk, fun ancestor => settles_of_parent hn fun parent hi => ?_⟩
        obtain ⟨set, hset, rfl⟩ := hstep.1.parent (inherit_of_inherits hn hm hi)
        exact hdone.settles (List.Subset.trans (List.subset_append_left ..) hperm.subset) hset
      | ok set => exact h.resolve hw hset.1 hset.2
    | none =>
      dsimp only
      by_cases hl : queue.stalled.length < rest.length
      · rw [if_neg (by simp; omega)]
        exact h.putBack hw hstep hl
      · rw [if_pos (by simp; omega)]
        exact fun hn => ⟨hn, h.circular hw hstep (Nat.le_of_not_lt hl)⟩

/-- As long as one waits there is a step left: not all of them went back. -/
theorem Sound.stepsLeft_pos (h : Sound catalog declarations queue) (hw : queue.waiting ≠ []) :
    0 < queue.stepsLeft := by
  obtain ⟨declaration, rest, hw⟩ := List.exists_cons_of_ne_nil hw
  obtain ⟨fresh, back, rfl, hstalled, -⟩ := h.split hw
  rw [stepsLeft, hw, hstalled, List.length_cons, maxSteps_succ, List.length_append, List.length_map]
  omega

/-- With as many steps as are left a queue is emptied, or what is wrong is said. -/
theorem Sound.outcome (steps : Nat) (h : Sound catalog declarations queue) (hs : queue.stepsLeft ≤ steps) :
    match queue.run catalog (declarations.map (·.name)) steps with
    | .ok last => Sound catalog declarations last ∧ last.waiting = []
    | .error fault => (declarations.map (·.name)).Nodup → fault.Warranted catalog declarations := by
  induction steps generalizing queue with
  | zero =>
    refine ⟨h, ?_⟩
    by_contra hw
    exact absurd (h.stepsLeft_pos hw) (by omega)
  | succ steps ih =>
    rw [Queue.run]
    by_cases hw : queue.waiting = []
    · rw [if_pos (by simp [hw])]
      exact ⟨h, hw⟩
    · rw [if_neg (by simp [hw])]
      have hstep := h.step hw
      dsimp only [bind, Except.bind]
      generalize queue.step catalog (declarations.map (·.name)) = next at hstep ⊢
      cases next with
      | error => exact hstep
      | ok next => exact ih hstep.1 (by omega)

/-- With as many steps as are left a queue is emptied, unless something is wrong. -/
theorem Sound.run (steps : Nat) (h : Sound catalog declarations queue) (hs : queue.stepsLeft ≤ steps) :
    match queue.run catalog (declarations.map (·.name)) steps with
    | .ok last => Sound catalog declarations last ∧ last.waiting = []
    | .error _ => ¬ Resolvable catalog declarations := by
  have houtcome := h.outcome steps hs
  generalize queue.run catalog (declarations.map (·.name)) steps = result at houtcome ⊢
  cases result with
  | ok last => exact houtcome
  | error fault => exact fun hr => (houtcome hr.distinct).not_resolvable hr

end Queue

/-! ### What resolved sets are -/

namespace Resolves
variable {done : List SetDeclaration} {sets : List PluginSet}

/-- The set of a declaration was derived from the sets before it. -/
theorem split (h : Resolves catalog done sets) {before after : List PluginSet} {set : PluginSet}
    (hs : sets = before ++ set :: after) :
    ∃ declaration ∈ done, Derived catalog before declaration set ∧ set.default = declaration.default := by
  induction h generalizing after with
  | nil => simp at hs
  | @snoc done sets declaration last _ hd hdefault ih =>
    rcases List.eq_nil_or_concat after with rfl | ⟨after, last', rfl⟩
    · obtain ⟨rfl, hl⟩ := List.append_inj' hs rfl
      obtain rfl := List.singleton_inj.mp hl
      exact ⟨declaration, List.mem_append_right _ (List.mem_singleton_self _), hd, hdefault⟩
    · rw [List.concat_eq_append, ← List.cons_append, ← List.append_assoc] at hs
      obtain ⟨hs, -⟩ := List.append_inj' hs rfl
      obtain ⟨declaration, hm, hderived⟩ := ih hs
      exact ⟨declaration, List.mem_append_left _ hm, hderived⟩

/-- What a resolved declaration inherits from was resolved before it. -/
theorem parent (h : Resolves catalog done sets) {declaration : SetDeclaration} (hm : declaration ∈ done)
    {parent : String} (hi : declaration.inherit = some parent) :
    ∃ before after, done.map (·.name) = before ++ declaration.name :: after ∧ parent ∈ before := by
  induction h with
  | nil => cases hm
  | @snoc done sets last set hr hd _ ih =>
    rcases List.mem_append.mp hm with hm | hm
    · obtain ⟨before, after, hn, hp⟩ := ih hm
      exact ⟨before, after ++ [last.name], by simp [hn], hp⟩
    · obtain rfl := List.mem_singleton.mp hm
      refine ⟨done.map (·.name), [], by simp, ?_⟩
      obtain ⟨inherited, hin, -⟩ := hd.plugins
      obtain ⟨set, hset, rfl⟩ := hin.parent hi
      rw [← hr.names]
      exact List.mem_map_of_mem hset

theorem known (h : Resolves catalog done sets) {declaration : SetDeclaration} (hm : declaration ∈ done) :
    ∀ plugin ∈ declaration.plugins, plugin ∈ catalog.names := by
  induction h with
  | nil => cases hm
  | snoc _ hd _ ih =>
    rcases List.mem_append.mp hm with hm | hm
    · exact ih hm
    · exact List.mem_singleton.mp hm ▸ hd.known

theorem defaults (h : Resolves catalog done sets) :
    (sets.filter (·.default)).map (·.name) = (done.filter (·.default)).map (·.name) := by
  induction h with
  | nil => rfl
  | @snoc done sets declaration set _ hd hdefault ih =>
    rw [List.filter_append, List.filter_append, List.map_append, List.map_append, ih, List.filter_singleton,
      List.filter_singleton, hdefault]
    cases declaration.default
    · rfl
    · exact congrArg _ (congrArg (fun name => [name]) hd.name)

/-- What inherits from another, directly or not, was resolved after it. -/
theorem idxOf_lt (h : Resolves catalog done sets) (hn : (done.map (·.name)).Nodup) {child ancestor : String}
    (hc : Relation.TransGen (Inherits done) child ancestor) :
    (done.map (·.name)).idxOf ancestor < (done.map (·.name)).idxOf child := by
  have hone {child parent : String} (hi : Inherits done child parent) :
      (done.map (·.name)).idxOf parent < (done.map (·.name)).idxOf child := by
    obtain ⟨declaration, hm, rfl, hi⟩ := hi
    obtain ⟨before, after, hnames, hp⟩ := h.parent hm hi
    have hb : declaration.name ∉ before := by
      rw [hnames] at hn
      exact fun hb => List.disjoint_of_nodup_append hn hb (List.mem_cons_self ..)
    rw [hnames, List.idxOf_append_of_mem hp, List.idxOf_append_of_notMem hb]
    exact Nat.lt_of_lt_of_le (List.idxOf_lt_length_of_mem hp) (Nat.le_add_right ..)
  induction hc with
  | single hi => exact hone hi
  | tail _ hi ih => exact Nat.lt_trans (hone hi) ih

/-- The order in which declarations are given does not matter to what inherits from what. -/
theorem transGen_of_perm (hperm : done.Perm declarations) {child ancestor : String}
    (hc : Relation.TransGen (Inherits declarations) child ancestor) :
    Relation.TransGen (Inherits done) child ancestor := by
  have hle : Inherits declarations ≤ Inherits done := fun _ _ ⟨declaration, hm, hi⟩ =>
    ⟨declaration, hperm.symm.subset hm, hi⟩
  exact Relation.TransGen.mono hle child ancestor hc

/-- Nothing but several default sets can be wrong with declarations that were all resolved. -/
theorem orderly (h : Resolves catalog done sets) (hperm : done.Perm declarations)
    (hn : (declarations.map (·.name)).Nodup) : Orderly catalog declarations where
  distinct := hn
  declared declaration hm parent hi := by
    obtain ⟨before, after, hnames, hp⟩ := h.parent (hperm.symm.subset hm) hi
    exact (hperm.map _).subset (hnames ▸ List.mem_append_left _ hp)
  acyclic name hc :=
    Nat.lt_irrefl _ (h.idxOf_lt ((hperm.map _).nodup_iff.mpr hn) (transGen_of_perm hperm hc))
  known declaration hm := h.known (hperm.symm.subset hm)

theorem resolvable (h : Resolves catalog done sets) (hperm : done.Perm declarations)
    (hn : (declarations.map (·.name)).Nodup) (hdefault : (sets.filter (·.default)).length ≤ 1) :
    Resolvable catalog declarations := by
  have hlength := congrArg List.length h.defaults
  rw [List.length_map, List.length_map, (hperm.filter _).length_eq] at hlength
  exact (h.orderly hperm hn).resolvable (hlength ▸ hdefault)

end Resolves

/-! ### The default set -/

/-- Sets, and the same sets with a default one among them. -/
inductive Chosen : List PluginSet → List PluginSet → Prop
  | none : Chosen [] []
  | declared {sets : List PluginSet} {set : PluginSet} : sets.filter (·.default) = [set] → Chosen sets sets
  | first {first : PluginSet} {rest : List PluginSet} : (first :: rest).filter (·.default) = [] →
    Chosen (first :: rest) ({ first with default := true } :: rest)

theorem chooseDefault_spec (sets : List PluginSet) :
    match chooseDefault sets with
    | .ok chosen => Chosen sets chosen ∧ (sets.filter (·.default)).length ≤ 1
    | .error _ => ¬ (sets.filter (·.default)).length ≤ 1 := by
  rcases hf : sets.filter (·.default) with _ | ⟨one, _ | ⟨two, more⟩⟩ <;>
    simp only [chooseDefault, hf, List.map_cons, List.map_nil]
  · cases sets with
    | nil => exact ⟨.none, Nat.zero_le _⟩
    | cons first rest => exact ⟨.first hf, Nat.zero_le _⟩
  · exact ⟨.declared hf, Nat.le_refl _⟩
  · simp

theorem Inherited.mark {first : PluginSet} {rest : List PluginSet} {declaration : SetDeclaration}
    {names : List String} (h : Inherited (first :: rest) declaration names) (mark : Bool) :
    Inherited ({ first with default := mark } :: rest) declaration names := by
  cases h with
  | root hi => exact .root hi
  | child hm hi =>
    rcases List.mem_cons.mp hm with rfl | hm
    · exact @Inherited.child _ _ ⟨_, mark, _⟩ (List.mem_cons_self ..) hi
    · exact .child (List.mem_cons_of_mem _ hm) hi

namespace Chosen
variable {sets chosen : List PluginSet}

theorem names (h : Chosen sets chosen) : chosen.map (·.name) = sets.map (·.name) := by
  cases h <;> rfl

/-- To choose a default set changes no names and no plugins. -/
theorem split (h : Chosen sets chosen) {before after : List PluginSet} {set : PluginSet}
    (hs : chosen = before ++ set :: after) :
    ∃ before' set' after', sets = before' ++ set' :: after' ∧ ∀ declaration,
      Derived catalog before' declaration set' → Derived catalog before declaration set := by
  cases h with
  | none => simp at hs
  | declared => exact ⟨before, set, after, hs, fun _ h => h⟩
  | @first first rest =>
    cases before with
    | nil =>
      obtain ⟨rfl, rfl⟩ := List.cons.inj hs
      exact ⟨[], first, rest, rfl, fun _ h => ⟨h.name, h.plugins, h.known⟩⟩
    | cons head before =>
      obtain ⟨rfl, rfl⟩ := List.cons.inj hs
      refine ⟨first :: before, set, after, rfl, fun _ h => ⟨h.name, ?_, h.known⟩⟩
      obtain ⟨inherited, hi, hp⟩ := h.plugins
      exact ⟨inherited, hi.mark true, hp⟩

end Chosen

/-! ### All declarations -/

/-- What is true of the sets of declarations. -/
structure Resolution (catalog : Catalog) (declarations : List SetDeclaration)
    (sets : List PluginSet) : Prop where
  /-- Every declaration has one set. -/
  names : (sets.map (·.name)).Perm (declarations.map (·.name))
  /-- Every set comes after its parent, whose plugins it has before its own. -/
  derived : ∀ before set after, sets = before ++ set :: after →
    ∃ declaration ∈ declarations, Derived catalog before declaration set
  /-- One set is the default one: that which was declared so, or the first one. -/
  default : ∀ first rest, sets = first :: rest → ∃ set, sets.filter (·.default) = [set] ∧
    ((∃ declaration ∈ declarations, declaration.default = true ∧ declaration.name = set.name) ∨
      (∀ declaration ∈ declarations, declaration.default = false) ∧ set = first)

theorem Resolves.resolution {done : List SetDeclaration} {sets chosen : List PluginSet}
    (h : Resolves catalog done sets) (hperm : done.Perm declarations) (hc : Chosen sets chosen) :
    Resolution catalog declarations chosen where
  names := by
    rw [hc.names, h.names]
    exact hperm.map _
  derived before set after hs := by
    obtain ⟨before', set', after', hs', hd⟩ := hc.split hs
    obtain ⟨declaration, hm, hderived, -⟩ := h.split hs'
    exact ⟨declaration, hperm.subset hm, hd _ hderived⟩
  default first rest hs := by
    have hnames := h.defaults
    cases hc with
    | none => cases hs
    | @declared _ set hf =>
      refine ⟨set, hf, .inl ?_⟩
      rw [hf] at hnames
      have hm : set.name ∈ (done.filter (·.default)).map (·.name) := hnames ▸ List.mem_singleton_self _
      obtain ⟨declaration, hd, hn⟩ := List.mem_map.mp hm
      obtain ⟨hd, hdefault⟩ := List.mem_filter.mp hd
      exact ⟨declaration, hperm.subset hd, hdefault, hn⟩
    | @first head tail hf =>
      obtain ⟨rfl, rfl⟩ := List.cons.inj hs
      refine ⟨_, ?_, .inr ⟨fun declaration hd => ?_, rfl⟩⟩
      · have htail : tail.filter (·.default) = [] := by
          rw [List.filter_eq_nil_iff] at hf ⊢
          exact fun set hset => hf set (List.mem_cons_of_mem _ hset)
        rw [List.filter_cons_of_pos rfl, htail]
      · rw [hf, List.map_nil, eq_comm, List.map_eq_nil_iff, List.filter_eq_nil_iff] at hnames
        simpa using hnames declaration (hperm.symm.subset hd)

/-- **Declarations make sets exactly if nothing is wrong with them**, and then one set each, behind the
parent whose plugins it has before its own. -/
theorem resolveSets_ok_iff (catalog : Catalog) (declarations : List SetDeclaration) :
    ((∃ sets, resolveSets catalog declarations = .ok sets) ↔ Resolvable catalog declarations) ∧
      ∀ sets, resolveSets catalog declarations = .ok sets → Resolution catalog declarations sets := by
  have hspec : match resolveSets catalog declarations with
      | .ok sets => Resolvable catalog declarations ∧ Resolution catalog declarations sets
      | .error _ => ¬ Resolvable catalog declarations := by
    rw [resolveSets]
    cases hrepeated : repeated? [] (declarations.map (·.name)) with
    | some name =>
      intro hr
      rw [repeated?_eq_none.mpr ⟨hr.distinct, by simp⟩] at hrepeated
      cases hrepeated
    | none =>
      have hdistinct := (repeated?_eq_none.mp hrepeated).1
      have hrun := (Queue.start_sound catalog declarations).run (maxSteps declarations.length)
        (Nat.sub_le ..)
      dsimp only [bind, Except.bind]
      generalize Queue.run catalog _ _ _ = last at hrun ⊢
      cases last with
      | error => exact hrun
      | ok last =>
        obtain ⟨⟨⟨done, hdone, hperm⟩, -⟩, hw⟩ := hrun
        rw [hw, List.append_nil] at hperm
        have hchosen := chooseDefault_spec last.resolved
        dsimp only
        generalize chooseDefault last.resolved = chosen at hchosen ⊢
        cases chosen with
        | ok chosen => exact ⟨hdone.resolvable hperm hdistinct hchosen.2, hdone.resolution hperm hchosen.1⟩
        | error =>
          intro hr
          have hlength := congrArg List.length hdone.defaults
          rw [List.length_map, List.length_map, (hperm.filter _).length_eq] at hlength
          exact hchosen (hlength ▸ hr.oneDefault)
  generalize resolveSets catalog declarations = result at hspec ⊢
  cases result with
  | ok sets => exact ⟨⟨fun _ => hspec.1, fun _ => ⟨sets, rfl⟩⟩, fun _ h => Except.ok.inj h ▸ hspec.2⟩
  | error => exact ⟨⟨fun ⟨_, h⟩ => (nomatch h), fun hr => (hspec hr).elim⟩, fun _ h => by cases h⟩

/-- A chain of sets that is declared from its end makes sets, and that at its end has the plugins of all. -/
theorem chain_from_end_resolves :
    let declarations : List SetDeclaration :=
      [{ name := "leaf", inherit := some "middle", plugins := ["status", "base"] },
        { name := "middle", inherit := some "root", plugins := ["entry"] },
        { name := "root", plugins := ["base"] }]
    let sets : List PluginSet :=
      [⟨"root", true, [.base]⟩, ⟨"middle", false, [.base, .mapping .entry]⟩,
        ⟨"leaf", false, [.base, .mapping .entry, .mapping .status]⟩]
    resolveSets Plugin.all declarations = .ok sets ∧ Resolution Plugin.all declarations sets :=
  ⟨by rfl, (resolveSets_ok_iff _ _).2 _ (by rfl)⟩

end Pipeline

end CrdForge
