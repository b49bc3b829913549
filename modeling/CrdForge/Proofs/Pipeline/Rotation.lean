import CrdForge.Proofs.Pipeline.Resolution
import Mathlib.Data.List.DropRight

/-! How often declarations are taken off the queue.

The queue is emptied by a loop that takes declarations off it for as long as one waits. `Queue.Loop` is
this loop with no bound, together with what it took off. Every state has fewer steps left than the one
before (`Queue.Sound.step`), so the loop ends (`Queue.Sound.loop`) and takes no more off than there were
steps left (`Queue.Sound.pops_le`). What was put back since a set was resolved last stands at the end of
the queue (`Queue.Turned`), so when the loop gives up because of a circle, all that are not resolved were
taken off since (`queue_turns`). -/
namespace CrdForge

open Config (SetDeclaration)

namespace Pipeline

/-- A declaration that was taken off a queue, and whether its set was resolved then. -/
structure Pop where
  declaration : SetDeclaration
  resolved : Bool

/-- What was taken off since a set was resolved last. -/
def sinceResolved (pops : List Pop) : List Pop := pops.rtakeWhile fun pop => !pop.resolved

/-- The declarations whose sets were resolved. -/
def resolvedOf (pops : List Pop) : List SetDeclaration := (pops.filter (·.resolved)).map (·.declaration)

theorem sinceResolved_snoc (pops : List Pop) (pop : Pop) :
    sinceResolved (pops ++ [pop]) = if pop.resolved then [] else sinceResolved pops ++ [pop] := by
  rw [sinceResolved, List.rtakeWhile_concat, sinceResolved]
  cases pop.resolved <;> rfl

theorem resolvedOf_snoc (pops : List Pop) (pop : Pop) :
    resolvedOf (pops ++ [pop]) = if pop.resolved then resolvedOf pops ++ [pop.declaration]
      else resolvedOf pops := by
  rw [resolvedOf, List.filter_append, List.map_append, List.filter_singleton]
  cases pop.resolved
  · exact List.append_nil _
  · rfl

namespace Queue

variable {catalog : Catalog} {declared : List String} {declarations rest : List SetDeclaration}
  {declaration : SetDeclaration} {queue next : Queue} {pops past : List Pop}
    {result : Except Unresolved Queue}

/-- What the loop takes off a queue until none waits or something is wrong, and what it ends with. -/
inductive Loop (catalog : Catalog) (declared : List String) :
    Queue → List Pop → Except Unresolved Queue → Prop
  | done {queue : Queue} : queue.waiting = [] → Loop catalog declared queue [] (.ok queue)
  | fails {queue : Queue} {declaration : SetDeclaration} {rest : List SetDeclaration} {fault : Unresolved} :
    queue.waiting = declaration :: rest → queue.step catalog declared = .error fault →
    Loop catalog declared queue [⟨declaration, false⟩] (.error fault)
  | pops {queue next : Queue} {declaration : SetDeclaration} {rest : List SetDeclaration} {pops : List Pop}
    {result : Except Unresolved Queue} :
    queue.waiting = declaration :: rest → queue.step catalog declared = .ok next →
    Loop catalog declared next pops result →
    Loop catalog declared queue (⟨declaration, queue.resolved.length < next.resolved.length⟩ :: pops) result

/-- A loop takes its one way. -/
theorem Loop.unique (h : Loop catalog declared queue pops result) {pops' : List Pop}
    {result' : Except Unresolved Queue} (h' : Loop catalog declared queue pops' result') :
    pops = pops' ∧ result = result' := by
  induction h generalizing pops' result' with
  | done hw =>
    cases h' with
    | done => exact ⟨rfl, rfl⟩
    | fails hw' | pops hw' =>
      rw [hw] at hw'
      cases hw'
  | fails hw hs =>
    cases h' with
    | done hw' =>
      rw [hw] at hw'
      cases hw'
    | fails hw' hs' =>
      obtain ⟨rfl, -⟩ := List.cons.inj (hw.symm.trans hw')
      rw [Except.error.inj (hs.symm.trans hs')]
      exact ⟨rfl, rfl⟩
    | pops _ hs' =>
      rw [hs] at hs'
      cases hs'
  | pops hw hs _ ih =>
    cases h' with
    | done hw' =>
      rw [hw] at hw'
      cases hw'
    | fails _ hs' =>
      rw [hs] at hs'
      cases hs'
    | pops hw' hs' hl =>
      obtain ⟨rfl, -⟩ := List.cons.inj (hw.symm.trans hw')
      obtain rfl := Except.ok.inj (hs.symm.trans hs')
      obtain ⟨rfl, rfl⟩ := ih hl
      exact ⟨rfl, rfl⟩

/-! ### The end of the loop -/

/-- **A sound queue is looped over to an end**, which is what as many steps as are left come to. -/
theorem Sound.loop (steps : Nat) (h : Sound catalog declarations queue) (hs : queue.stepsLeft ≤ steps) :
    ∃ pops, Loop catalog (declarations.map (·.name)) queue pops
      (queue.run catalog (declarations.map (·.name)) steps) := by
  induction steps generalizing queue with
  | zero =>
    refine ⟨[], .done ?_⟩
    by_contra hw
    exact absurd (h.stepsLeft_pos hw) (Nat.not_lt.mpr hs)
  | succ steps ih =>
    rw [Queue.run]
    cases hw : queue.waiting with
    | nil => exact ⟨[], .done hw⟩
    | cons declaration rest =>
      have hstep := h.step (hw ▸ List.cons_ne_nil _ _)
      cases hn : queue.step catalog (declarations.map (·.name)) with
      | error fault => exact ⟨_, .fails hw hn⟩
      | ok next =>
        rw [hn] at hstep
        obtain ⟨pops, hl⟩ := ih hstep.1 (Nat.le_of_lt_succ (Nat.lt_of_lt_of_le hstep.2 hs))
        exact ⟨_, .pops hw hn hl⟩

/-- A loop over a sound queue takes no more off than there are steps left. -/
theorem Sound.pops_le (h : Sound catalog declarations queue)
    (hl : Loop catalog (declarations.map (·.name)) queue pops result) : pops.length ≤ queue.stepsLeft := by
  generalize hd : declarations.map (·.name) = declared at hl
  induction hl with
  | done => exact Nat.zero_le _
  | fails hw => exact h.stepsLeft_pos (hw ▸ List.cons_ne_nil _ _)
  | pops hw hn _ ih =>
    subst hd
    have hstep := h.step (hw ▸ List.cons_ne_nil _ _)
    rw [hn] at hstep
    exact Nat.lt_of_le_of_lt (ih hstep.1) hstep.2

/-! ### Circles -/

theorem addPlugins_fault {set : String} {plugins : List Plugin} {names : List String} {fault : Unresolved}
    (h : addPlugins catalog set plugins names = .error fault) :
    ∃ plugin, fault = .pluginNotFound set plugin := by
  induction names generalizing plugins with
  | nil => cases h
  | cons name rest ih =>
    rw [addPlugins] at h
    cases hp : catalog.plugin? name with
    | none =>
      rw [hp] at h
      exact ⟨name, (Except.error.inj h).symm⟩
    | some plugin =>
      rw [hp] at h
      exact ih h

/-- What a step makes of the first that waits: its set is resolved, or it goes back to the end, or all
that wait went back since a set was resolved last, or something else is wrong with it. -/
theorem step_cases (catalog : Catalog) (declared : List String) (hw : queue.waiting = declaration :: rest) :
    (∃ set, queue.step catalog declared = .ok ⟨rest, queue.resolved ++ [set], []⟩) ∨
    (queue.stalled.length < rest.length ∧ queue.step catalog declared =
      .ok ⟨rest ++ [declaration], queue.resolved, queue.stalled ++ [declaration.name]⟩) ∨
    (rest.length ≤ queue.stalled.length ∧ ∃ set,
      queue.step catalog declared = .error (.circularDependency set)) ∨
    ∃ fault, queue.step catalog declared = .error fault ∧ ∀ set, fault ≠ .circularDependency set := by
  rw [Queue.step, hw]
  dsimp only [bind, Except.bind]
  cases hi : inherited? declared queue.resolved declaration with
  | error fault =>
    refine .inr (.inr (.inr ⟨fault, rfl, ?_⟩))
    rintro set rfl
    rw [inherited?] at hi
    split at hi
    · cases hi
    · split at hi <;> cases hi
  | ok inherited =>
    cases inherited with
    | some inherited =>
      dsimp only
      cases hr : resolveOne catalog declaration inherited with
      | ok set => exact .inl ⟨set, rfl⟩
      | error fault =>
        refine .inr (.inr (.inr ⟨fault, rfl, ?_⟩))
        rintro set rfl
        rw [resolveOne] at hr
        cases ha : addPlugins catalog declaration.name inherited declaration.plugins with
        | ok plugins =>
          rw [ha] at hr
          cases hr
        | error fault =>
          rw [ha] at hr
          obtain rfl := Except.error.inj hr
          obtain ⟨plugin, hf⟩ := addPlugins_fault ha
          cases hf
    | none =>
      dsimp only
      by_cases hl : queue.stalled.length < rest.length
      · rw [if_neg (by simp; omega)]
        exact .inr (.inl ⟨hl, rfl⟩)
      · rw [if_pos (by simp; omega)]
        exact .inr (.inr (.inl ⟨Nat.le_of_not_lt hl, _, rfl⟩))

/-- What holds of a queue after what was taken off it: the rest waits, at the end what was put back since
a set was resolved last, and something before that. -/
structure Turned (declarations : List SetDeclaration) (past : List Pop) (queue : Queue) : Prop where
  perm : (resolvedOf past ++ queue.waiting).Perm declarations
  back : ∃ fresh, queue.waiting = fresh ++ (sinceResolved past).map (·.declaration) ∧
    (fresh = [] → queue.waiting = [])
  stalled : queue.stalled.length = (sinceResolved past).length

namespace Turned

theorem start (declarations : List SetDeclaration) : Turned declarations [] { waiting := declarations } :=
  ⟨.refl _, ⟨declarations, (List.append_nil _).symm, id⟩, rfl⟩

variable (h : Turned declarations past queue) (hw : queue.waiting = declaration :: rest)
include h hw

/-- The first that waits was not put back since. -/
theorem split : ∃ fresh, rest = fresh ++ (sinceResolved past).map (·.declaration) := by
  obtain ⟨fresh, hback, hfresh⟩ := h.back
  cases fresh with
  | nil =>
    rw [hfresh rfl] at hw
    cases hw
  | cons first fresh =>
    rw [hw, List.cons_append] at hback
    exact ⟨fresh, (List.cons.inj hback).2⟩

theorem resolve (set : PluginSet) :
    Turned declarations (past ++ [⟨declaration, true⟩]) ⟨rest, queue.resolved ++ [set], []⟩ where
  perm := by
    have hperm := h.perm
    rw [hw] at hperm
    rw [resolvedOf_snoc, if_pos rfl, List.append_assoc]
    exact hperm
  back := by
    rw [sinceResolved_snoc, if_pos rfl]
    exact ⟨rest, (List.append_nil _).symm, id⟩
  stalled := by
    rw [sinceResolved_snoc, if_pos rfl]
    rfl

theorem putBack (hl : queue.stalled.length < rest.length) :
    Turned declarations (past ++ [⟨declaration, false⟩])
      ⟨rest ++ [declaration], queue.resolved, queue.stalled ++ [declaration.name]⟩ where
  perm := by
    have hperm := h.perm
    rw [hw] at hperm
    rw [resolvedOf_snoc, if_neg Bool.false_ne_true]
    exact ((List.perm_append_singleton declaration rest).append_left _).trans hperm
  back := by
    obtain ⟨fresh, hrest⟩ := h.split hw
    rw [sinceResolved_snoc, if_neg Bool.false_ne_true]
    refine ⟨fresh, ?_, ?_⟩
    · rw [hrest, List.append_assoc, List.map_append]
      rfl
    · -- Then all of the rest went back, and so would all that wait.
      rintro rfl
      rw [h.stalled, hrest, List.nil_append, List.length_map] at hl
      exact absurd hl (Nat.lt_irrefl _)
  stalled := by
    rw [sinceResolved_snoc, if_neg Bool.false_ne_true, List.length_append, List.length_append, h.stalled]
    rfl

/-- Where all that wait went back, each was taken off once since a set was resolved last. -/
theorem circle (hl : rest.length ≤ queue.stalled.length) :
    (resolvedOf (past ++ [⟨declaration, false⟩]) ++
      (sinceResolved (past ++ [⟨declaration, false⟩])).map (·.declaration)).Perm declarations := by
  obtain ⟨fresh, hrest⟩ := h.split hw
  have hlength : fresh.length + (sinceResolved past).length ≤ (sinceResolved past).length := by
    rw [hrest, h.stalled, List.length_append, List.length_map] at hl
    exact hl
  obtain rfl : fresh = [] := List.eq_nil_of_length_eq_zero (by omega)
  have hperm := h.perm
  rw [hw, hrest, List.nil_append] at hperm
  rw [resolvedOf_snoc, sinceResolved_snoc, if_neg Bool.false_ne_true,
    if_neg Bool.false_ne_true, List.map_append]
  exact ((List.perm_append_singleton declaration _).append_left _).trans hperm

end Turned

/-- A loop that gives up because of a circle took off all that are not
resolved since a set was resolved last. -/
theorem Loop.turned (h : Loop catalog declared queue pops result)
    (ht : Turned declarations past queue) {set : String} (hr : result = .error (.circularDependency set)) :
    (resolvedOf (past ++ pops) ++ (sinceResolved (past ++ pops)).map (·.declaration)).Perm declarations := by
  induction h generalizing past with
  | done => cases hr
  | @fails queue declaration rest fault hw hs =>
    obtain rfl := Except.error.inj hr
    rcases step_cases catalog declared hw with ⟨_, hn⟩ | ⟨-, hn⟩ | ⟨hl, -⟩ | ⟨fault, hn, hf⟩
    · rw [hs] at hn
      cases hn
    · rw [hs] at hn
      cases hn
    · exact ht.circle hw hl
    · rw [hs] at hn
      exact absurd (Except.error.inj hn).symm (hf set)
  | @pops queue next declaration rest pops result hw hs _ ih =>
    rw [List.append_cons]
    rcases step_cases catalog declared hw with ⟨made, hn⟩ | ⟨hl, hn⟩ | ⟨-, _, hn⟩ | ⟨_, hn, -⟩
    · obtain rfl := Except.ok.inj (hs.symm.trans hn)
      have hmore : decide (queue.resolved.length < (queue.resolved ++ [made]).length) = true := by simp
      rw [hmore]
      exact ih (ht.resolve hw made) hr
    · obtain rfl := Except.ok.inj (hs.symm.trans hn)
      have hsame : decide (queue.resolved.length < queue.resolved.length) = false := by simp
      rw [hsame]
      exact ih (ht.putBack hw hl) hr
    · rw [hs] at hn
      cases hn
    · rw [hs] at hn
      cases hn

end Queue

/-! ### All declarations -/

/-- **The queue of declarations is looped over to one end**, with declarations
taken off it `n (n + 1) / 2` times at most, if there are `n`. If the loop gives up
because of a circle, then each declaration was either resolved or taken off once
since a set was resolved last. And this loop is the one that makes the sets. -/
theorem queue_turns (catalog : Catalog) (declarations : List SetDeclaration) :
    let declared := declarations.map (·.name)
    let start : Queue := { waiting := declarations }
    ∃ pops result, Queue.Loop catalog declared start pops result ∧
      (∀ others other, Queue.Loop catalog declared start others other → pops = others ∧ result = other) ∧
      pops.length ≤ declarations.length * (declarations.length + 1) / 2 ∧
      (∀ set, result = .error (.circularDependency set) →
        (resolvedOf pops ++ (sinceResolved pops).map (·.declaration)).Perm declarations) ∧
      resolveSets catalog declarations = match repeated? [] declared with
        | some name => .error (.duplicateSet name)
        | none => result >>= fun last => chooseDefault last.resolved := by
  intro declared start
  have hsound : Queue.Sound catalog declarations start := Queue.start_sound catalog declarations
  obtain ⟨pops, hl⟩ := hsound.loop (maxSteps declarations.length) (Nat.sub_le ..)
  refine ⟨pops, _, hl, fun _ _ => hl.unique, hsound.pops_le hl, ?_, ?_⟩
  · intro set hr
    have hturned := hl.turned (.start declarations) hr
    rwa [List.nil_append] at hturned
  · rw [resolveSets]
    cases repeated? [] (declarations.map (·.name)) <;> rfl

/-- Of two sets that inherit from each other and one between them, the one is resolved, and the others
are taken off once more before the loop gives up. -/
theorem circle_turns :
    let first : SetDeclaration := { name := "first", inherit := some "last" }
    let root : SetDeclaration := { name := "root" }
    let last : SetDeclaration := { name := "last", inherit := some "first" }
    let pops : List Pop := [⟨first, false⟩, ⟨root, true⟩, ⟨last, false⟩, ⟨first, false⟩]
    Queue.Loop Plugin.all ["first", "root", "last"] { waiting := [first, root, last] } pops
        (.error (.circularDependency "last")) ∧
      pops.length ≤ 6 ∧ (resolvedOf pops ++ (sinceResolved pops).map (·.declaration)).Perm
        [first, root, last] ∧
      resolveSets Plugin.all [first, root, last] = .error (.circularDependency "last") := by
  intro first root last pops
  have hloop : Queue.Loop Plugin.all ["first", "root", "last"] { waiting := [first, root, last] } pops
      (.error (.circularDependency "last")) := by
    let made : PluginSet := ⟨"root", false, []⟩
    apply @Queue.Loop.pops _ _ _ ⟨[root, last, first], [], ["first"]⟩ _ _ _ _ rfl rfl
    apply @Queue.Loop.pops _ _ _ ⟨[last, first], [made], []⟩ _ _ _ _ rfl rfl
    apply @Queue.Loop.pops _ _ _ ⟨[first, last], [made], ["last"]⟩ _ _ _ _ rfl rfl
    exact .fails rfl rfl
  obtain ⟨others, result, -, hunique, hlength, hcircle, hsets⟩ := queue_turns Plugin.all [first, root, last]
  obtain ⟨rfl, rfl⟩ := hunique _ _ hloop
  exact ⟨hloop, by simpa using hlength, hcircle _ rfl, hsets⟩

end Pipeline

end CrdForge
