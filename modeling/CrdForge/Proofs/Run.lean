/-! Steps that may fail, on a state that stays changed when they do.

A step that succeeded is opened from the outside: each of these theorems takes one layer off and leaves
what its parts did. `Each` is a run over a list, one step for each element. -/
namespace CrdForge.Run

variable {ε σ α β : Type}

/-! ### Single steps -/

theorem ok_ok {a b : α} {s s' : σ} (h : ((Except.ok a, s) : Except ε α × σ) = (.ok b, s')) : a = b ∧ s = s' :=
  ⟨Except.ok.inj (congrArg Prod.fst h), congrArg Prod.snd h⟩

theorem bind_ok {step : ExceptT ε (StateM σ) α} {next : α → ExceptT ε (StateM σ) β} {s s' : σ} {b : β}
    (h : (step >>= next) s = (.ok b, s')) :
    ∃ a middle, step s = (.ok a, middle) ∧ next a middle = (.ok b, s') := by
  have h : ExceptT.bindCont next (step s).1 (step s).2 = (.ok b, s') := h
  cases hs : (step s).1 with
  | ok a =>
    rw [hs] at h
    exact ⟨a, (step s).2, Prod.ext hs rfl, h⟩
  | error failure =>
    rw [hs] at h
    cases h

theorem pure_ok {a b : α} {s s' : σ} (h : (pure a : ExceptT ε (StateM σ) α) s = (.ok b, s')) :
    a = b ∧ s = s' :=
  ok_ok h

theorem throw_ok {failure : ε} {s s' : σ} {b : α} :
    (throw failure : ExceptT ε (StateM σ) α) s ≠ (.ok b, s') :=
  fun h => by cases h

theorem get_ok {s found s' : σ} (h : (get : ExceptT ε (StateM σ) σ) s = (.ok found, s')) :
    s = found ∧ s = s' := by
  cases h
  exact ⟨rfl, rfl⟩

theorem liftExcept_ok {result : Except ε α} {s s' : σ} {b : α}
    (h : (liftExcept result : ExceptT ε (StateM σ) α) s = (.ok b, s')) : result = .ok b ∧ s = s' := by
  cases result with
  | ok a =>
    cases h
    exact ⟨rfl, rfl⟩
  | error failure => cases h

theorem except_bind_ok {result : Except ε α} {next : α → Except ε β} {b : β} (h : (result >>= next) = .ok b) :
    ∃ a, result = .ok a ∧ next a = .ok b := by
  cases result with
  | ok a => exact ⟨a, rfl, h⟩
  | error failure => cases h

theorem mapError_ok {ε' : Type} {result : Except ε α} {f : ε → ε'} {a : α} (h : result.mapError f = .ok a) :
    result = .ok a := by
  cases result with
  | ok _ => exact congrArg _ (Except.ok.inj h)
  | error failure => cases h

theorem adapt_ok {ε' : Type} {step : ExceptT ε (StateM σ) α} {f : ε → ε'} {s s' : σ} {a : α}
    (h : ExceptT.adapt f step s = (.ok a, s')) : step s = (.ok a, s') := by
  have hfst : (step s).1.mapError f = .ok a := congrArg Prod.fst h
  have hsnd : (step s).2 = s' := congrArg Prod.snd h
  exact Prod.ext (mapError_ok hfst) hsnd

/-! ### What steps come to -/

theorem bind_eq (step : ExceptT ε (StateM σ) α) (next : α → ExceptT ε (StateM σ) β) (s : σ) :
    (step >>= next) s = match step s with
      | (.ok a, s) => next a s
      | (.error failure, s) => (.error failure, s) := by
  show ExceptT.bindCont next (step s).1 (step s).2 = _
  rcases step s with ⟨_ | _, _⟩ <;> rfl

theorem get_bind (next : σ → ExceptT ε (StateM σ) β) (s : σ) : (get >>= next) s = next s s := bind_eq ..

theorem liftExcept_eq (result : Except ε α) (s : σ) :
    (liftExcept result : ExceptT ε (StateM σ) α) s = (result, s) := by
  cases result <;> rfl

theorem map_eq (step : ExceptT ε (StateM σ) α) (f : α → β) (s : σ) :
    (f <$> step) s = match step s with
      | (.ok a, s) => (.ok (f a), s)
      | (.error failure, s) => (.error failure, s) := by
  show ExceptT.map f step s = _
  unfold ExceptT.map ExceptT.mk
  show StateT.bind (m := Id) step _ s = _
  unfold StateT.bind
  show (match step s with | (result, after) => _) = _
  rcases step s with ⟨_ | _, _⟩ <;> rfl

theorem discard_eq (step : ExceptT ε (StateM σ) α) (s : σ) :
    discard step s = match step s with
      | (.ok _, s) => (.ok ⟨⟩, s)
      | (.error failure, s) => (.error failure, s) := map_eq step (fun _ => PUnit.unit) s

theorem tryCatch_eq (step : ExceptT ε (StateM σ) α) (handler : ε → ExceptT ε (StateM σ) α) (s : σ) :
    tryCatch step handler s = match step s with
      | (.ok a, s) => (.ok a, s)
      | (.error failure, s) => handler failure s := by
  show ExceptT.tryCatch step handler s = _
  unfold ExceptT.tryCatch ExceptT.mk
  show StateT.bind (m := Id) step _ s = _
  unfold StateT.bind
  show (match step s with | (result, after) => _) = _
  rcases step s with ⟨_ | _, _⟩ <;> rfl

/-! ### Runs over a list -/

/-- One step for each element of a list, in order. -/
inductive Each (step : α → σ → σ → Prop) : List α → σ → σ → Prop
  | nil (s : σ) : Each step [] s s
  | cons {x : α} {rest : List α} {s middle s' : σ} :
    step x s middle → Each step rest middle s' → Each step (x :: rest) s s'

/-- What every step of a run preserves holds at its end. -/
theorem Each.preserves {step : α → σ → σ → Prop} {P : σ → Prop} {xs : List α} {s s' : σ}
    (h : Each step xs s s') (hstep : ∀ x ∈ xs, ∀ s s', P s → step x s s' → P s') (hs : P s) : P s' := by
  induction h with
  | nil => exact hs
  | cons hx _ ih =>
    exact ih (fun y hy => hstep y (List.mem_cons_of_mem _ hy)) (hstep _ (List.mem_cons_self ..) _ _ hs hx)

/-- What holds of nothing done at the start and is preserved with each
element done holds of the whole list. -/
theorem Each.invariant {step : α → σ → σ → Prop} (P : List α → σ → Prop) {xs before : List α} {s s' : σ}
    (h : Each step xs s s')
    (hstep : ∀ done x s s', (∃ rest, before ++ xs = done ++ x :: rest) → P done s → step x s s' →
      P (done ++ [x]) s')
    (hs : P before s) : P (before ++ xs) s' := by
  induction h generalizing before with
  | nil => simpa using hs
  | @cons x rest s middle s' hx _ ih =>
    have h : P ((before ++ [x]) ++ rest) s' := by
      refine ih (fun done y t t' hd => hstep done y t t' ?_) (hstep before x s middle ⟨rest, rfl⟩ hs hx)
      simpa using hd
    simpa using h

/-- What holds of nothing done and is preserved with each element done holds
of the whole list, from its start. -/
theorem Each.all {step : α → σ → σ → Prop} (P : List α → σ → Prop) {xs : List α} {s s' : σ}
    (h : Each step xs s s')
    (hstep : ∀ done x s s', (∃ rest, xs = done ++ x :: rest) → P done s → step x s s' →
      P (done ++ [x]) s') (hs : P [] s) : P xs s' :=
  show P ([] ++ xs) s' from h.invariant P hstep hs

theorem Each.append {step : α → σ → σ → Prop} {xs ys : List α} {s s' : σ} (h : Each step (xs ++ ys) s s') :
    ∃ middle, Each step xs s middle ∧ Each step ys middle s' := by
  induction xs generalizing s with
  | nil => exact ⟨s, .nil s, h⟩
  | cons x xs ih =>
    rcases h with _ | ⟨hx, hr⟩
    obtain ⟨middle, hm, hl⟩ := ih hr
    exact ⟨middle, .cons hx hm, hl⟩

theorem Each.concat {step : α → σ → σ → Prop} {xs ys : List α} {s middle s' : σ} (h : Each step xs s middle)
    (h' : Each step ys middle s') : Each step (xs ++ ys) s s' := by
  induction h with
  | nil => exact h'
  | cons hx _ ih => exact .cons hx (ih h')

theorem Each.mono {step step' : α → σ → σ → Prop} {xs : List α} {s s' : σ} (h : Each step xs s s')
    (hs : ∀ x s s', step x s s' → step' x s s') : Each step' xs s s' := by
  induction h with
  | nil => exact .nil _
  | cons hx _ ih => exact .cons (hs _ _ _ hx) ih

theorem forIn_ok {step : α → ExceptT ε (StateM σ) Unit} {xs : List α} {s s' : σ}
    (h : (forIn xs PUnit.unit fun x _ => do step x; return ForInStep.yield PUnit.unit :
      ExceptT ε (StateM σ) PUnit) s = (.ok ⟨⟩, s')) :
      Each (fun x s s' => step x s = (.ok (), s')) xs s s' := by
  induction xs generalizing s with
  | nil =>
    obtain ⟨_, rfl⟩ := pure_ok h
    exact .nil _
  | cons x rest ih =>
    rw [List.forIn_cons] at h
    obtain ⟨_, _, hx, h⟩ := bind_ok h
    obtain ⟨⟨⟩, _, hs, hy⟩ := bind_ok hx
    obtain ⟨rfl, rfl⟩ := pure_ok hy
    exact .cons hs (ih h)

theorem foldlM_ok {step : σ → α → Except ε σ} {xs : List α} {s s' : σ} (h : xs.foldlM step s = .ok s') :
    Each (fun x s s' => step s x = .ok s') xs s s' := by
  induction xs generalizing s with
  | nil =>
    cases h
    exact .nil _
  | cons x rest ih =>
    rw [List.foldlM_cons] at h
    obtain ⟨middle, hx, h⟩ := except_bind_ok h
    exact .cons hx (ih h)

/-- Steps that are one relation seen from a part of the state make a run that is one too. -/
theorem Each.onParts {τ : Type} (whole : τ → σ) {step : α → σ → σ → Prop} {R : α → τ → τ → Prop} {xs : List α}
    {t : τ} {s' : σ} (h : Each step xs (whole t) s')
    (hstep : ∀ x t s', step x (whole t) s' → ∃ t', s' = whole t' ∧ R x t t') :
    ∃ t', s' = whole t' ∧ Each R xs t t' := by
  generalize hs : whole t = s at h
  induction h generalizing t with
  | nil =>
    subst hs
    exact ⟨t, rfl, .nil t⟩
  | cons hx _ ih =>
    subst hs
    obtain ⟨middle, rfl, hm⟩ := hstep _ _ _ hx
    obtain ⟨t', ha, he⟩ := ih rfl
    exact ⟨t', ha, .cons hm he⟩

/-! ### Invariants -/

/-- Whether a step keeps what holds of the state, even if it fails, and has
an answer of a kind if it does not. -/
def Maintains (I : σ → Prop) (Q : α → Prop) (step : ExceptT ε (StateM σ) α) : Prop :=
  ∀ s, I s → I (step s).2 ∧ ∀ a, (step s).1 = .ok a → Q a

namespace Maintains
variable {I : σ → Prop} {Q Q' : α → Prop} {R : β → Prop} {step : ExceptT ε (StateM σ) α}

theorem mono (h : Maintains I Q step) (hq : ∀ a, Q a → Q' a) : Maintains I Q' step :=
  fun s hs => ⟨(h s hs).1, fun a ha => hq a ((h s hs).2 a ha)⟩

theorem pure {a : α} (h : Q a) : Maintains I Q (pure a : ExceptT ε (StateM σ) α) :=
  fun _ hs => ⟨hs, fun _ hb => Except.ok.inj hb ▸ h⟩

theorem throw (failure : ε) : Maintains I Q (throw failure : ExceptT ε (StateM σ) α) :=
  fun _ hs => ⟨hs, fun _ ha => nomatch ha⟩

theorem bind {next : α → ExceptT ε (StateM σ) β} (h : Maintains I Q step)
    (hn : ∀ a, Q a → Maintains I R (next a)) : Maintains I R (step >>= next) := by
  intro s hs
  obtain ⟨hstate, hanswer⟩ := h s hs
  rw [bind_eq]
  cases hstep : step s with
  | mk result middle =>
    rw [hstep] at hstate hanswer
    cases result with
    | ok a => exact hn a (hanswer a rfl) middle hstate
    | error failure => exact ⟨hstate, fun _ hb => nomatch hb⟩

theorem tryCatch {handler : ε → ExceptT ε (StateM σ) α} (h : Maintains I Q step)
    (hh : ∀ failure, Maintains I Q (handler failure)) : Maintains I Q (tryCatch step handler) := by
  intro s hs
  have hstep := h s hs
  rw [tryCatch_eq]
  rcases hr : step s with ⟨failure | a, s'⟩
  · rw [hr] at hstep
    exact hh failure s' hstep.1
  · rwa [hr] at hstep

theorem discard (h : Maintains I Q step) : Maintains I (fun _ => True) (Functor.discard step) := by
  intro s hs
  refine ⟨?_, fun _ _ => trivial⟩
  have hstate := (h s hs).1
  rw [discard_eq]
  rcases hstep : step s with ⟨_ | _, after⟩ <;> rwa [hstep] at hstate

theorem get : Maintains I I (get : ExceptT ε (StateM σ) σ) :=
  fun s hs => ⟨hs, fun a ha => (Except.ok.inj ha : s = a) ▸ hs⟩

theorem set {s : σ} (h : I s) : Maintains I (fun _ => True) (set s : ExceptT ε (StateM σ) PUnit) :=
  fun _ _ => ⟨h, fun _ _ => trivial⟩

theorem modify {change : σ → σ} (h : ∀ s, I s → I (change s)) :
    Maintains I (fun _ => True) (modify change : ExceptT ε (StateM σ) PUnit) :=
  fun s hs => ⟨h s hs, fun _ _ => trivial⟩

theorem liftExcept (result : Except ε α) :
    Maintains I (result = .ok ·) (liftExcept result : ExceptT ε (StateM σ) α) := by
  intro s hs
  rw [liftExcept_eq]
  exact ⟨hs, fun _ h => h⟩

theorem forIn {visit : α → ExceptT ε (StateM σ) Unit} {xs : List α}
    (h : ∀ x ∈ xs, Maintains I (fun _ => True) (visit x)) :
    Maintains I (fun _ => True)
      (forIn xs PUnit.unit fun x _ => do visit x; return ForInStep.yield PUnit.unit :
        ExceptT ε (StateM σ) PUnit) := by
  induction xs with
  | nil => exact pure trivial
  | cons x rest ih =>
    rw [List.forIn_cons]
    refine bind (Q := (· = ForInStep.yield PUnit.unit)) ?_ fun _ hy => ?_
    · exact bind (h x (List.mem_cons_self ..)) fun _ _ => pure rfl
    · subst hy
      exact ih fun y hy => h y (List.mem_cons_of_mem _ hy)

end Maintains

/-! ### Outcomes -/

/-- Whether a result is an answer of a kind, or a failure of a kind. -/
def Yields (Q : α → Prop) (F : ε → Prop) : Except ε α → Prop
  | .ok a => Q a
  | .error failure => F failure

namespace Yields
variable {Q Q' : α → Prop} {R : β → Prop} {F F' : ε → Prop} {result : Except ε α}

theorem mono (h : Yields Q F result) (hq : ∀ a, Q a → Q' a) (hf : ∀ failure, F failure → F' failure) :
    Yields Q' F' result := by
  cases result with
  | ok a => exact hq a h
  | error failure => exact hf failure h

theorem bind {next : α → Except ε β} (h : Yields Q F result) (hn : ∀ a, Q a → Yields R F (next a)) :
    Yields R F (result >>= next) := by
  cases result with
  | ok a => exact hn a h
  | error failure => exact h

theorem map {f : α → β} (h : Yields Q F result) (hf : ∀ a, Q a → R (f a)) : Yields R F (f <$> result) := by
  cases result with
  | ok a => exact hf a h
  | error failure => exact h

theorem mapError {ε' : Type} {F : ε' → Prop} {f : ε → ε'}
    (h : Yields Q (fun failure => F (f failure)) result) :
    Yields Q F (result.mapError f) := by
  cases result with
  | ok a => exact h
  | error failure => exact h

theorem foldlM {step : σ → α → Except ε σ} {I : σ → Prop} {xs : List α} {s : σ}
    (h : ∀ x s, I s → Yields I F (step s x)) (hs : I s) : Yields I F (xs.foldlM step s) := by
  induction xs generalizing s with
  | nil => exact hs
  | cons x rest ih =>
    rw [List.foldlM_cons]
    exact (h x s hs).bind fun s' hs' => ih hs'

end Yields

/-- Whether a step from a state of a kind has an answer and a state of a
kind, or fails in one of certain ways. -/
def Triple (P : σ → Prop) (step : ExceptT ε (StateM σ) α) (Q : α → σ → Prop) (F : ε → Prop) : Prop :=
  ∀ s, P s → match step s with
    | (.ok a, s') => Q a s'
    | (.error failure, _) => F failure

namespace Triple
variable {P P' I : σ → Prop} {Q Q' : α → σ → Prop} {R : β → σ → Prop} {F F' : ε → Prop}
  {step : ExceptT ε (StateM σ) α}

theorem error (h : Triple P step Q F) {s s' : σ} {failure : ε} (hs : P s)
    (hf : step s = (.error failure, s')) :
    F failure := by
  have hstep := h s hs
  rwa [hf] at hstep

/-- A step that cannot fail has an answer. -/
theorem succeeds (h : Triple P step Q fun _ => False) {s : σ} (hs : P s) :
    ∃ a s', step s = (.ok a, s') ∧ Q a s' := by
  have hstep := h s hs
  rcases hr : step s with ⟨failure | a, s'⟩
  · rw [hr] at hstep
    exact hstep.elim
  · rw [hr] at hstep
    exact ⟨a, s', rfl, hstep⟩

theorem mono (h : Triple P step Q F) (hp : ∀ s, P' s → P s) (hq : ∀ a s, Q a s → Q' a s)
    (hf : ∀ e, F e → F' e) :
    Triple P' step Q' F' := by
  intro s hs
  have hstep := h s (hp s hs)
  rcases hr : step s with ⟨failure | a, s'⟩
  · rw [hr] at hstep
    exact hf failure hstep
  · rw [hr] at hstep
    exact hq a s' hstep

theorem pure {a : α} (h : ∀ s, P s → Q a s) : Triple P (pure a : ExceptT ε (StateM σ) α) Q F :=
  fun s hs => h s hs

theorem throw {failure : ε} (h : F failure) :
    Triple P (throw failure : ExceptT ε (StateM σ) α) Q F := fun _ _ => h

theorem bind {next : α → ExceptT ε (StateM σ) β} (h : Triple P step Q F)
    (hn : ∀ a, Triple (Q a) (next a) R F) :
    Triple P (step >>= next) R F := by
  intro s hs
  have hstep := h s hs
  rw [bind_eq]
  rcases hr : step s with ⟨failure | a, s'⟩
  · rwa [hr] at hstep
  · rw [hr] at hstep
    exact hn a s' hstep

theorem discard (h : Triple P step (fun _ => I) F) : Triple P (Functor.discard step) (fun _ => I) F := by
  intro s hs
  have hstep := h s hs
  rw [discard_eq]
  rcases hr : step s with ⟨failure | a, s'⟩ <;> rwa [hr] at hstep

theorem liftExcept {Q : α → Prop} {result : Except ε α} (h : Yields Q F result) :
    Triple I (liftExcept result : ExceptT ε (StateM σ) α) (fun a s => Q a ∧ I s) F := by
  intro s hs
  rw [liftExcept_eq]
  cases result with
  | ok a => exact ⟨h, hs⟩
  | error failure => exact h

theorem forIn {visit : α → ExceptT ε (StateM σ) Unit} {xs : List α}
    (h : ∀ x ∈ xs, Triple I (visit x) (fun _ => I) F) :
    Triple I (forIn xs PUnit.unit fun x _ => do visit x; return ForInStep.yield PUnit.unit :
      ExceptT ε (StateM σ) PUnit) (fun _ => I) F := by
  induction xs with
  | nil => exact pure fun _ hs => hs
  | cons x rest ih =>
    rw [List.forIn_cons]
    refine bind (Q := fun again s => again = ForInStep.yield PUnit.unit ∧ I s) ?_ fun again => ?_
    · exact bind (h x (List.mem_cons_self ..)) fun _ => pure fun _ hs => ⟨rfl, hs⟩
    · rintro s ⟨rfl, hs⟩
      exact ih (fun y hy => h y (List.mem_cons_of_mem _ hy)) s hs

end Triple

end CrdForge.Run
