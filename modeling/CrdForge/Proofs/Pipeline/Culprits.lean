import CrdForge.Proofs.Pipeline.Resolution

/-! What is said to be wrong with declarations that make no sets.

Checks are made when a set is taken off the queue, so of several things that are wrong the order of the
declarations decides which one is said. Whichever it is, the declarations have it, and what was looked at
before has nothing wrong (`resolveSets_error`). -/
namespace CrdForge.Pipeline

open Config (SetDeclaration)

variable {catalog : Catalog} {declarations : List SetDeclaration}

/-- A name is repeated if it is among the names before or comes again. -/
theorem two_le_count_of_repeated? {before names : List String} {name : String}
    (h : repeated? before names = some name) :
    2 ≤ before.count name + names.count name := by
  induction names generalizing before with
  | nil => cases h
  | cons first rest ih =>
    rw [repeated?] at h
    split at h
    · next hb =>
      obtain rfl := Option.some.inj h
      have hbefore : 0 < before.count first := List.count_pos_iff.mpr (by simpa using hb)
      have hfirst : 0 < (first :: rest).count first := List.count_pos_iff.mpr (List.mem_cons_self ..)
      omega
    · have hcount := ih h
      rw [List.count_cons] at hcount ⊢
      omega

/-! ### Default sets -/

namespace Resolves
variable {done : List SetDeclaration} {sets : List PluginSet}

/-- No set comes before one that it inherits from. -/
theorem ordered (h : Resolves catalog done sets) (hperm : done.Perm declarations)
    (hn : (declarations.map (·.name)).Nodup) :
    (sets.map (·.name)).Pairwise fun earlier later =>
      ¬ Relation.TransGen (Inherits declarations) earlier later := by
  have hdone : (done.map (·.name)).Nodup := (hperm.map _).nodup_iff.mpr hn
  rw [h.names, List.pairwise_iff_getElem]
  intro i j hi hj hij hc
  have hlt := h.idxOf_lt hdone (transGen_of_perm hperm hc)
  rw [hdone.idxOf_getElem, hdone.idxOf_getElem] at hlt
  omega

theorem rivals (h : Resolves catalog done sets) (hperm : done.Perm declarations)
    (hn : (declarations.map (·.name)).Nodup) (hs : 2 ≤ (sets.filter (·.default)).length) :
    Rivals catalog declarations ((sets.filter (·.default)).map (·.name)) where
  defaults := by
    rw [h.defaults]
    exact (hperm.filter _).map _
  several := by
    rw [List.length_map]
    exact hs
  ordered := (h.ordered hperm hn).sublist (List.filter_sublist.map _)
  orderly := h.orderly hperm hn

end Resolves

theorem chooseDefault_error {sets : List PluginSet} {fault : Unresolved}
    (h : chooseDefault sets = .error fault) :
    fault = .multipleDefaults ((sets.filter (·.default)).map (·.name)) ∧
      2 ≤ (sets.filter (·.default)).length := by
  rcases hf : sets.filter (·.default) with _ | ⟨one, _ | ⟨two, more⟩⟩ <;>
    simp only [chooseDefault, hf, List.map_cons, List.map_nil] at h
  · cases sets <;> cases h
  · cases h
  · obtain rfl := Except.error.inj h
    rw [hf]
    exact ⟨rfl, by simp⟩

/-! ### All declarations -/

/-- **What is said to be wrong is wrong**, for every order of the
declarations and whatever else is wrong with them. -/
theorem resolveSets_error {fault : Unresolved} (h : resolveSets catalog declarations = .error fault) :
    fault.Warranted catalog declarations := by
  unfold resolveSets at h
  dsimp only at h
  cases hrepeated : repeated? [] (declarations.map (·.name)) with
  | some name =>
    rw [hrepeated] at h
    obtain rfl := Except.error.inj h
    have hcount := two_le_count_of_repeated? hrepeated
    rw [List.count_nil, Nat.zero_add] at hcount
    exact hcount
  | none =>
    rw [hrepeated] at h
    have hn := (repeated?_eq_none.mp hrepeated).1
    have hrun := (Queue.start_sound catalog declarations).outcome
      (maxSteps declarations.length) (Nat.sub_le ..)
    dsimp only [bind, Except.bind] at h
    generalize Queue.run catalog _ _ _ = last at hrun h
    cases last with
    | error => exact Except.error.inj h ▸ hrun hn
    | ok last =>
      obtain ⟨⟨⟨done, hdone, hperm⟩, -⟩, hw⟩ := hrun
      rw [hw, List.append_nil] at hperm
      obtain ⟨rfl, hseveral⟩ := chooseDefault_error h
      exact hdone.rivals hperm hn hseveral

/-- A set that leads into a circle is named, though it is not part of it and
has a plugin that is not known. -/
theorem leaf_leads_into_circle :
    let declarations : List SetDeclaration :=
      [{ name := "root", plugins := ["base"] },
        { name := "leaf", inherit := some "left", plugins := ["none"] },
        { name := "left", inherit := some "right" }, { name := "right", inherit := some "left" }]
    resolveSets Plugin.all declarations = .error (.circularDependency "leaf") ∧
      (Unresolved.circularDependency "leaf").Warranted Plugin.all declarations :=
  ⟨by rfl, resolveSets_error (by rfl)⟩

end CrdForge.Pipeline
