import CrdForge.Path
import Mathlib.Data.List.Induction
import Mathlib.Data.Set.Function

/-! Paths and their texts.

The text of a path has no mark between a wildcard and what stands before it, and a name has no mark at
its end. Yet every segment after the first says by its first character where it starts, so the text of a
path of plain names tells its segments (`render_injOn`), and what is left of a text without the wildcards
at its end ends with the last name (`leaf_render`). -/
namespace CrdForge.Path

/-- Whether a name can be told apart from what follows it in the text of a path. -/
def IsName (name : String) : Prop := '.' ∉ name.toList ∧ '[' ∉ name.toList

instance (name : String) : Decidable (IsName name) := inferInstanceAs (Decidable (_ ∧ _))

/-- Whether what stands in a path after the root are such names and wildcards. -/
def AreSegments (rest : List String) : Prop := ∀ segment ∈ rest, segment = wildcard ∨ IsName segment

instance (rest : List String) : Decidable (AreSegments rest) :=
  inferInstanceAs (Decidable (∀ segment ∈ rest, segment = wildcard ∨ IsName segment))

/-- Whether a path leads from the root along such names and wildcards. -/
def Legible (path : List String) : Prop := ∃ rest, path = root :: rest ∧ AreSegments rest

/-- The last segment of a path that is not a wildcard. -/
def lastName? (path : List String) : Option String := (path.filter (· != wildcard)).getLast?

variable {name segment : String} {rest other path : List String}

theorem AreSegments.tail (h : AreSegments (segment :: rest)) : AreSegments rest :=
  fun later hl => h later (List.mem_cons_of_mem segment hl)

theorem not_isName_wildcard : ¬ IsName wildcard := by decide

theorem IsName.ne_wildcard (h : IsName name) : name ≠ wildcard := by
  intro he
  exact not_isName_wildcard (he ▸ h)

/-! ### Segments in a text -/

theorem renderRest_wildcard (rest : List String) :
    (renderRest (wildcard :: rest)).toList = '[' :: '*' :: ']' :: (renderRest rest).toList := by
  rw [renderRest, if_pos rfl]
  simp [wildcard]

theorem renderRest_name (h : IsName name) (rest : List String) :
    (renderRest (name :: rest)).toList = '.' :: (name.toList ++ (renderRest rest).toList) := by
  rw [renderRest, if_neg h.ne_wildcard]
  simp

theorem renderRest_append (rest other : List String) :
    renderRest (rest ++ other) = renderRest rest ++ renderRest other := by
  induction rest with
  | nil => simp [renderRest]
  | cons segment rest ih =>
    simp only [List.cons_append, renderRest, ih, String.append_assoc]

theorem render_append (hne : path ≠ []) (rest : List String) :
    render (path ++ rest) = render path ++ renderRest rest := by
  obtain ⟨first, before, rfl⟩ := List.exists_cons_of_ne_nil hne
  rw [List.cons_append, render, render, renderRest_append, String.append_assoc]

/-- Whether a text is at its end or at the start of a segment. -/
def AtSegment (chars : List Char) : Prop := ∀ c ∈ chars.head?, c = '.' ∨ c = '['

theorem renderRest_atSegment (h : AreSegments rest) : AtSegment (renderRest rest).toList := by
  intro c hc
  cases rest with
  | nil => simp [renderRest] at hc
  | cons segment rest =>
    rcases h segment (List.mem_cons_self ..) with rfl | hn
    · rw [renderRest_wildcard] at hc
      exact .inr (Option.some.inj hc).symm
    · rw [renderRest_name hn] at hc
      exact .inl (Option.some.inj hc).symm

/-- A name reaches up to where the next segment starts. -/
theorem name_of_text (h : IsName name) {after : List Char} (ha : AtSegment after) :
    (name.toList ++ after).takeWhile (fun c => c ≠ '.' ∧ c ≠ '[') = name.toList := by
  have hname : ∀ c ∈ name.toList, decide (c ≠ '.' ∧ c ≠ '[') = true := by
    intro c hc
    refine decide_eq_true ⟨?_, ?_⟩
    · rintro rfl
      exact h.1 hc
    · rintro rfl
      exact h.2 hc
  have hafter : after.takeWhile (fun c => c ≠ '.' ∧ c ≠ '[') = [] := by
    cases after with
    | nil => rfl
    | cons c after =>
      apply List.takeWhile_cons_of_neg
      rcases ha c rfl with rfl | rfl <;> decide
  rw [List.takeWhile_append_of_pos hname, hafter, List.append_nil]

theorem renderRest_ne_nil (h : AreSegments (segment :: rest)) :
    (renderRest (segment :: rest)).toList ≠ [] := by
  rcases h segment (List.mem_cons_self ..) with rfl | hn
  · rw [renderRest_wildcard]
    exact List.cons_ne_nil _ _
  · rw [renderRest_name hn]
    exact List.cons_ne_nil _ _

theorem renderRest_inj (h : AreSegments rest) (ho : AreSegments other)
    (he : (renderRest rest).toList = (renderRest other).toList) : rest = other := by
  induction rest generalizing other with
  | nil =>
    cases other with
    | nil => rfl
    | cons segment other => exact absurd he.symm (renderRest_ne_nil ho)
  | cons segment rest ih =>
    cases other with
    | nil => exact absurd he (renderRest_ne_nil h)
    | cons segment' other =>
      -- The first character tells a wildcard from a name, and a name ends where the next segment starts.
      rcases h segment (List.mem_cons_self ..) with rfl | hn <;>
        rcases ho segment' (List.mem_cons_self ..) with rfl | hn'
      · rw [renderRest_wildcard, renderRest_wildcard] at he
        injection he with _ he
        injection he with _ he
        injection he with _ he
        rw [ih h.tail ho.tail he]
      · rw [renderRest_wildcard, renderRest_name hn'] at he
        injection he with hc _
        exact absurd hc (by decide)
      · rw [renderRest_name hn, renderRest_wildcard] at he
        injection he with hc _
        exact absurd hc (by decide)
      · rw [renderRest_name hn, renderRest_name hn'] at he
        injection he with _ he
        have hname : segment.toList = segment'.toList :=
          calc segment.toList = _ := (name_of_text hn (renderRest_atSegment h.tail)).symm
            _ = _ := by rw [he]
            _ = segment'.toList := name_of_text hn' (renderRest_atSegment ho.tail)
        rw [hname] at he
        rw [String.toList_inj.mp hname, ih h.tail ho.tail (List.append_cancel_left he)]

/-- **A path of plain names is told by its text.** -/
theorem render_injOn : Set.InjOn render {path | Legible path} := by
  rintro _ ⟨rest, rfl, h⟩ _ ⟨other, rfl, ho⟩ he
  rw [render, render, String.append_right_inj] at he
  rw [renderRest_inj h ho (congrArg String.toList he)]

/-! ### The last name -/

/-- Wildcards are taken off only after the last name. -/
theorem dropWildcards_name {chars before : List Char} (h : '[' ∉ chars) :
    dropWildcards (chars ++ '.' :: before) = chars ++ '.' :: before := by
  unfold dropWildcards
  split
  · next rest he =>
    exfalso
    match chars with
    | [] => simp at he
    | [_] => simp at he
    | [_, _] => simp at he
    | _ :: _ :: c :: _ =>
      simp only [List.cons_append, List.cons.injEq] at he
      apply h
      rw [he.2.2.1]
      simp
  · rfl

theorem leaf_wildcard (hne : path ≠ []) : leaf (render (path ++ [wildcard])) = leaf (render path) := by
  have htext : (render (path ++ [wildcard])).toList.reverse =
      ']' :: '*' :: '[' :: (render path).toList.reverse := by
    rw [render_append hne, String.toList_append, renderRest_wildcard]
    simp [renderRest]
  rw [leaf, leaf, htext, dropWildcards]

theorem leaf_name (hne : path ≠ []) (hn : IsName name) : leaf (render (path ++ [name])) = name := by
  have htext :
      (render (path ++ [name])).toList.reverse =
        name.toList.reverse ++ '.' :: (render path).toList.reverse := by
    rw [render_append hne, String.toList_append, renderRest_name hn]
    simp [renderRest]
  have hbracket : '[' ∉ name.toList.reverse := fun hm => hn.2 (List.mem_reverse.mp hm)
  have hdot : ∀ c ∈ name.toList.reverse, (c != '.') = true := by
    intro c hc
    apply bne_iff_ne.mpr
    rintro rfl
    exact hn.1 (List.mem_reverse.mp hc)
  rw [leaf, htext, dropWildcards_name hbracket, Text.afterLast, String.toList_ofList, List.reverse_reverse,
    List.takeWhile_append_of_pos hdot]
  simp

/-- **The leaf of the text of a path is the last name of the path**, however many wildcards stand after it. -/
theorem leaf_render (h : Legible path) : lastName? path = some (leaf (render path)) := by
  obtain ⟨rest, rfl, h⟩ := h
  induction rest using List.reverseRecOn with
  | nil => decide
  | append_singleton rest segment ih =>
    have hrest := fun earlier he => h earlier (List.mem_append_left _ he)
    rw [← List.cons_append, lastName?, List.filter_append]
    rcases h segment (List.mem_append_right _ (List.mem_singleton_self _)) with rfl | hn
    · rw [leaf_wildcard (List.cons_ne_nil _ _), ← ih hrest]
      simp [lastName?]
    · rw [leaf_name (List.cons_ne_nil _ _) hn]
      simp [hn.ne_wildcard]

end CrdForge.Path
