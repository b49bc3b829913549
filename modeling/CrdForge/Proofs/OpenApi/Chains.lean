import CrdForge.OpenApi.Document
import CrdForge.Proofs.Keyed
import Mathlib.Data.Fintype.Pigeonhole
import Mathlib.Data.Set.Finite.List

/-! Where references lead.

What is written in a document may be a reference to a component, which may be a reference again. Such a
`Chain` is followed hop by hop; it never forks, so that there is one way to each of its ends.

The chain of a schema ends at a schema that is none, or at a reference to nothing, or at one to something
that is no schema of the document, or it runs into a circle: there is no fifth way (`Document.ways`).
Resolution answers with the schema at the end in the first case if the chain has fewer hops than the
bound, and with nothing in all others (`Document.resolve_chain`). -/
namespace CrdForge.OpenApi

variable {α : Type}

/-! ### References -/

/-- What refers to a component of a kind. -/
def componentPath (kind name : String) : String := "#/components/" ++ kind ++ "/" ++ name

theorem componentPath_inj {kind name other : String} :
    componentPath kind name = componentPath kind other ↔ name = other := String.append_right_inj _

theorem referent?_eq_some_iff {kind reference : String} {components : List (String × α)} {found : α} :
    referent? kind reference components = some found ↔
      ∃ name, reference = componentPath kind name ∧ components.lookup name = some found := by
  simp only [referent?, Option.bind_eq_some_iff, Text.after?_eq_some_iff, componentPath]

/-! ### Chains -/

/-- Whether so many hops, each from a reference to the component that it names, lead from one to another. -/
inductive Chain (reference : α → Option String) (kind : String) (components : List (String × α)) :
    Nat → α → α → Prop
  | here (last : α) : Chain reference kind components 0 last last
  | hop {hops : Nat} {first next last : α} {name : String} :
    reference first = some (componentPath kind name) → components.lookup name = some next →
      Chain reference kind components hops next last → Chain reference kind components (hops + 1) first last

namespace Chain
variable {reference : α → Option String} {kind : String} {components : List (String × α)} {hops more : Nat}
  {first middle last : α}

theorem trans (h : Chain reference kind components hops first middle)
    (hm : Chain reference kind components more middle last) :
    Chain reference kind components (hops + more) first last := by
  induction h with
  | here => simpa using hm
  | @hop hops _ _ _ _ hr hl _ ih =>
    rw [Nat.add_right_comm]
    exact .hop hr hl (ih hm)

/-- A chain does not fork: the longer of two that start alike goes on where the shorter one stops. -/
theorem rest (h : Chain reference kind components hops first middle)
    (hm : Chain reference kind components (hops + more) first last) :
    Chain reference kind components more middle last := by
  induction h with
  | here => simpa using hm
  | @hop hops _ _ _ _ hr hl _ ih =>
    rw [Nat.add_right_comm] at hm
    cases hm with
    | hop hr' hl' hm =>
      obtain rfl := componentPath_inj.mp (Option.some.inj (hr.symm.trans hr'))
      obtain rfl := Option.some.inj (hl.symm.trans hl')
      exact ih hm

/-- Nothing follows what is no reference. -/
theorem stop (hn : reference middle = none) (h : Chain reference kind components hops middle last) :
    hops = 0 ∧ last = middle := by
  cases h with
  | here => exact ⟨rfl, rfl⟩
  | hop hr => cases hn.symm.trans hr

/-- What a chain passes comes before its end. -/
theorem before_end (h : Chain reference kind components hops first last) (hn : reference last = none)
    (hm : Chain reference kind components more first middle) :
    ∃ rest, hops = more + rest ∧ Chain reference kind components rest middle last := by
  rcases Nat.le_total more hops with hle | hle
  · obtain ⟨rest, rfl⟩ := Nat.exists_eq_add_of_le hle
    exact ⟨rest, rfl, hm.rest h⟩
  · obtain ⟨rest, rfl⟩ := Nat.exists_eq_add_of_le hle
    obtain ⟨rfl, rfl⟩ := (h.rest hm).stop hn
    exact ⟨0, rfl, .here _⟩

/-- There is one end at most, and one way to it. -/
theorem end_unique (h : Chain reference kind components hops first last) (hn : reference last = none)
    (hm : Chain reference kind components more first middle) (hnm : reference middle = none) :
    more = hops ∧ middle = last := by
  obtain ⟨rest, rfl, hrest⟩ := h.before_end hn hm
  obtain ⟨rfl, rfl⟩ := hrest.stop hnm
  exact ⟨rfl, rfl⟩

/-- A circle can be gone round for ever. -/
theorem round (h : Chain reference kind components (hops + 1) first first) (steps : Nat) :
    ∃ last, Chain reference kind components steps first last := by
  induction steps generalizing first with
  | zero => exact ⟨first, .here first⟩
  | succ steps ih =>
    cases h with
    | hop hr hl hrest =>
      -- What the first hop leads to is on the circle too.
      obtain ⟨last, hlast⟩ := ih (hrest.trans (.hop hr hl (.here _)))
      exact ⟨last, .hop hr hl hlast⟩

end Chain

/-! ### Chains of schemas -/

namespace Document

/-- Whether so many references lead from a schema to another. -/
def Leads (document : Document) : Nat → Schema → Schema → Prop :=
  Chain Schema.reference "schemas" document.components.schemas

/-- Whether references lead to a schema that is none. -/
def Ends (document : Document) (schema : Schema) : Prop :=
  ∃ hops last, document.Leads hops schema last ∧ last.reference = none

/-- Whether references lead to one that names no schema of the document. -/
def Dangles (document : Document) (schema : Schema) : Prop :=
  ∃ hops last name, document.Leads hops schema last ∧ last.reference = some (componentPath "schemas" name) ∧
    document.schema? name = none

/-- Whether references lead to one that is to something else than a schema of the document. -/
def Leaves (document : Document) (schema : Schema) : Prop :=
  ∃ hops last reference, document.Leads hops schema last ∧ last.reference = some reference ∧
    ∀ name, reference ≠ componentPath "schemas" name

/-- Whether references lead to one that leads back to itself. -/
def Circles (document : Document) (schema : Schema) : Prop :=
  ∃ hops last round, document.Leads hops schema last ∧ document.Leads (round + 1) last last

variable {document : Document} {schema last : Schema}

/-- Every chain that stops, stops in one of three ways. -/
theorem ways_of_stop {hops : Nat} (h : document.Leads hops schema last)
    (hs : ∀ next, ¬ document.Leads (hops + 1) schema next) :
    document.Ends schema ∨ document.Dangles schema ∨ document.Leaves schema := by
  cases hr : last.reference with
  | none => exact .inl ⟨hops, last, h, hr⟩
  | some reference =>
    by_cases hlocal : ∃ name, reference = componentPath "schemas" name
    · obtain ⟨name, rfl⟩ := hlocal
      cases hl : document.schema? name with
      | none => exact .inr (.inl ⟨hops, last, name, h, hr, hl⟩)
      | some next => exact absurd (h.trans (.hop hr hl (.here next))) (hs next)
    · exact .inr (.inr ⟨hops, last, reference, h, hr, fun name he => hlocal ⟨name, he⟩⟩)

/-- There are finitely many schemas, so a chain that does not stop comes back to one. -/
theorem circles_of_endless (h : ∀ hops, ∃ last, document.Leads hops schema last) :
    document.Circles schema := by
  have hnamed (hops : Nat) : ∃ name ∈ Keyed.keys document.components.schemas, ∃ last,
      document.schema? name = some last ∧ document.Leads (hops + 1) schema last := by
    obtain ⟨before, hbefore⟩ := h hops
    obtain ⟨last, hlast⟩ := h (hops + 1)
    cases hbefore.rest hlast with
    | @hop _ _ next _ name hr hl hrest =>
      obtain ⟨-, rfl⟩ : 0 = 0 ∧ last = next := by
        cases hrest
        exact ⟨rfl, rfl⟩
      exact ⟨name, Keyed.mem_keys.mpr (Keyed.has_iff.mpr ⟨last, hl⟩), last, hl, hlast⟩
  choose name hname found hfound hleads using hnamed
  have : Finite { name // name ∈ Keyed.keys document.components.schemas } := (List.finite_toSet _).to_subtype
  obtain ⟨i, j, hne, he⟩ := Finite.exists_ne_map_eq_of_infinite
    fun hops => (⟨name hops, hname hops⟩ : { name // name ∈ Keyed.keys document.components.schemas })
  have hsame : found i = found j := by
    have he : name i = name j := congrArg Subtype.val he
    exact Option.some.inj ((hfound i).symm.trans (he ▸ hfound j))
  have hround {i j : Nat} (hij : i < j) (hsame : found i = found j) : document.Circles schema := by
    obtain ⟨round, rfl⟩ := Nat.exists_eq_add_of_lt hij
    have hlater := hleads (i + round + 1)
    rw [← hsame, show i + round + 1 + 1 = i + 1 + (round + 1) by omega] at hlater
    exact ⟨i + 1, found i, round, hleads i, (hleads i).rest hlater⟩
  rcases Nat.lt_or_gt_of_ne hne with hij | hji
  · exact hround hij hsame
  · exact hround hji hsame.symm

/-- **Where references lead.** -/
theorem ways (document : Document) (schema : Schema) :
    document.Ends schema ∨ document.Dangles schema ∨ document.Leaves schema ∨ document.Circles schema := by
  have hgoes (hops : Nat) : (∃ last, document.Leads hops schema last) ∨
      document.Ends schema ∨ document.Dangles schema ∨ document.Leaves schema := by
    induction hops with
    | zero => exact .inl ⟨schema, .here schema⟩
    | succ hops ih =>
      rcases ih with ⟨last, hlast⟩ | hstop
      · by_cases hnext : ∃ next, document.Leads (hops + 1) schema next
        · exact .inl hnext
        · exact .inr (ways_of_stop hlast (not_exists.mp hnext))
      · exact .inr hstop
  by_cases hstop : document.Ends schema ∨ document.Dangles schema ∨ document.Leaves schema
  · tauto
  · exact .inr (.inr (.inr (circles_of_endless fun hops => (hgoes hops).resolve_right hstop)))

/-! ### Resolution -/

/-- A chain that has an end neither dangles nor leaves the schemas nor runs into a circle. -/
theorem Ends.exclusive (h : document.Ends schema) :
    ¬ document.Dangles schema ∧ ¬ document.Leaves schema ∧ ¬ document.Circles schema := by
  obtain ⟨hops, last, hlast, hn⟩ := h
  -- What a chain passes is its end, or a reference to a schema.
  have hpassed {more : Nat} {middle : Schema} (hm : document.Leads more schema middle) :
      middle.reference = none ∨ ∃ name next, middle.reference = some (componentPath "schemas" name) ∧
        document.schema? name = some next := by
    obtain ⟨rest, -, hrest⟩ := hlast.before_end hn hm
    cases hrest with
    | here => exact .inl hn
    | hop hr hl => exact .inr ⟨_, _, hr, hl⟩
  refine ⟨?_, ?_, ?_⟩
  · rintro ⟨more, middle, name, hm, hr, hl⟩
    rcases hpassed hm with hr' | ⟨name', next, hr', hl'⟩
    · cases hr.symm.trans hr'
    · obtain rfl := componentPath_inj.mp (Option.some.inj (hr.symm.trans hr'))
      cases hl.symm.trans hl'
  · rintro ⟨more, middle, reference, hm, hr, hleaves⟩
    rcases hpassed hm with hr' | ⟨name, next, hr', -⟩
    · cases hr.symm.trans hr'
    · exact hleaves name (Option.some.inj (hr.symm.trans hr'))
  · rintro ⟨more, middle, round, hm, hround⟩
    obtain ⟨far, hfar⟩ := hround.round (hops + 1)
    obtain ⟨rest, hrest, -⟩ := hlast.before_end hn (hm.trans hfar)
    omega

theorem resolveWithin_eq_some_iff {steps : Nat} {schema : Schema} :
    document.resolveWithin steps schema = some last ↔
    last.reference = none ∧ ∃ hops < steps, document.Leads hops schema last := by
  induction steps generalizing schema with
  | zero => simp [resolveWithin]
  | succ steps ih =>
    cases hr : schema.reference with
    | none =>
      rw [resolveWithin, hr]
      constructor
      · rintro ⟨⟩
        exact ⟨hr, 0, Nat.succ_pos _, .here _⟩
      · rintro ⟨-, hops, -, h⟩
        exact congrArg some (h.stop hr).2.symm
    | some reference =>
      rw [resolveWithin, hr]
      simp only [Option.bind_eq_some_iff, referent?_eq_some_iff, ih]
      constructor
      · rintro ⟨next, ⟨name, rfl, hl⟩, hn, hops, hlt, h⟩
        exact ⟨hn, hops + 1, Nat.succ_lt_succ hlt, .hop hr hl h⟩
      · rintro ⟨hn, hops, hlt, h⟩
        cases h with
        | here => cases hr.symm.trans hn
        | hop hr' hl h =>
          exact ⟨_, ⟨_, Option.some.inj (hr.symm.trans hr'), hl⟩, hn, _, Nat.lt_of_succ_lt_succ hlt, h⟩

/-- **What resolution answers.** If references lead to a schema that is
none, it is that schema, provided that fewer hops than the bound lead there.
A chain that has no such end has no answer, and no answer is a reference. -/
theorem resolve_chain (document : Document) (schema : Schema) :
    (∀ hops last, document.Leads hops schema last → last.reference = none →
        document.resolve schema = if hops < maxReferences then some last else none) ∧
      (document.Dangles schema ∨ document.Leaves schema ∨ document.Circles schema →
        document.resolve schema = none) ∧
      (∀ answer, document.resolve schema = some answer → answer.reference = none) ∧
      (document.Ends schema ∨ document.Dangles schema ∨ document.Leaves schema ∨
        document.Circles schema) := by
  have hanswer {answer : Schema} (h : document.resolve schema = some answer) :
      answer.reference = none ∧ ∃ hops < maxReferences, document.Leads hops schema answer :=
    resolveWithin_eq_some_iff.mp h
  refine ⟨fun hops last h hn => ?_, fun hastray => ?_, fun answer h => (hanswer h).1, document.ways schema⟩
  · split
    · next hlt => exact resolveWithin_eq_some_iff.mpr ⟨hn, hops, hlt, h⟩
    · next hlt =>
      refine Option.eq_none_iff_forall_ne_some.mpr fun answer ha => hlt ?_
      obtain ⟨hna, more, hmore, hm⟩ := hanswer ha
      exact (h.end_unique hn hm hna).1 ▸ hmore
  · refine Option.eq_none_iff_forall_ne_some.mpr fun answer ha => ?_
    obtain ⟨hna, hops, -, h⟩ := hanswer ha
    obtain ⟨hdangles, hleaves, hcircles⟩ := Ends.exclusive ⟨hops, answer, h, hna⟩
    tauto

end Document

/-! ### A long chain -/

def aliasName (number : Nat) : String := String.ofList (List.replicate number 'i')

/-- Refers to the alias of a number. -/
def aliasSchema (number : Nat) : Schema where
  reference := some (componentPath "schemas" (aliasName number))

def nicknameSchema : Schema where
  type := some (.one "string")

/-- Each alias stands for the one before, the first one for a nickname. -/
def aliases : Nat → List (String × Schema)
  | 0 => [(aliasName 0, nicknameSchema)]
  | number + 1 => (aliasName (number + 1), aliasSchema number) :: aliases number

def aliasDocument (number : Nat) : Document where
  components := { schemas := aliases number }

theorem aliasName_inj {number other : Nat} : aliasName number = aliasName other ↔ number = other := by
  simp [aliasName, String.ofList_inj, List.replicate_inj]

theorem lookup_aliases {number count : Nat} (h : number ≤ count) :
    (aliases count).lookup (aliasName number) = (aliases number).head?.map (·.2) := by
  induction count with
  | zero =>
    obtain rfl := Nat.le_zero.mp h
    rfl
  | succ count ih =>
    rw [aliases, Keyed.lookup_cons]
    rcases Nat.lt_or_eq_of_le h with hlt | rfl
    · rw [if_neg (mt aliasName_inj.mp (Nat.ne_of_lt hlt)), ih (Nat.le_of_lt_succ hlt)]
    · rw [if_pos rfl]
      rfl

theorem aliasDocument_leads {number count : Nat} (h : number ≤ count) :
    (aliasDocument count).Leads (number + 1) (aliasSchema number) nicknameSchema := by
  induction number with
  | zero => exact .hop rfl (lookup_aliases h) (.here _)
  | succ number ih => exact .hop rfl (lookup_aliases h) (ih (Nat.le_of_succ_le h))

/-- Of two aliases of the same document the one that is as many hops away as the bound says is not
resolved, and the one before it is. -/
theorem bound_unresolved :
    (aliasDocument 31).Leads maxReferences (aliasSchema 31) nicknameSchema ∧ nicknameSchema.reference = none ∧
      (aliasDocument 31).resolve (aliasSchema 31) = none ∧
      (aliasDocument 31).resolve (aliasSchema 30) = some nicknameSchema := by
  have hlast : (aliasDocument 31).Leads maxReferences (aliasSchema 31) nicknameSchema :=
    aliasDocument_leads (Nat.le_refl 31)
  have hbefore : (aliasDocument 31).Leads 31 (aliasSchema 30) nicknameSchema :=
    aliasDocument_leads (Nat.le_succ 30)
  exact ⟨hlast, rfl, (Document.resolve_chain _ _).1 _ _ hlast rfl,
    (Document.resolve_chain _ _).1 _ _ hbefore rfl⟩

end CrdForge.OpenApi
