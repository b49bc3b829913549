import Mathlib.Data.List.Nodup
import CrdForge.Proofs.Conversion.Narrowing

/-! What the discriminator of a union offers.

A choice between references becomes an object with a property for each branch that has a conversion, and
a discriminator with the names of all branches. The names are collected before it is known what has a
conversion, and they are not compared with each other or with the name of the discriminator. So the
discriminator offers what can be set, each once, exactly if every branch has a conversion and a name of
its own (`discriminates_iff`). -/
namespace CrdForge.Conversion

open Extension (Tree)

variable {setting : Setting} {shape : Shape} {path : List String} {source : OpenApi.Schema} {depth : Nat}
  {result bare : Crd.Schema} {branches : List OpenApi.Schema} {name : String}

/-- The name of a branch, if it is a reference. -/
def branchName? (branch : OpenApi.Schema) : Option String := branch.reference.map optionName

theorem optionNames_eq (branches : List OpenApi.Schema) :
    optionNames branches = branches.filterMap branchName? := by
  rw [optionNames, List.map_filterMap]
  rfl

/-! ### Properties for branches -/

/-- A property is listed for each branch that has a conversion. -/
theorem has_optionShapes : Keyed.has name (optionShapes shape path bare branches).properties = true ↔
    Keyed.has name bare.properties = true ∨
      ∃ branch ∈ branches, branchName? branch = some name ∧
        (shape branch (path ++ [name])).isSome = true := by
  induction branches generalizing bare with
  | nil => simp [optionShapes]
  | cons branch rest ih =>
    rw [optionShapes]
    simp only [List.mem_cons, exists_eq_or_imp]
    cases hr : branch.reference with
    | none =>
      have hnone : branchName? branch = none := by rw [branchName?, hr, Option.map_none]
      simp only [ih, hnone, reduceCtorEq, false_and, false_or]
    | some reference =>
      have hname : branchName? branch = some (optionName reference) := by
        rw [branchName?, hr, Option.map_some]
      simp only [hname, Option.some.injEq]
      cases hc : shape branch (path ++ [optionName reference]) with
      | none =>
        have hnone : ¬ (optionName reference = name ∧ (shape branch (path ++ [name])).isSome = true) := by
          rintro ⟨rfl, hs⟩
          rw [hc] at hs
          cases hs
        simp only [ih, hnone, false_or]
      | some converted =>
        have hsome : optionName reference = name ∧ (shape branch (path ++ [name])).isSome = true ↔
            name = optionName reference := by
          constructor
          · exact fun h => h.1.symm
          · rintro rfl
            exact ⟨rfl, by rw [hc]; rfl⟩
        simp only [ih, hsome, Crd.Schema.insert, Keyed.has_insert, Bool.or_eq_true, beq_iff_eq]
        rw [or_comm (a := name = _), or_assoc]

/-! ### Names of branches -/

/-- All branches of a choice between references have a name. -/
theorem map_branchName? (h : isUnion source = true) :
    source.oneOf.map branchName? = (optionNames source.oneOf).map some := by
  have hall : ∀ branch ∈ source.oneOf, branch.reference.isSome = true :=
    List.all_eq_true.mp (Bool.and_eq_true_iff.mp h).2
  rw [optionNames_eq]
  generalize source.oneOf = branches at hall
  induction branches with
  | nil => rfl
  | cons branch rest ih =>
    obtain ⟨hbranch, hrest⟩ := List.forall_mem_cons.mp hall
    obtain ⟨reference, hr⟩ := Option.isSome_iff_exists.mp hbranch
    have hname : branchName? branch = some (optionName reference) := by rw [branchName?, hr, Option.map_some]
    rw [List.map_cons, ih hrest, List.filterMap_cons, hname, List.map_cons]

theorem mem_optionNames :
    name ∈ optionNames branches ↔ ∃ branch ∈ branches, branchName? branch = some name := by
  rw [optionNames_eq, List.mem_filterMap]

/-- Where names are given once, a branch is known by its name. -/
theorem branch_unique (hu : isUnion source = true) (hd : (optionNames source.oneOf).Nodup)
    {branch other : OpenApi.Schema} (hb : branch ∈ source.oneOf) (ho : other ∈ source.oneOf)
    (h : branchName? branch = branchName? other) : branch = other := by
  apply List.inj_on_of_nodup_map ?_ hb ho h
  rw [map_branchName? hu]
  exact List.Nodup.map (fun _ _ he => Option.some.inj he) hd

/-! ### Discriminators -/

/-- Whether the discriminator of a union offers, each once, what is listed beside it, and each branch
that has a conversion is listed as that. -/
structure Discriminates (below : String → OpenApi.Schema → Option Crd.Schema) (source : OpenApi.Schema)
    (result kind : Crd.Schema) : Prop where
  once : kind.enumeration.Nodup
  offers : ∀ value, value ∈ kind.enumeration ↔
    ∃ name, value = .string name ∧ name ≠ "type" ∧ Keyed.has name result.properties = true
  own : ∀ branch ∈ source.oneOf, ∀ name converted, branchName? branch = some name →
    below name branch = some converted → result.property? name = some converted

/-- What becomes of the branches of a union: all names are offered, and beside the discriminator nothing
is listed but the conversions of branches, under their names. -/
structure Offers (below : String → OpenApi.Schema → Option Crd.Schema) (source : OpenApi.Schema)
    (result kind : Crd.Schema) : Prop where
  names : kind.enumeration = (optionNames source.oneOf).map .string
  has : ∀ name, name ≠ "type" → (Keyed.has name result.properties = true ↔
    ∃ branch ∈ source.oneOf, branchName? branch = some name ∧ (below name branch).isSome = true)
  converted : ∀ {name listed}, name ≠ "type" → result.property? name = some listed →
    ∃ branch ∈ source.oneOf, branchName? branch = some name ∧ below name branch = some listed

theorem offers_of_tagged (h : Tagged shape path source result) :
    ∃ kind, result.property? "type" = some kind ∧
      Offers (fun name schema => shape schema (path ++ [name])) source result kind := by
  obtain ⟨bare, hbare, hproperties⟩ := h.properties
  have hlookup (name : String) : result.property? name = if name = "type" then
      some (discriminator (optionNames source.oneOf)) else
        (optionShapes shape path bare source.oneOf).properties.lookup name := by
    rw [Crd.Schema.property?, hproperties, Keyed.lookup_insert]
  refine ⟨_, (hlookup "type").trans (if_pos rfl), rfl, fun name hn => ?_, fun {name listed} hn hl => ?_⟩
  · rw [hproperties, Keyed.has_insert, beq_eq_false_iff_ne.mpr hn, Bool.false_or, has_optionShapes, hbare]
    exact or_iff_right (by simp [Keyed.has])
  · rw [hlookup, if_neg hn] at hl
    rcases optionShapes_lookup hl with hnone | ⟨branch, reference, hb, hr, hname, hc⟩
    · rw [hbare] at hnone
      cases hnone
    · exact ⟨branch, hb, by rw [branchName?, hr, Option.map_some, ← hname], hc⟩

section
variable {below : String → OpenApi.Schema → Option Crd.Schema} {kind : Crd.Schema}
  (h : Offers below source result kind) (hu : isUnion source = true)
include h hu

/-- Where what is offered can be set, every branch has a conversion and a name of its own. -/
theorem Offers.of_discriminates (hd : Discriminates below source result kind) :
    (optionNames source.oneOf).Nodup ∧ "type" ∉ optionNames source.oneOf ∧
      ∀ branch ∈ source.oneOf, ∀ name, branchName? branch = some name →
        (below name branch).isSome = true := by
  have hnames : (optionNames source.oneOf).Nodup := List.Nodup.of_map _ (h.names ▸ hd.once)
  have hoffered (name : String) (hm : name ∈ optionNames source.oneOf) :
      name ≠ "type" ∧ Keyed.has name result.properties = true := by
    have hvalue : Json.string name ∈ kind.enumeration := h.names ▸ List.mem_map_of_mem hm
    obtain ⟨other, he, hother⟩ := (hd.offers _).mp hvalue
    rwa [Json.string.inj he]
  refine ⟨hnames, fun hm => (hoffered _ hm).1 rfl, fun branch hb name hn => ?_⟩
  obtain ⟨hne, hhas⟩ := hoffered name (mem_optionNames.mpr ⟨branch, hb, hn⟩)
  obtain ⟨other, ho, hother, hsome⟩ := (h.has name hne).mp hhas
  rwa [branch_unique hu hnames hb ho (hn.trans hother.symm)]

theorem Offers.discriminates (hnames : (optionNames source.oneOf).Nodup)
    (htype : "type" ∉ optionNames source.oneOf)
    (hsome : ∀ branch ∈ source.oneOf, ∀ name, branchName? branch = some name →
      (below name branch).isSome = true) :
    Discriminates below source result kind := by
  have hne {name : String} (hm : name ∈ optionNames source.oneOf) : name ≠ "type" := fun he => htype (he ▸ hm)
  constructor
  · rw [h.names]
    exact List.Nodup.map (fun _ _ he => Json.string.inj he) hnames
  · intro value
    rw [h.names, List.mem_map]
    constructor
    · rintro ⟨name, hm, rfl⟩
      obtain ⟨branch, hb, hn⟩ := mem_optionNames.mp hm
      exact ⟨name, rfl, hne hm, (h.has name (hne hm)).mpr ⟨branch, hb, hn, hsome branch hb name hn⟩⟩
    · rintro ⟨name, rfl, hn, hhas⟩
      obtain ⟨branch, hb, hbranch, -⟩ := (h.has name hn).mp hhas
      exact ⟨name, mem_optionNames.mpr ⟨branch, hb, hbranch⟩, rfl⟩
  · intro branch hb name converted hn hconverted
    have hname : name ≠ "type" := hne (mem_optionNames.mpr ⟨branch, hb, hn⟩)
    obtain ⟨listed, hl⟩ := Keyed.has_iff.mp ((h.has name hname).mpr ⟨branch, hb, hn, hsome branch hb name hn⟩)
    have hl : result.property? name = some listed := hl
    obtain ⟨other, ho, hother, hc⟩ := h.converted hname hl
    rw [hl, ← hc, ← hconverted, branch_unique hu hnames hb ho (hn.trans hother.symm)]

end

/-- **A discriminator offers all branches of its union, and those that have a conversion are listed
beside it.** So it offers what can be set, each once, exactly if every branch has a conversion and a name
of its own, which is not that of the discriminator. -/
theorem discriminates_iff {place : Place} {schema : OpenApi.Schema} {tree after : Tree}
    (hs : place.schema = some schema) (hr : setting.document.resolve schema = some source)
    (hh : setting.hides (rooted place.path) = false)
    (hsplits : Splits (convertBelow setting place depth tree) source)
    (hc : convert setting place depth tree = (some result, after)) :
    ∃ kind, result.property? "type" = some kind ∧ kind.enumeration = (optionNames source.oneOf).map .string ∧
      (∀ name, name ≠ "type" → (Keyed.has name result.properties = true ↔ ∃ branch ∈ source.oneOf,
        branchName? branch = some name ∧ (convertBelow setting place depth tree name branch).isSome = true)) ∧
      (Discriminates (convertBelow setting place depth tree) source result kind ↔
        (optionNames source.oneOf).Nodup ∧ "type" ∉ optionNames source.oneOf ∧
          ∀ branch ∈ source.oneOf, ∀ name, branchName? branch = some name →
            (convertBelow setting place depth tree name branch).isSome = true) := by
  rw [convertBelow_eq] at hsplits ⊢
  generalize hshape : (shapeWithin setting (maxDepth - (depth + 1)) : Shape) = shape at hsplits ⊢
  have htagged : Tagged shape (rooted place.path) source result := by
    have hresult := shapeWithin_narrowed hh hr (shapeWithin_of_convert hs hc)
    rw [hshape] at hresult
    rw [hresult]
    exact tagged_of_tags ⟨_, rfl⟩ (tags_iff.mpr hsplits)
  obtain ⟨kind, hkind, h⟩ := offers_of_tagged htagged
  refine ⟨kind, hkind, h.names, h.has, h.of_discriminates hsplits.union, ?_⟩
  rintro ⟨hnames, htype, hsome⟩
  exact h.discriminates hsplits.union hnames htype hsome

/-- A choice between a cat and a dog. -/
def pet : OpenApi.Schema where
  oneOf := [{ reference := some "#/components/schemas/Cat" },
    { reference := some "#/components/schemas/Dog" }]

/-- Dogs are skipped. -/
def petSetting : Setting where
  document := { components := { schemas := [("Cat", {}), ("Dog", {})] } }
  filters := { skipped := ["$.dog"] }

def petPlace : Place := ⟨some pet, Tree.root, [Path.root]⟩

/-- The dog is offered, but it cannot be set. -/
theorem pet_offered_without_property :
    ∃ result kind after, convert petSetting petPlace 0 .empty = (some result, after) ∧
      result.property? "type" = some kind ∧ kind.enumeration = [.string "cat", .string "dog"] ∧
      Keyed.has "cat" result.properties = true ∧ Keyed.has "dog" result.properties = false ∧
      ¬ Discriminates (convertBelow petSetting petPlace 0 .empty) pet result kind := by
  obtain ⟨result, hresult⟩ : ∃ result, (convert petSetting petPlace 0 .empty).1 = some result :=
    Option.isSome_iff_exists.mp (by decide +kernel)
  have hsplits : Splits (convertBelow petSetting petPlace 0 .empty) pet := ⟨by decide, by simp [pet], rfl⟩
  obtain ⟨kind, hkind, hnames, hlisted, hiff⟩ := discriminates_iff rfl rfl rfl hsplits (Prod.ext hresult rfl)
  have hoptions : optionNames pet.oneOf = ["cat", "dog"] := by decide +kernel
  have hcat : ∃ branch ∈ pet.oneOf, branchName? branch = some "cat" ∧
      (convertBelow petSetting petPlace 0 .empty "cat" branch).isSome = true := by decide +kernel
  have hdog : ∀ branch ∈ pet.oneOf, branchName? branch = some "dog" →
      (convertBelow petSetting petPlace 0 .empty "dog" branch).isSome = false := by decide +kernel
  have hlost : Keyed.has "dog" result.properties = false := by
    rw [Bool.eq_false_iff]
    intro hhas
    obtain ⟨branch, hb, hn, hc⟩ := (hlisted "dog" (by decide)).mp hhas
    exact Bool.eq_false_iff.mp (hdog branch hb hn) hc
  refine ⟨result, kind, _, Prod.ext hresult rfl, hkind, by rw [hnames, hoptions]; rfl,
    (hlisted "cat" (by decide)).mpr hcat, hlost, fun h => ?_⟩
  obtain ⟨branch, hb, hn⟩ := mem_optionNames.mp (show "dog" ∈ optionNames pet.oneOf by rw [hoptions]; decide)
  exact Bool.eq_false_iff.mp (hdog branch hb hn) ((hiff.mp h).2.2 branch hb "dog" hn)

end CrdForge.Conversion
