import CrdForge.Proofs.Pipeline.Listing

/-! Which fields a version has in the end.

A parameter is listed as it was converted last, unless the entry or a reference has its name; a reference
is listed as it was declared last. Choices are added to the rules of the version and its entry, and
change nothing else. -/
namespace CrdForge.Pipeline

/-! ### Headings -/

/-- Whether two schemas differ in nothing but what they list, require and demand. -/
def SameHeading (schema other : Crd.Schema) : Prop :=
  ∃ properties required rules, schema =
    { other with properties := properties, required := required, rules := rules }

namespace SameHeading
variable {schema middle other : Crd.Schema}

theorem refl (schema : Crd.Schema) : SameHeading schema schema := by
  refine ⟨schema.properties, schema.required, schema.rules, ?_⟩
  cases schema
  rfl

theorem trans (h : SameHeading schema middle) (h' : SameHeading middle other) : SameHeading schema other := by
  obtain ⟨properties, required, rules, rfl⟩ := h
  obtain ⟨_, _, _, rfl⟩ := h'
  exact ⟨properties, required, rules, rfl⟩

theorem description (h : SameHeading schema other) : schema.description = other.description := by
  obtain ⟨_, _, _, rfl⟩ := h
  rfl

theorem type (h : SameHeading schema other) : schema.type = other.type := by
  obtain ⟨_, _, _, rfl⟩ := h
  rfl

theorem insert (schema : Crd.Schema) (name : String) (property : Crd.Schema) :
    SameHeading (schema.insert name property) schema := ⟨_, _, _, rfl⟩

theorem addRule (schema : Crd.Schema) (rule : Crd.Rule) : SameHeading (schema.addRule rule) schema := by
  rw [Crd.Schema.addRule]
  split
  · exact refl schema
  · exact ⟨_, _, _, rfl⟩

theorem addRequired (schema : Crd.Schema) (name : String) : SameHeading (schema.addRequired name) schema := by
  rw [Crd.Schema.addRequired]
  split
  · exact refl schema
  · exact ⟨_, _, _, rfl⟩

end SameHeading

section
variable {target listed : Crd.Schema} {references : List Config.Reference} {reference : Config.Reference}
  {name : String}

/-! ### References -/

/-- References change what is listed and required. -/
theorem withReferences_heading (h : withReferences target references = (listed, none)) :
    SameHeading listed target ∧ listed.rules = target.rules := by
  induction references generalizing target with
  | nil =>
    cases h
    exact ⟨.refl _, rfl⟩
  | cons reference rest ih =>
    rw [withReferences] at h
    split at h
    · cases h
    · obtain ⟨hheading, hrules⟩ := ih h
      exact ⟨hheading.trans ⟨_, _, _, rfl⟩, hrules⟩

theorem withReferences_property?_of_notMem (h : withReferences target references = (listed, none))
    (hn : name ∉ referenceNames references) : listed.property? name = target.property? name :=
  (withReferences_covers h).properties name hn

/-- A reference is listed as it was declared last. -/
theorem withReferences_property?_last {before after : List Config.Reference}
    (h : withReferences target (before ++ reference :: after) = (listed, none))
    (hlast : reference.name ∉ referenceNames after) :
    ∃ targetProperty, reference.target.properties.head? = some targetProperty ∧
      listed.property? reference.name = some (referenceSchema reference targetProperty) := by
  induction before generalizing target with
  | nil =>
    rw [List.nil_append, withReferences] at h
    split at h
    · cases h
    · next targetProperty _ hp =>
      refine ⟨targetProperty, by rw [hp]; rfl, ?_⟩
      rw [withReferences_property?_of_notMem h hlast]
      exact (property?_insert ..).trans (if_pos rfl)
  | cons first rest ih =>
    rw [List.cons_append, withReferences] at h
    split at h
    · cases h
    · exact ih h

/-- A list in which something holds of a member has a last such member. -/
theorem exists_last {α : Type} {P : α → Prop} {xs : List α} (h : ∃ x ∈ xs, P x) :
    ∃ before x after, xs = before ++ x :: after ∧ P x ∧ ∀ y ∈ after, ¬ P y := by
  induction xs with
  | nil => simp at h
  | cons x rest ih =>
    by_cases hr : ∃ y ∈ rest, P y
    · obtain ⟨before, last, after, rfl, hlast⟩ := ih hr
      exact ⟨x :: before, last, after, rfl, hlast⟩
    · simp only [not_exists, not_and] at hr
      obtain ⟨y, hm, hy⟩ := h
      rcases List.mem_cons.mp hm with rfl | hm
      · exact ⟨[], y, rest, rfl, hy, hr⟩
      · exact absurd hy (hr y hm)

theorem exists_last_reference (h : name ∈ referenceNames references) :
    ∃ before reference after, references = before ++ reference :: after ∧ reference.name = name ∧
      name ∉ referenceNames after := by
  obtain ⟨before, reference, after, hs, hn, hlast⟩ := exists_last (List.mem_map.mp h)
  refine ⟨before, reference, after, hs, hn, fun hm => ?_⟩
  obtain ⟨other, ho, he⟩ := List.mem_map.mp hm
  exact hlast other ho he

/-- A reference has no rules. -/
theorem withReferences_property?_rules (h : withReferences target references = (listed, none))
    (hn : name ∈ referenceNames references) :
    ∃ property, listed.property? name = some property ∧ property.rules = [] := by
  obtain ⟨before, reference, after, rfl, rfl, hlast⟩ := exists_last_reference hn
  obtain ⟨targetProperty, -, hp⟩ := withReferences_property?_last h hlast
  exact ⟨_, hp, rfl⟩

/-! ### Choices -/

/-- Whether a schema differs from another in nothing but choices that it demands as well. -/
structure Chooses (schema other : Crd.Schema) : Prop where
  heading : SameHeading schema other
  properties : schema.properties = other.properties
  kept : ∀ rule ∈ other.rules, rule ∈ schema.rules
  only : ∀ rule ∈ schema.rules, rule ∈ other.rules ∨ ∃ fields, rule = .exactlyOneOf fields

theorem Chooses.refl (schema : Crd.Schema) : Chooses schema schema :=
  ⟨.refl schema, rfl, fun _ h => h, fun _ => .inl⟩

theorem addRule_chooses (schema : Crd.Schema) (fields : List String) :
    Chooses (schema.addRule (.exactlyOneOf fields)) schema where
  heading := .addRule ..
  properties := addRule_properties ..
  kept _ hm := mem_addRule.mpr (.inl hm)
  only _ hm := (mem_addRule.mp hm).imp id fun he => ⟨fields, he⟩

theorem withChoices_chooses (target : Crd.Schema) (references : List Config.Reference) :
    Chooses (withChoices target references) target := by
  rw [withChoices]
  induction references generalizing target with
  | nil => exact .refl target
  | cons reference rest ih =>
    rw [List.foldl_cons]
    split
    · have hfirst := addRule_chooses target [reference.leaf, reference.name]
      have hrest := ih (target.addRule (.exactlyOneOf [reference.leaf, reference.name]))
      exact ⟨hrest.heading.trans hfirst.heading, hrest.properties.trans hfirst.properties,
        fun rule hm => hrest.kept rule (hfirst.kept rule hm),
        fun rule hm => (hrest.only rule hm).elim (hfirst.only rule) .inr⟩
    · exact ih target

theorem immutable_ne_exactlyOneOf (name : String) (fields : List String) :
    Crd.Rule.immutable name ≠ .exactlyOneOf fields := by
  intro h
  have hend := congrArg (fun rule : Crd.Rule => rule.message.toList.getLast?) h
  simp [Crd.Rule.immutable, Crd.Rule.exactlyOneOf, String.toList_append, List.getLast?_cons] at hend

/-- With the choices of a mapping the rules of a version and of its entry change, and nothing else. -/
theorem versionWithChoices_heading (mapping : Config.Mapping) (version : Crd.Schema) :
    SameHeading (versionWithChoices mapping version) version := by
  have hchosen := (withChoices_chooses version mapping.parameters.references).heading
  rw [versionWithChoices]
  split
  · exact (SameHeading.insert ..).trans hchosen
  · exact hchosen

theorem versionWithChoices_property?_eq (mapping : Config.Mapping) (version : Crd.Schema) (name : String) :
    (versionWithChoices mapping version).property? name =
      if name = entryPart then (version.property? entryPart).map (withChoices · mapping.entry.references)
      else version.property? name := by
  have hsame (name : String) : (withChoices version mapping.parameters.references).property? name =
      version.property? name := by
    rw [Crd.Schema.property?, (withChoices_chooses ..).properties, Crd.Schema.property?]
  rw [versionWithChoices, ← hsame entryPart, ← hsame name]
  cases he : (withChoices version mapping.parameters.references).property? entryPart with
  | none =>
    by_cases hn : name = entryPart
    · rw [if_pos hn, hn]
      exact he
    · exact (if_neg hn).symm
  | some entry =>
    dsimp only
    rw [property?_insert]
    split <;> rfl

end

/-- What a version lists stays with the choices of a mapping, but for
choices that the entry demands as well. -/
theorem versionWithChoices_listed (mapping : Config.Mapping) {version old : Crd.Schema}
    (h : version.property? name = some old) :
    ∃ listed, (versionWithChoices mapping version).property? name = some listed ∧ Chooses listed old ∧
      ((name = entryPart → mapping.entry.references = []) → listed = old) := by
  rw [versionWithChoices_property?_eq]
  by_cases hn : name = entryPart
  · have h : version.property? entryPart = some old := hn ▸ h
    rw [if_pos hn, h]
    refine ⟨_, rfl, withChoices_chooses .., fun he => ?_⟩
    rw [he hn]
    rfl
  · rw [if_neg hn]
    exact ⟨old, h, .refl old, fun _ => rfl⟩

/-! ### Parameters and the entry -/

section
variable {job : Job} {version referenced : Crd.Schema} {name : String}

theorem withParameter_heading (version : Crd.Schema) (parameter : OpenApi.Parameter) :
    SameHeading (job.withParameter version parameter) version := by
  rw [Job.withParameter]
  split
  · rw [withParameter]
    split
    · exact (SameHeading.addRequired ..).trans (.insert ..)
    · exact .insert ..
  · exact .refl version

theorem withParameters_heading (version : Crd.Schema) (parameters : List OpenApi.Parameter) :
    SameHeading (parameters.foldl job.withParameter version) version := by
  induction parameters generalizing version with
  | nil => exact .refl version
  | cons parameter rest ih => exact (ih _).trans (withParameter_heading version parameter)

theorem withParameter_property? (version : Crd.Schema) (parameter : OpenApi.Parameter) (name : String) :
    (job.withParameter version parameter).property? name =
      if name = parameter.name then ((job.parameterShape? parameter).map (parameterProperty parameter)).or
        (version.property? name)
      else version.property? name := by
  rw [Job.withParameter]
  cases job.parameterShape? parameter with
  | none => simp
  | some converted =>
    dsimp only
    rw [Crd.Schema.property?, withParameter_properties, Keyed.lookup_insert]
    split <;> rfl

/-- Parameters with other names, or without a conversion, leave what is listed for a name. -/
theorem withParameters_property?_of_none {parameters : List OpenApi.Parameter}
    (h : ∀ parameter ∈ parameters, parameter.name = name → job.parameterShape? parameter = none) :
    (parameters.foldl job.withParameter version).property? name = version.property? name := by
  induction parameters generalizing version with
  | nil => rfl
  | cons parameter rest ih =>
    rw [List.foldl_cons, ih fun other ho => h other (List.mem_cons_of_mem _ ho), withParameter_property?]
    split
    · next hn => rw [h parameter (List.mem_cons_self ..) hn.symm, Option.map_none, Option.none_or]
    · rfl

/-- A parameter is listed as it was converted last. -/
theorem withParameters_property?_last {before after : List OpenApi.Parameter} {parameter : OpenApi.Parameter}
    {converted : Crd.Schema} (hs : job.parameterShape? parameter = some converted)
    (hlast : ∀ other ∈ after, other.name = parameter.name → job.parameterShape? other = none) :
    ((before ++ parameter :: after).foldl job.withParameter version).property? parameter.name =
      some (parameterProperty parameter converted) := by
  rw [List.foldl_append, List.foldl_cons, withParameters_property?_of_none hlast,
    withParameter_property?, if_pos rfl, hs]
  rfl

theorem withEntry_heading (description : String) (version : Crd.Schema) :
    SameHeading (job.withEntry description version) version := by
  rw [Job.withEntry]
  split
  · exact .insert ..
  · exact .refl version

theorem withEntry_property? (description : String) (version : Crd.Schema) (name : String) :
    (job.withEntry description version).property? name =
      if name = entryPart then (job.entryShape?.map (described description)).or (version.property? name)
      else version.property? name := by
  rw [Job.withEntry]
  cases job.entryShape? with
  | none => simp
  | some converted =>
    dsimp only
    rw [property?_insert]
    split <;> rfl

/-! ### Whole versions -/

theorem Refers.heading {mapping : Config.Mapping} (h : Refers mapping version referenced) :
    SameHeading referenced version := by
  cases h with
  | version hl _ => exact (withReferences_heading hl).1
  | entry hl _ _ => exact (SameHeading.insert ..).trans (withReferences_heading hl).1

/-- What a version lists stays with references that have other names, but
for those of the entry in the entry. -/
theorem Refers.listed {mapping : Config.Mapping} {old : Crd.Schema} (h : Refers mapping version referenced)
    (hn : name ∉ referenceNames mapping.parameters.references) (hv : version.property? name = some old) :
    ∃ listed, referenced.property? name = some listed ∧ listed.rules = old.rules ∧
      ((name = entryPart → mapping.entry.references = []) → listed = old) := by
  cases h with
  | version hl _ =>
    rw [withReferences_property?_of_notMem hl hn]
    exact ⟨old, hv, rfl, fun _ => rfl⟩
  | @entry listed entry whole hl he hw =>
    have hsame := (withReferences_property?_of_notMem hl hn).trans hv
    rw [property?_insert]
    by_cases hname : name = entryPart
    · rw [if_pos hname]
      rw [hname, he] at hsame
      obtain rfl := Option.some.inj hsame
      refine ⟨whole, rfl, (withReferences_heading hw).2, fun hnone => ?_⟩
      rw [hnone hname] at hw
      exact (congrArg Prod.fst hw).symm
    · rw [if_neg hname]
      exact ⟨old, hsame, rfl, fun _ => rfl⟩

/-- Where a reference is listed there are no rules. -/
theorem Refers.replaced {mapping : Config.Mapping} (h : Refers mapping version referenced)
    (hn : name ∈ referenceNames mapping.parameters.references) :
    ∃ listed, referenced.property? name = some listed ∧ listed.rules = [] := by
  cases h with
  | version hl _ => exact withReferences_property?_rules hl hn
  | @entry listed entry whole hl he hw =>
    obtain ⟨property, hp, hrules⟩ := withReferences_property?_rules hl hn
    rw [property?_insert]
    by_cases hname : name = entryPart
    · rw [if_pos hname]
      rw [hname, he] at hp
      obtain rfl := Option.some.inj hp
      exact ⟨whole, rfl, (withReferences_heading hw).2.trans hrules⟩
    · rw [if_neg hname]
      exact ⟨property, hp, hrules⟩

/-- What plugins make of a version has the heading that the version was added with. -/
theorem Job.Makes.heading (h : job.Makes version) : SameHeading version (emptyVersion job) := by
  obtain ⟨hrefers⟩ := h
  refine (versionWithChoices_heading ..).trans (hrefers.heading.trans ?_)
  exact (withEntry_heading ..).trans (withParameters_heading ..)

/-- Whether something else is listed under the name of a parameter: a reference, or the entry. -/
def Job.Displaces (job : Job) (name : String) : Prop :=
  name ∈ referenceNames job.mapping.parameters.references ∨ name = entryPart ∧ job.entryShape?.isSome = true

theorem parameterProperty_immutable (parameter : OpenApi.Parameter) (converted : Crd.Schema) :
    Crd.Rule.immutable parameter.name ∈ (parameterProperty parameter converted).rules :=
  mem_addRule.mpr (.inr rfl)

/-- A parameter that nothing displaces is listed as it was converted last. -/
theorem Job.Makes.parameter (h : job.Makes version) {before after : List OpenApi.Parameter}
    {parameter : OpenApi.Parameter} {converted : Crd.Schema}
    (hsplit : job.parameters = before ++ parameter :: after)
    (hs : job.parameterShape? parameter = some converted)
    (hlast : ∀ other ∈ after, other.name = parameter.name → job.parameterShape? other = none)
    (hd : ¬ job.Displaces parameter.name) :
    ∃ listed, version.property? parameter.name = some listed ∧
      Crd.Rule.immutable parameter.name ∈ listed.rules ∧
      ((parameter.name = entryPart → job.mapping.entry.references = []) →
        listed = parameterProperty parameter converted) := by
  obtain @⟨description, referenced, hrefers⟩ := h
  rw [Job.Displaces, not_or] at hd
  have hentry :
    (job.withEntry description (job.parameters.foldl job.withParameter (emptyVersion job))).property?
      parameter.name = some (parameterProperty parameter converted) := by
    rw [withEntry_property?, hsplit, withParameters_property?_last hs hlast]
    split
    · next hn =>
      have hnone : job.entryShape? = none := by simpa [hn] using hd.2
      rw [hnone]
      rfl
    · rfl
  obtain ⟨referred, hr, hrules, hsame⟩ := hrefers.listed hd.1 hentry
  obtain ⟨listed, hl, hchooses, hsame'⟩ := versionWithChoices_listed job.mapping hr
  refine ⟨listed, hl, hchooses.kept _ ?_, fun hn => (hsame' hn).trans (hsame hn)⟩
  rw [hrules]
  exact parameterProperty_immutable parameter converted

/-- What displaces a parameter says nothing of whether it may be changed. -/
theorem Job.Makes.displaced (h : job.Makes version) (hd : job.Displaces name) {listed : Crd.Schema}
    (hl : version.property? name = some listed) (parameter : String) :
    Crd.Rule.immutable parameter ∉ listed.rules := by
  obtain @⟨description, referenced, hrefers⟩ := h
  have hreferenced : ∃ old, referenced.property? name = some old ∧ old.rules = [] := by
    by_cases hn : name ∈ referenceNames job.mapping.parameters.references
    · exact hrefers.replaced hn
    · obtain ⟨hname, hsome⟩ := hd.resolve_left hn
      obtain ⟨converted, hshape⟩ := Option.isSome_iff_exists.mp hsome
      obtain ⟨source, -, hs⟩ := Option.bind_eq_some_iff.mp hshape
      have hentry :
        (job.withEntry description (job.parameters.foldl job.withParameter (emptyVersion job))).property?
          name = some (described description converted) := by
        rw [withEntry_property?, if_pos hname, hshape]
        rfl
      obtain ⟨old, ho, hrules, -⟩ := hrefers.listed hn hentry
      exact ⟨old, ho, hrules.trans (Conversion.bare_of_shapeWithin hs).rules⟩
  obtain ⟨old, ho, hrules⟩ := hreferenced
  obtain ⟨found, hf, hchooses, -⟩ := versionWithChoices_listed job.mapping ho
  obtain rfl : found = listed := Option.some.inj (hf.symm.trans hl)
  intro hm
  rcases hchooses.only _ hm with hm | ⟨fields, he⟩
  · simp [hrules] at hm
  · exact immutable_ne_exactlyOneOf parameter fields he

/-- **A parameter with a conversion stays immutable exactly if nothing displaces it.** -/
theorem Job.Makes.immutable_iff (h : job.Makes version) {parameter : OpenApi.Parameter}
    (hm : parameter ∈ job.parameters) (hs : (job.parameterShape? parameter).isSome = true) :
    (∃ listed, version.property? parameter.name = some listed ∧
      Crd.Rule.immutable parameter.name ∈ listed.rules) ↔ ¬ job.Displaces parameter.name := by
  constructor
  · rintro ⟨listed, hl, hr⟩ hd
    exact h.displaced hd hl parameter.name hr
  · intro hd
    obtain ⟨before, last, after, hsplit, ⟨hn, hsome⟩, hlast⟩ := exists_last
      (P := fun other => other.name = parameter.name ∧ (job.parameterShape? other).isSome = true)
      ⟨parameter, hm, rfl, hs⟩
    obtain ⟨converted, hconverted⟩ := Option.isSome_iff_exists.mp hsome
    rw [← hn] at hd hlast ⊢
    obtain ⟨listed, hl, hr, -⟩ := h.parameter hsplit hconverted
      (fun other ho he => Option.not_isSome_iff_eq_none.mp fun hc => hlast other ho ⟨he, hc⟩) hd
    exact ⟨listed, hl, hr⟩

end

end CrdForge.Pipeline
