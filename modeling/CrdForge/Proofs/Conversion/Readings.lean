import CrdForge.Proofs.Conversion.Validity

/-! Readings of schemas that choose and exclude.

What such a schema accepts is not larger if what it nests accepts more, so there is no largest reading as
there is for plain schemas. A reading is right for a schema if all that it leads to accepts what its own
keywords allow (`ReadBy`). There is one if schemas come to an end (`AllWithin.readBy`), and one if they
are plain (`PlainBelow.readBy`), which is the largest one then (`ReadBy.within_accepts`). -/
namespace CrdForge

/-- If the same alternatives hold in their places, then exactly one does in both. -/
theorem existsUnique_get {α β : Type} {xs : List α} {ys : List β} {p : α → Prop} {q : β → Prop}
    (h : xs.map p = ys.map q) (hu : ∃! index : Fin xs.length, p (xs.get index)) :
    ∃! index : Fin ys.length, q (ys.get index) := by
  have hlength : xs.length = ys.length := by simpa using congrArg List.length h
  have hget (index : Fin xs.length) : p (xs.get index) = q (ys.get (index.cast hlength)) := by
    simpa using List.getElem_of_eq h (i := index) (by simp)
  obtain ⟨index, hi, honly⟩ := hu
  refine ⟨index.cast hlength, (hget index).mp hi, fun other ho => ?_⟩
  have hsame : other.cast hlength.symm = index := honly _ ((hget (other.cast hlength.symm)).mpr ho)
  rw [← hsame]
  rfl

namespace OpenApi

/-- What a schema says, given what nested schemas accept. -/
def Schema.reading (accepts : Schema → Json → Prop) (source : Schema) : Keywords :=
  { source.keywords accepts with
    oneOf := source.oneOf.map accepts
    not := source.not.map accepts }

/-- Readings that agree on what a schema nests make the same of it. -/
theorem Schema.reading_congr {accepts accepts' : Schema → Json → Prop} {source : Schema}
    (h : ∀ nested ∈ source.nested, accepts nested = accepts' nested) :
    source.reading accepts = source.reading accepts' := by
  have hitems : source.items.map accepts = source.items.map accepts' :=
    Option.map_congr fun items hi => h items (mem_nested_of_items hi)
  have hproperties : (source.keywords accepts).properties = (source.keywords accepts').properties :=
    List.map_congr_left fun property hp =>
      congrArg (property.1, ·) (h property.2 (mem_nested_of_property hp))
  have hadditional : source.additional.map (Additional.map accepts) =
      source.additional.map (Additional.map accepts') := by
    cases ha : source.additional with
    | none => rfl
    | some additional =>
      cases additional with
      | flag allowed => rfl
      | schema additional =>
        rw [Option.map_some, Option.map_some, Additional.map, Additional.map,
          h additional (mem_nested_of_additional (by rw [additionalSchema, ha]))]
  have hallOf : source.allOf.map accepts = source.allOf.map accepts' :=
    List.map_congr_left fun branch hb => h branch (allOf_subset_nested hb)
  have hanyOf : source.anyOf.map accepts = source.anyOf.map accepts' :=
    List.map_congr_left fun branch hb => h branch (anyOf_subset_nested hb)
  have honeOf : source.oneOf.map accepts = source.oneOf.map accepts' :=
    List.map_congr_left fun branch hb => h branch (oneOf_subset_nested hb)
  have hnot : source.not.map accepts = source.not.map accepts' :=
    Option.map_congr fun excluded he => h excluded (mem_nested_of_not he)
  rw [reading, reading, Keywords.mk.injEq]
  exact ⟨rfl, rfl, rfl, rfl, rfl, hitems, hproperties, hadditional, hallOf, hanyOf, honeOf, hnot⟩

namespace Document
variable {document : Document} {formats : String → Json → Prop} {accepts : Schema → Json → Prop}
  {schema source : Schema}

theorem Plain.reading (h : Plain source) (accepts : Schema → Json → Prop) :
    source.reading accepts = source.keywords accepts := by
  rw [Schema.reading, h.oneOf, h.not]
  rfl

/-- Whether a reading is right wherever a schema leads: a schema accepts there what its own keywords allow. -/
def ReadBy (document : Document) (formats : String → Json → Prop) (accepts : Schema → Json → Prop)
    (schema : Schema) : Prop :=
  ∀ other, document.Reaches schema other → ∀ value, accepts other value ↔
    ∃ source, document.resolve other = some source ∧ (source.reading accepts).Allow formats value

theorem Reaches.trans {first second third : Schema} (h : document.Reaches first second)
    (h' : document.Reaches second third) : document.Reaches first third := by
  induction h with
  | here => exact h'
  | nested hr hn _ ih => exact .nested hr hn (ih h')

namespace ReadBy

theorem nested {nested : Schema} (h : document.ReadBy formats accepts schema)
    (hr : document.resolve schema = some source) (hn : nested ∈ source.nested) :
    document.ReadBy formats accepts nested :=
  fun other ho => h other (.nested hr hn ho)

theorem accepts_eq (h : document.ReadBy formats accepts schema) (hr : document.resolve schema = some source) :
    accepts schema = (source.reading accepts).Allow formats := by
  funext value
  rw [h schema (.here schema) value, hr]
  simp

/-- A choice accepts what exactly one of its branches accepts. -/
theorem existsUnique_branch (h : document.ReadBy formats accepts schema)
    (hr : document.resolve schema = some source) (ho : source.oneOf ≠ []) {value : Json}
    (ha : accepts schema value) :
    ∃! index : Fin source.oneOf.length, accepts (source.oneOf.get index) value := by
  rw [h.accepts_eq hr] at ha
  have hne : (source.reading accepts).oneOf ≠ [] := fun hn => ho (List.map_eq_nil_iff.mp hn)
  have hsame : (source.oneOf.map accepts).map (fun allowed => allowed value) =
      source.oneOf.map fun branch => accepts branch value := List.map_map
  exact existsUnique_get (p := fun allowed : Json → Prop => allowed value)
    (q := fun branch => accepts branch value)
    hsame (ha.oneOf.resolve_left hne)

/-- What is plain wherever it leads accepts at most what it accepts in the largest reading. -/
theorem within_accepts (h : document.ReadBy formats accepts schema) (hb : document.PlainBelow schema) :
    Keywords.Within (accepts schema) (document.Accepts formats schema) := by
  -- what is reached is accepted as far as its keywords say so, which makes it part of the largest such
  -- predicate
  let reached : Schema → Json → Prop := fun other value => document.Reaches schema other ∧ accepts other value
  have hpost : reached ≤ document.acceptance formats reached := by
    rintro other value ⟨ho, ha⟩
    obtain ⟨source, hr, ha⟩ := (h other ho value).mp ha
    obtain ⟨source', hr', hplain⟩ := hb other ho
    obtain rfl := Option.some.inj (hr.symm.trans hr')
    refine ⟨source, hr, ?_⟩
    have hsame : source.reading accepts = source.reading reached := Schema.reading_congr fun nested hn => by
      funext value
      exact propext ⟨fun ha => ⟨ho.trans (.nested hr hn (.here nested)), ha⟩, And.right⟩
    rwa [hsame, hplain.reading] at ha
  exact fun value ha => (document.acceptance formats).le_gfp hpost schema value ⟨.here schema, ha⟩

end ReadBy

/-- The largest reading is right wherever all schemas are plain. -/
theorem PlainBelow.readBy (h : document.PlainBelow schema) (formats : String → Json → Prop) :
    document.ReadBy formats (document.Accepts formats) schema := by
  intro other ho value
  obtain ⟨source, hr, hplain⟩ := h other ho
  rw [accepts_iff, hr]
  simp [hplain.reading]

theorem resolve_self (h : schema.reference = none) : document.resolve schema = some schema := by
  simp only [resolve, maxReferences, resolveWithin, h]

/-- Whether all schemas that a schema comes to nest lead to one with a
property, and no more than that many nest in each other. -/
def AllWithin (document : Document) (P : Schema → Prop) : Nat → Schema → Prop
  | 0, _ => False
  | depth + 1, schema => ∃ source, document.resolve schema = some source ∧ P source ∧
    ∀ nested ∈ source.nested, document.AllWithin P depth nested

/-- What a schema accepts if no more than that many schemas nest in each other. -/
def acceptsWithin (document : Document) (formats : String → Json → Prop) : Nat → Schema → Json → Prop
  | 0, _, _ => False
  | depth + 1, schema, value => ∃ source, document.resolve schema = some source ∧
    (source.reading (document.acceptsWithin formats depth)).Allow formats value

namespace AllWithin
variable {P : Schema → Prop} {depth : Nat}

theorem nested {nested : Schema} (h : document.AllWithin P (depth + 1) schema)
    (hr : document.resolve schema = some source) (hn : nested ∈ source.nested) :
    document.AllWithin P depth nested := by
  obtain ⟨source', hr', -, hnested⟩ := h
  obtain rfl := Option.some.inj (hr.symm.trans hr')
  exact hnested nested hn

theorem succ (h : document.AllWithin P depth schema) : document.AllWithin P (depth + 1) schema := by
  induction depth generalizing schema with
  | zero => cases h
  | succ depth ih =>
    obtain ⟨source, hr, hp, hnested⟩ := h
    exact ⟨source, hr, hp, fun nested hn => ih (hnested nested hn)⟩

theorem reaches {other : Schema} (h : document.AllWithin P depth schema)
    (ho : document.Reaches schema other) :
    document.AllWithin P depth other := by
  induction ho with
  | here => exact h
  | nested hr hn _ ih =>
    refine ih ?_
    cases depth with
    | zero => cases h
    | succ depth => exact (h.nested hr hn).succ

theorem plainBelow (h : document.AllWithin Plain depth schema) : document.PlainBelow schema := by
  intro other ho
  have hother := h.reaches ho
  cases depth with
  | zero => cases hother
  | succ depth =>
    obtain ⟨source, hr, hplain, -⟩ := hother
    exact ⟨source, hr, hplain⟩

theorem acceptsWithin_succ (h : document.AllWithin P depth schema) :
    document.acceptsWithin formats (depth + 1) schema = document.acceptsWithin formats depth schema := by
  induction depth generalizing schema with
  | zero => cases h
  | succ depth ih =>
    funext value
    refine propext (exists_congr fun source => and_congr_right fun hr => ?_)
    rw [Schema.reading_congr fun nested hn => ih (h.nested hr hn)]

/-- There is a reading of schemas that come to an end. -/
theorem readBy (h : document.AllWithin P depth schema) (formats : String → Json → Prop) :
    document.ReadBy formats (document.acceptsWithin formats depth) schema := by
  intro other ho value
  rw [← (h.reaches ho).acceptsWithin_succ]
  exact Iff.rfl

end AllWithin

end Document

end OpenApi

end CrdForge
