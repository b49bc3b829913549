import CrdForge.Proofs.Crd.Nesting

/-! Which formats an inspection looks at.

The formats of inspected nodes and of their branches are looked at, and all of those that are not known
are reported (`unknownFormat_mem_iff`). Of a branch only the properties are gone into: what it nests as
items, as a schema of other properties or as branches of its own is passed over, and so is all that
stands below (`reaches_iff`). So nothing escapes an inspection but formats that stand there
(`formats_covered_iff`). -/
namespace CrdForge.Crd

namespace Schema

variable {schema branch place inner node : Schema}

/-! ### Nodes -/

/-- The nodes of a schema, but for what it excludes. -/
inductive Reaches : Schema → Schema → Prop
  | here (schema : Schema) : Reaches schema schema
  | property {schema property node : Schema} {name : String} :
    (name, property) ∈ schema.properties → Reaches property node → Reaches schema node
  | items {schema items node : Schema} : schema.items = some items → Reaches items node → Reaches schema node
  | additional {schema additional node : Schema} :
    schema.additional = some (.schema additional) → Reaches additional node → Reaches schema node
  | branch {schema branch node : Schema} : branch ∈ schema.composed → Reaches branch node →
    Reaches schema node

theorem Reaches.trans (h : schema.Reaches place) (h' : place.Reaches node) : schema.Reaches node := by
  induction h with
  | here => exact h'
  | property hm _ ih => exact .property hm (ih h')
  | items hi _ ih => exact .items hi (ih h')
  | additional ha _ ih => exact .additional ha (ih h')
  | branch hb _ ih => exact .branch hb (ih h')

theorem Inspected.reaches (h : schema.Inspected node) : schema.Reaches node := by
  induction h with
  | here schema => exact .here schema
  | property hm _ ih => exact .property hm ih
  | items hi _ ih => exact .items hi ih
  | additional ha _ ih => exact .additional ha ih
  | branch hb hm _ ih => exact .branch hb (.property hm ih)

/-- Whether the format of a node is looked at. -/
def LooksAt (schema node : Schema) : Prop :=
  ∃ place, schema.Inspected place ∧ (node = place ∨ node ∈ place.composed)

/-- What a branch nests other than as a property. -/
inductive PassesOver : Schema → Schema → Prop
  | items {branch inner : Schema} : branch.items = some inner → PassesOver branch inner
  | additional {branch inner : Schema} : branch.additional = some (.schema inner) → PassesOver branch inner
  | branch {branch inner : Schema} : inner ∈ branch.composed → PassesOver branch inner

/-- Whether a node stands where a branch of an inspected node is not gone into. -/
def Escapes (schema node : Schema) : Prop :=
  ∃ place branch inner, schema.Inspected place ∧ branch ∈ place.composed ∧ branch.PassesOver inner ∧
    inner.Reaches node

theorem PassesOver.reaches (h : branch.PassesOver inner) : branch.Reaches inner := by
  cases h with
  | items hi => exact .items hi (.here inner)
  | additional ha => exact .additional ha (.here inner)
  | branch hb => exact .branch hb (.here inner)

/-- An inspected node of a schema is the schema, or is inspected from a
property of it, or stands below something else that it nests. -/
theorem Inspected.cases_below (h : schema.Inspected place) : place = schema ∨
    (∃ name property, (name, property) ∈ schema.properties ∧ property.Inspected place) ∨
      ∃ inner, schema.PassesOver inner ∧ inner.Reaches place := by
  cases h with
  | here => exact .inl rfl
  | property hm hp => exact .inr (.inl ⟨_, _, hm, hp⟩)
  | items hi hp => exact .inr (.inr ⟨_, .items hi, hp.reaches⟩)
  | additional ha hp => exact .inr (.inr ⟨_, .additional ha, hp.reaches⟩)
  | branch hb hm hp => exact .inr (.inr ⟨_, .branch hb, .property hm hp.reaches⟩)

theorem LooksAt.reaches (h : schema.LooksAt node) : schema.Reaches node := by
  obtain ⟨place, hp, rfl | hn⟩ := h
  · exact hp.reaches
  · exact hp.reaches.trans (.branch hn (.here node))

theorem Escapes.reaches (h : schema.Escapes node) : schema.Reaches node := by
  obtain ⟨place, branch, inner, hp, hb, hi, hn⟩ := h
  exact hp.reaches.trans (.branch hb (hi.reaches.trans hn))

/-- What is looked at from a node on that is inspected, or escapes from
there on, does so from the schema on. -/
theorem below_of_inspected (hi : ∀ place, inner.Inspected place → schema.Inspected place)
    (h : inner.LooksAt node ∨ inner.Escapes node) : schema.LooksAt node ∨ schema.Escapes node := by
  rcases h with ⟨place, hp, hn⟩ | ⟨place, branch, passed, hp, h⟩
  · exact .inl ⟨place, hi place hp, hn⟩
  · exact .inr ⟨place, branch, passed, hi place hp, h⟩

/-- The same from a branch on: only its properties are gone into. -/
theorem below_of_branch (hb : branch ∈ schema.composed) (h : branch.LooksAt node ∨ branch.Escapes node) :
    schema.LooksAt node ∨ schema.Escapes node := by
  have hpassed {inner : Schema} (ho : branch.PassesOver inner) (hr : inner.Reaches node) :
      schema.Escapes node :=
    ⟨schema, branch, inner, .here schema, hb, ho, hr⟩
  rcases h with ⟨place, hp, hn⟩ | ⟨place, other, inner, hp, hc, ho, hr⟩
  · rcases hp.cases_below with rfl | ⟨name, property, hm, hp⟩ | ⟨inner, ho, hr⟩
    · rcases hn with rfl | hn
      · exact .inl ⟨schema, .here schema, .inr hb⟩
      · exact .inr (hpassed (.branch hn) (.here node))
    · exact .inl ⟨place, .branch hb hm hp, hn⟩
    · refine .inr (hpassed ho (hr.trans ?_))
      rcases hn with rfl | hn
      · exact .here node
      · exact .branch hn (.here node)
  · rcases hp.cases_below with rfl | ⟨name, property, hm, hp⟩ | ⟨passed, hpassed', hr'⟩
    · exact .inr (hpassed (.branch hc) (ho.reaches.trans hr))
    · exact .inr ⟨place, other, inner, .branch hb hm hp, hc, ho, hr⟩
    · exact .inr (hpassed hpassed' (hr'.trans (.branch hc (ho.reaches.trans hr))))

/-- **Every node of a schema is looked at or escapes.** -/
theorem reaches_iff : schema.Reaches node ↔ schema.LooksAt node ∨ schema.Escapes node := by
  constructor
  · intro h
    induction h with
    | here schema => exact .inl ⟨schema, .here schema, .inl rfl⟩
    | property hm _ ih => exact below_of_inspected (fun _ hp => .property hm hp) ih
    | items hi _ ih => exact below_of_inspected (fun _ hp => .items hi hp) ih
    | additional ha _ ih => exact below_of_inspected (fun _ hp => .additional ha hp) ih
    | branch hb _ ih => exact below_of_branch hb ih
  · intro h
    exact h.elim LooksAt.reaches Escapes.reaches

/-! ### Findings -/

theorem unknownFormat_mem_expect {fine : Bool} {finding : Finding} {path format : String} :
    .unknownFormat path format ∈ expect fine finding ↔
      fine = false ∧ finding = .unknownFormat path format := by
  cases fine <;> simp [expect, eq_comm]

/-- Of a node itself the format that is not known is reported, and nothing else is reported as one. -/
theorem unknownFormat_mem_formatFindings (node : Schema) (place : String) :
    (∃ path format, .unknownFormat path format ∈ formatFindings node place) ↔ ¬ node.KnownFormat := by
  rw [formatFindings, KnownFormat]
  cases node.format with
  | none => simp
  | some found => simp [unknownFormat_mem_expect]

theorem unknownFormat_mem_nodeFindings {path format place : String} :
    .unknownFormat path format ∈ nodeFindings node place ↔
      .unknownFormat path format ∈ formatFindings node place := by
  simp [nodeFindings, unknownFormat_mem_expect]

/-- **The formats that are reported are those that are looked at and not known.** -/
theorem unknownFormat_mem_iff (schema : Schema) (place : String) :
    (∃ path format, .unknownFormat path format ∈ schemaFindings place schema) ↔
      ∃ node, schema.LooksAt node ∧ ¬ node.KnownFormat := by
  constructor
  · intro h
    obtain ⟨path, format, h⟩ := h
    obtain ⟨node, hn, spot, h | ⟨branch, hb, h⟩⟩ := raises_of_mem schema place h
    · exact ⟨node, ⟨node, hn, .inl rfl⟩,
        (unknownFormat_mem_formatFindings node spot).mp ⟨_, _, unknownFormat_mem_nodeFindings.mp h⟩⟩
    · exact ⟨branch, ⟨node, hn, .inr hb⟩, (unknownFormat_mem_formatFindings branch spot).mp ⟨_, _, h⟩⟩
  · intro h
    obtain ⟨node, ⟨inspected, hn, hl⟩, hk⟩ := h
    obtain ⟨inner, hi⟩ := hn.findings place
    rcases hl with rfl | hb
    · obtain ⟨path, format, h⟩ := (unknownFormat_mem_formatFindings node inner).mpr hk
      refine ⟨path, format, hi ?_⟩
      rw [schemaFindings_eq]
      simp [unknownFormat_mem_nodeFindings.mpr h]
    · obtain ⟨below, hbelow⟩ := branchFindings_subset_schema inner hb
      obtain ⟨path, format, h⟩ := (unknownFormat_mem_formatFindings node below).mpr hk
      refine ⟨path, format, hi (hbelow ?_)⟩
      rw [branchFindings_eq]
      exact List.mem_append_left _ h

end Schema

namespace Definition

variable {definition : Definition} {root : Schema}

/-- Whether a format is reported as one that is not known. -/
def ReportsFormat (definition : Definition) : Prop :=
  ∃ path format, .unknownFormat path format ∈ definition.findings

theorem reportsFormat_iff (hs : definition.schema = some root) :
    definition.ReportsFormat ↔ ∃ node, root.LooksAt node ∧ ¬ node.KnownFormat := by
  rw [← Schema.unknownFormat_mem_iff root schemaPath, ReportsFormat]
  have hnames (path format : String) : .unknownFormat path format ∉ definition.nameFindings := by
    rw [nameFindings]
    split <;> simp [Schema.unknownFormat_mem_expect]
  have hversions (path format : String) : .unknownFormat path format ∉ definition.versionFindings := by
    rw [versionFindings]
    split <;> simp [Schema.unknownFormat_mem_expect]
  have hcolumns (path format : String) : .unknownFormat path format ∉ definition.columnFindings := by
    simp [columnFindings, Schema.unknownFormat_mem_expect]
  simp [findings, rootFindings, hs, hnames, hversions, hcolumns, Schema.unknownFormat_mem_expect]

/-- **If no format of a definition is reported, then all of its formats are known exactly if those are
that escape**, and one is reported exactly if it is looked at and not known. -/
theorem formats_covered_iff (hs : definition.schema = some root) :
    (definition.ReportsFormat ↔ ∃ node, root.LooksAt node ∧ ¬ node.KnownFormat) ∧
      (∀ node, root.Reaches node ↔ root.LooksAt node ∨ root.Escapes node) ∧
      (¬ definition.ReportsFormat →
        ((∀ node, root.Reaches node → node.KnownFormat) ↔ ∀ node, root.Escapes node → node.KnownFormat)) := by
  refine ⟨reportsFormat_iff hs, fun node => Schema.reaches_iff,
    fun hn => ⟨fun h node he => h node he.reaches, ?_⟩⟩
  intro h node hr
  rcases Schema.reaches_iff.mp hr with hl | he
  · exact Classical.byContradiction fun hk => hn ((reportsFormat_iff hs).mpr ⟨node, hl, hk⟩)
  · exact h node he

/-- The format of an address, which no cluster knows. -/
def address : Schema where
  type := some "string"
  format := some "email"

/-- A schema with addresses as the items of a branch. -/
def addressList : Schema where
  type := some "object"
  anyOf := [{ items := some address }]

def mailingList : Definition where
  name := "examples.test.com"
  group := "test.com"
  names := { plural := "examples", singular := "example", kind := "Example", listKind := "ExampleList" }
  versions := [{ name := "v1", served := true, storage := true }]
  schema := some addressList

/-- Nothing is found in the definition, though no cluster knows the format. -/
theorem mailingList_format_escapes : mailingList.findings = [] ∧ mailingList.schema = some addressList ∧
    addressList.Escapes address ∧ addressList.Reaches address ∧
      ¬ ∀ node, addressList.Reaches node → node.KnownFormat := by
  have hfindings : mailingList.findings = [] := by decide +kernel
  have hunreported : ¬ mailingList.ReportsFormat := by
    rw [ReportsFormat, hfindings]
    simp
  have hescapes : addressList.Escapes address :=
    ⟨addressList, { items := some address }, address, .here _, List.mem_singleton.mpr rfl,
      .items rfl, .here _⟩
  have hunknown : ¬ address.KnownFormat := fun h => absurd (h "email" rfl) (by decide)
  have hschema : mailingList.schema = some addressList := rfl
  obtain ⟨-, hreaches, hcovered⟩ := formats_covered_iff hschema
  exact ⟨hfindings, hschema, hescapes, (hreaches address).mpr (.inr hescapes),
    fun h => hunknown ((hcovered hunreported).mp h address hescapes)⟩

end Definition

end CrdForge.Crd
