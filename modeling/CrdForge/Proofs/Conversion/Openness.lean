import CrdForge.Proofs.Conversion.Descent

/-! Which nodes of a converted schema keep fields that they do not list.

A node is made of a source, or it is a string that no source stands behind. A node that is made of a
source keeps unknown fields exactly if the source expressly allows them, or if nothing is said about what
the object may be (`Opens`). This holds of what plugins make of a node, of unions and of references to
secrets, so it holds of all nodes of a result, however they are nested and whatever plugins run
(`convert_openness`). -/
namespace CrdForge.Conversion

open OpenApi.Document (Reaches)
open Crd.Schema (Everywhere)

/-! ### Single nodes -/

/-- Whether properties that are not listed are expressly allowed by a
source, or nothing is said about an object. -/
def Open (source : OpenApi.Schema) (node : Crd.Schema) : Prop :=
  source.additional = some (.flag true) ∨
    node.type = some "object" ∧ node.properties = [] ∧ node.additional = none ∧ node.items = none

/-- A node that keeps unknown fields if it is open, and otherwise does not speak of them. -/
structure Opens (source : OpenApi.Schema) (node : Crd.Schema) : Prop where
  kept : node.preserveUnknown = some true ↔ Open source node
  absent : ¬ Open source node → node.preserveUnknown = none

section
variable {shape : Shape} {path : List String} {source : OpenApi.Schema} {schema node : Crd.Schema}

theorem allowsAdditional_iff : source.allowsAdditional = true ↔ source.additional = some (.flag true) := by
  rw [OpenApi.Schema.allowsAdditional]
  cases source.additional with
  | none => simp
  | some additional => cases additional <;> simp

theorem isOpen_iff : isOpen schema = true ↔
    schema.type = some "object" ∧ schema.properties = [] ∧ schema.additional = none ∧
      schema.items = none := by
  have hobject : schema.isObject = true ↔ schema.type = some "object" := by
    rw [Crd.Schema.isObject, Crd.Schema.typeName, beq_iff_eq]
    cases schema.type <;> simp
  simp only [isOpen, Bool.and_eq_true, hobject, Option.isNone_iff_eq_none, List.isEmpty_iff]
  tauto

/-- Unknown fields are kept where it is said so. -/
theorem Opens.of_preserves (keeps : Bool) (hp : node.preserveUnknown = if keeps then some true else none)
    (hk : keeps = true ↔ Open source node) : Opens source node := by
  cases keeps with
  | true => exact ⟨⟨fun _ => hk.mp rfl, fun _ => hp⟩, fun h => absurd (hk.mp rfl) h⟩
  | false =>
    have hnone : node.preserveUnknown = none := hp
    refine ⟨⟨fun h => ?_, fun h => ?_⟩, fun _ => hnone⟩
    · cases hnone.symm.trans h
    · cases hk.mpr h

theorem settle_opens (source : OpenApi.Schema) (h : schema.preserveUnknown = none) :
    Opens source (settle source schema) := by
  refine .of_preserves (isOpen (settle source schema) || source.allowsAdditional) ?_ ?_
  · rw [← h]
    rfl
  · rw [Bool.or_eq_true, isOpen_iff, allowsAdditional_iff, or_comm]
    rfl

/-- A union whose branches become properties says something, whatever was said before. -/
theorem unionShape_opens (h : Opens source schema) : Opens source (unionShape shape path source schema) := by
  cases ht : isTagged source schema with
  | false =>
    rw [unionShape_untagged ht]
    exact ⟨h.kept, h.absent⟩
  | true =>
    obtain ⟨properties, hne, hu⟩ := @unionShape_tagged shape path source schema ht
    rw [hu]
    refine .of_preserves source.allowsAdditional ?_ ?_
    · cases ha : source.allowsAdditional with
      | false => simp [bareUnion, ha]
      | true =>
        have hkept := h.kept.mpr (.inl (allowsAdditional_iff.mp ha))
        simpa [bareUnion, ha] using hkept
    · rw [allowsAdditional_iff, Open]
      exact (or_iff_left fun hopen => hne hopen.2.1).symm

theorem sourceShape_opens {setting : Setting} (h : sourceShape setting shape path source = some node) :
    Opens source node := by
  obtain ⟨renames, kept, -, hunknown, -, rfl⟩ := sourceShape_last h
  have hunion : Opens source (unionShape shape path source (settle source kept)) :=
    unionShape_opens (settle_opens source hunknown)
  exact ⟨hunion.kept, hunion.absent⟩

theorem Synthetic.closed (h : Synthetic node) : node.type = some "string" ∧ node.preserveUnknown = none := by
  obtain ⟨description, default, enumeration, rfl⟩ := h.string
  exact ⟨rfl, rfl⟩

/-- An object keeps unknown fields, or says something of those that it knows. -/
theorem Opens.speaks (h : Opens source node) (ho : node.type = some "object") :
    node.preserveUnknown = some true ∨ node.properties ≠ [] ∨ node.additional ≠ none ∨ node.items ≠ none := by
  by_contra hnot
  simp only [not_or, not_not] at hnot
  exact hnot.1 (h.kept.mpr (.inr ⟨ho, hnot.2⟩))

end

/-! ### All nodes -/

section
variable {setting : Setting} {depth : Nat} {schema : OpenApi.Schema} {node result : Crd.Schema}

/-- Whether a schema is converted to a node somewhere, listed or not. -/
def Becomes (setting : Setting) (schema : OpenApi.Schema) (node : Crd.Schema) : Prop :=
  ∃ depth place tree result, place.schema = some schema ∧
    (convertWithin setting depth place tree).1 = some result ∧
    (node = result ∨ node = { result with id := none })

/-- A node that is made of a schema that is reached, or is a string that no schema stands behind. -/
def Traced (setting : Setting) (schema : OpenApi.Schema) (node : Crd.Schema) : Prop :=
  Synthetic node ∨ ∃ other, setting.document.Reaches schema other ∧ Becomes setting other node

theorem becomes_of_shape {path : List String} (h : shapeWithin setting depth schema path = some result) :
    Becomes setting schema result ∧ Becomes setting schema { result with id := none } := by
  have hconvert : (convertWithin setting depth ⟨some schema, Extension.Tree.root, path⟩ .empty).1 =
      some result :=
    (convertWithin_fst setting depth _ _).trans h
  exact ⟨⟨depth, _, _, result, rfl, hconvert, .inl rfl⟩, ⟨depth, _, _, result, rfl, hconvert, .inr rfl⟩⟩

/-- Only a schema that leads to a source becomes something, which is as open as the source says. -/
theorem Becomes.opens (h : Becomes setting schema node) :
    ∃ source, setting.document.resolve schema = some source ∧ Opens source node := by
  obtain ⟨depth, place, tree, result, hp, hc, hn⟩ := h
  rw [convertWithin_fst, hp, Option.bind_some] at hc
  cases depth with
  | zero => cases hc
  | succ depth =>
    obtain ⟨source, hs, hc⟩ := Option.bind_eq_some_iff.mp hc
    have hopens := sourceShape_opens hc
    rcases hn with rfl | rfl
    · exact ⟨source, hs, hopens⟩
    · exact ⟨source, hs, hopens.kept, hopens.absent⟩

/-- Every node of a converted schema is traced. -/
theorem shapeWithin_traced {path : List String} (h : shapeWithin setting depth schema path = some result) :
    result.Everywhere (Traced setting schema) := by
  induction depth generalizing schema path result with
  | zero => cases h
  | succ depth ih =>
    obtain ⟨source, hs, hc⟩ := Option.bind_eq_some_iff.mp h
    refine .of_nested (.inr ⟨schema, .here schema, (becomes_of_shape h).1⟩) fun inner hi => ?_
    -- What is traced from a nested schema is traced from the schema.
    have hnested {nested : OpenApi.Schema} (hn : nested ∈ source.nested) {node : Crd.Schema}
        (ht : Traced setting nested node) : Traced setting schema node :=
      ht.imp_right fun ⟨other, hr, hb⟩ => ⟨other, .nested hs hn hr, hb⟩
    cases sourceShape_inherits hc inner hi with
    | synthetic hsynthetic =>
      obtain ⟨description, default, enumeration, rfl⟩ := hsynthetic.string
      exact .of_nested (.inl hsynthetic) fun _ hm => by cases hm
    | @converted nested _ _ hn hc => exact (ih hc).mono fun _ ht => hnested hn ht
    | @listed nested _ _ hn hc =>
      have hinner := (ih hc).mono fun _ ht => hnested hn ht
      exact hinner.change (.inr ⟨nested, .nested hs hn (.here nested), (becomes_of_shape hc).2⟩) rfl

/-- **Objects are open exactly where nothing is declared.** Every node of a result is made of a schema
that is reached from the one that is converted, or is a string. Whatever schema a node is made of, it
keeps unknown fields exactly if the schema expressly allows them or the node is an object of which
nothing is said, and otherwise it does not speak of them. So an object keeps unknown fields, or says
something of those that it knows. -/
theorem convert_openness {place : Place} {tree : Extension.Tree} (hp : place.schema = some schema)
    (h : (convert setting place depth tree).1 = some result) (hn : result.Nests node) :
    (Synthetic node ∧ node.type = some "string" ∧ node.preserveUnknown = none ∨
        ∃ other source, setting.document.Reaches schema other ∧ setting.document.resolve other = some source ∧
          Becomes setting other node) ∧
      (∀ other source, setting.document.resolve other = some source → Becomes setting other node →
        (node.preserveUnknown = some true ↔ source.additional = some (.flag true) ∨
            node.type = some "object" ∧ node.properties = [] ∧ node.additional = none ∧ node.items = none) ∧
          (node.preserveUnknown ≠ some true → node.preserveUnknown = none)) ∧
      (node.type = some "object" → node.preserveUnknown = some true ∨ node.properties ≠ [] ∨
        node.additional ≠ none ∨ node.items ≠ none) := by
  rw [convert, convertWithin_fst, hp, Option.bind_some] at h
  have htraced := shapeWithin_traced h node hn
  refine ⟨?_, fun other source hs hb => ?_, fun ho => ?_⟩
  · rcases htraced with hsynthetic | ⟨other, hr, hb⟩
    · exact .inl ⟨hsynthetic, hsynthetic.closed⟩
    · obtain ⟨source, hs, -⟩ := hb.opens
      exact .inr ⟨other, source, hr, hs, hb⟩
  · obtain ⟨source', hs', hopens⟩ := hb.opens
    obtain rfl := Option.some.inj (hs'.symm.trans hs)
    exact ⟨hopens.kept, fun hnot => hopens.absent (mt hopens.kept.mpr hnot)⟩
  · rcases htraced with hsynthetic | ⟨other, -, hb⟩
    · have hstring := Option.some.inj (hsynthetic.closed.1.symm.trans ho)
      exact absurd hstring (by decide)
    · obtain ⟨source, -, hopens⟩ := hb.opens
      exact hopens.speaks ho

end

/-- An object of which nothing is said. -/
def labels : OpenApi.Schema where
  type := some (.one "object")

/-- A device with labels of any kind. -/
def device : OpenApi.Schema where
  type := some (.one "object")
  properties := [("labels", labels)]

def openLabels : Crd.Schema where
  type := some "object"
  preserveUnknown := some true

def labelledDevice : Crd.Schema where
  type := some "object"
  properties := [("labels", openLabels)]

/-- A device keeps all labels, and nothing else than labels. -/
theorem labels_kept :
    (convert { document := {} } { schema := some device } 0 .empty).1 = some labelledDevice ∧
      labelledDevice.Nests openLabels ∧ Becomes { document := {} } labels openLabels ∧
      openLabels.preserveUnknown = some true ∧ labelledDevice.preserveUnknown = none := by
  have hdevice : (convert { document := {} } { schema := some device } 0 .empty).1 = some labelledDevice := by
    with_unfolding_all rfl
  have hlabels : (convertWithin { document := {} } 1 { schema := some labels } .empty).1 =
      some openLabels := by
    with_unfolding_all rfl
  have hnests : labelledDevice.Nests openLabels :=
    .deeper (Crd.Schema.mem_nested_property (List.mem_singleton.mpr rfl)) (.here openLabels)
  have hbecomes : Becomes { document := {} } labels openLabels :=
    ⟨1, _, _, openLabels, rfl, hlabels, .inl rfl⟩
  have hroot : Becomes { document := {} } device labelledDevice :=
    ⟨maxDepth, _, _, labelledDevice, rfl, hdevice, .inl rfl⟩
  obtain ⟨-, hlabelled, -⟩ := convert_openness rfl hdevice hnests
  obtain ⟨-, hlisted, -⟩ := convert_openness rfl hdevice (.here labelledDevice)
  refine ⟨hdevice, hnests, hbecomes,
    (hlabelled labels labels rfl hbecomes).1.mpr (.inr ⟨rfl, rfl, rfl, rfl⟩), ?_⟩
  refine (hlisted device device rfl hroot).2 fun hopen => ?_
  rcases (hlisted device device rfl hroot).1.mp hopen with hallowed | ⟨-, hempty, -⟩
  · cases hallowed
  · cases hempty

end CrdForge.Conversion
