import CrdForge.Proofs.Conversion.Descent

/-! That every node of a converted schema is settled.

What a node nests was converted before, or is a string (`Inherits`). The last steps of a conversion then
give the node its type, leave out a format that is not known, and require in order what is listed. -/
namespace CrdForge.Conversion

open Crd.Schema (Everywhere Settled)

/-- A node of which everything nested is settled, before it is given what every node has. -/
structure Furnished (schema : Crd.Schema) : Prop where
  nested : ∀ inner ∈ schema.nested, inner.Everywhere Settled
  rules : schema.rules = []

/-- A node that lacks nothing but the order of what it requires. -/
structure Typed (schema : Crd.Schema) : Prop extends Furnished schema where
  type : schema.type.isSome = true
  format : schema.KnownFormat

section
variable {shape : Shape} {path : List String} {source : OpenApi.Schema} {schema : Crd.Schema}

/-- Whether all nodes of what schemas are converted to are settled. -/
def AllSettled (shape : Shape) : Prop :=
  ∀ schema path result, shape schema path = some result → result.Everywhere Settled

theorem Synthetic.settled (h : Synthetic schema) : schema.Everywhere Settled := by
  obtain ⟨description, default, enumeration, rfl⟩ := h.string
  have hstring := Crd.Schema.string_settled description
  exact hstring.change { hstring.self with } rfl

namespace AllSettled
variable (h : AllSettled shape)
include h

theorem descends (hd : Descends shape source schema) : schema.Everywhere Settled := by
  cases hd with
  | synthetic hs => exact hs.settled
  | converted _ hc => exact h _ _ _ hc
  | listed _ hc =>
    have hs := h _ _ _ hc
    exact hs.change { hs.self with } rfl

theorem furnished (hb : Bare schema) (hi : Inherits shape source schema) : Furnished schema where
  nested inner hm := h.descends (hi inner hm)
  rules := hb.rules

end AllSettled

/-! ### Last steps -/

theorem settle_typed (source : OpenApi.Schema) (h : Furnished schema) : Typed (settle source schema) where
  nested := h.nested
  rules := h.rules
  type := rfl
  format _ hf := settle_format source hf

theorem unionShape_typed (hall : AllSettled shape) (hi : Inherits shape source schema) (h : Typed schema) :
    Typed (unionShape shape path source schema) := by
  have hnested (inner : Crd.Schema) (hm : inner ∈ (unionShape shape path source schema).nested) :
      inner.Everywhere Settled := hall.descends (unionShape_inherits hi inner hm)
  cases ht : isTagged source schema with
  | true =>
    obtain ⟨properties, -, hu⟩ := @unionShape_tagged shape path source schema ht
    rw [hu] at hnested ⊢
    exact { h with nested := hnested, type := rfl }
  | false =>
    rw [unionShape_untagged ht] at hnested ⊢
    exact { h with nested := hnested }

theorem reconcileRequired_settled (renames : List (String × String)) (h : Typed schema) :
    (reconcileRequired renames schema).Everywhere Settled := by
  have hascends : (reconcileRequired renames schema).required.Pairwise (· < ·) := Keyed.distinct_ascends _
  refine .of_nested ⟨⟨h.type, h.format, reconcileRequired_listed renames schema, ?_, ?_⟩, hascends⟩ h.nested
  · exact List.nodup_iff_pairwise_ne.mpr (hascends.imp Std.ne_of_lt)
  · simp [reconcileRequired, h.rules]

end

/-- **Every node of a converted schema is settled**, whatever plugins run on it. -/
theorem shapeWithin_settled (setting : Setting) (depth : Nat) : AllSettled (shapeWithin setting depth) := by
  induction depth with
  | zero => exact fun _ _ _ h => nomatch h
  | succ depth ih =>
    intro schema path result h
    obtain ⟨source, -, hs⟩ := Option.bind_eq_some_iff.mp h
    obtain ⟨renames, kept, hbare, -, hinherits, rfl⟩ := sourceShape_last hs
    have htyped := settle_typed source (ih.furnished hbare hinherits)
    exact reconcileRequired_settled renames (unionShape_typed ih hinherits htyped)

end CrdForge.Conversion
