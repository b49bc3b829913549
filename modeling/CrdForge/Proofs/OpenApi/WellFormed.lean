import CrdForge.Pipeline.Version
import CrdForge.Proofs.Keyed
import CrdForge.Proofs.Run

/-! Documents that say what they must of every schema in them.

`Holds` reaches every schema of a document: those that have a name, those of parameters and request
bodies, and what nests in them. Where a version takes its schemas from is held by its document. -/
namespace CrdForge.OpenApi

open Run

/-! ### Schemas of a document -/

/-- The operations of a path. -/
def PathItem.operations (item : PathItem) : List Operation :=
  item.get.toList ++ item.post.toList ++ item.put.toList ++ item.delete.toList ++ item.patch.toList

namespace Document

inductive HoldsParameter (document : Document) : Parameter → Prop
  | path {name : String} {item : PathItem} {parameter : Parameter} :
    (name, item) ∈ document.paths → parameter ∈ item.parameters → HoldsParameter document parameter
  | operation {name : String} {item : PathItem} {operation : Operation} {parameter : Parameter} :
    (name, item) ∈ document.paths → operation ∈ item.operations → parameter ∈ operation.parameters →
      HoldsParameter document parameter
  | component {name : String} {parameter : Parameter} :
    (name, parameter) ∈ document.components.parameters → HoldsParameter document parameter

inductive HoldsBody (document : Document) : RequestBody → Prop
  | operation {name : String} {item : PathItem} {operation : Operation} {body : RequestBody} :
    (name, item) ∈ document.paths → operation ∈ item.operations → operation.requestBody = some body →
      HoldsBody document body
  | component {name : String} {body : RequestBody} :
    (name, body) ∈ document.components.requestBodies → HoldsBody document body

/-- A schema that stands somewhere in a document. -/
inductive Holds (document : Document) : Schema → Prop
  | component {name : String} {schema : Schema} :
    (name, schema) ∈ document.components.schemas → Holds document schema
  | parameter {parameter : Parameter} {schema : Schema} :
    document.HoldsParameter parameter → parameter.schema = some schema → Holds document schema
  | body {body : RequestBody} {mimeType : String} {schema : Schema} :
    document.HoldsBody body → (mimeType, some schema) ∈ body.content → Holds document schema
  | property {schema property : Schema} {name : String} :
    Holds document schema → (name, property) ∈ schema.properties → Holds document property
  | items {schema items : Schema} : Holds document schema → schema.items = some items → Holds document items
  | additional {schema additional : Schema} :
    Holds document schema → schema.additionalSchema = some additional → Holds document additional
  | branch {schema branch : Schema} :
    Holds document schema → branch ∈ schema.allOf ++ schema.oneOf ++ schema.anyOf ++ schema.not.toList →
      Holds document branch

/-- What a document must say of a schema. -/
structure Describes (document : Document) (schema : Schema) : Prop where
  /-- References lead to a schema. -/
  resolves : (document.resolve schema).isSome = true
  /-- Arrays say what their items are. -/
  items : schema.typeName = some "array" → schema.items.isSome = true
  /-- Properties are listed, or those that are not have a schema, but not both. -/
  apart : schema.properties = [] ∨ schema.additionalSchema = none

/-- Whether a document says what it must of all its schemas. -/
def WellFormed (document : Document) : Prop := ∀ schema, document.Holds schema → document.Describes schema

variable {document : Document}

/-! ### References -/

theorem holds_of_resolveWithin {steps : Nat} {schema source : Schema} (h : document.Holds schema)
    (hr : document.resolveWithin steps schema = some source) : document.Holds source := by
  induction steps generalizing schema with
  | zero => cases hr
  | succ steps ih =>
    rw [resolveWithin] at hr
    split at hr
    · cases hr
      exact h
    · obtain ⟨target, ht, hr⟩ := Option.bind_eq_some_iff.mp hr
      obtain ⟨name, _, hl⟩ := Option.bind_eq_some_iff.mp ht
      exact ih (.component (Keyed.mem_of_lookup hl)) hr

theorem holds_of_resolve {schema source : Schema} (h : document.Holds schema)
    (hr : document.resolve schema = some source) : document.Holds source := holds_of_resolveWithin h hr

theorem holds_of_resolveParameter {parameter found : Parameter} (h : document.HoldsParameter parameter)
    (hr : document.resolveParameter parameter = some found) : document.HoldsParameter found := by
  rw [resolveParameter] at hr
  split at hr
  · cases hr
    exact h
  · obtain ⟨name, _, hl⟩ := Option.bind_eq_some_iff.mp hr
    exact .component (Keyed.mem_of_lookup hl)

theorem holds_of_resolveRequestBody {body found : RequestBody} (h : document.HoldsBody body)
    (hr : document.resolveRequestBody body = some found) : document.HoldsBody found := by
  rw [resolveRequestBody] at hr
  split at hr
  · cases hr
    exact h
  · obtain ⟨name, _, hl⟩ := Option.bind_eq_some_iff.mp hr
    exact .component (Keyed.mem_of_lookup hl)

theorem operation_mem {item : PathItem} {verb : String} {operation : Operation}
    (h : item.operation verb = some operation) : operation ∈ item.operations := by
  rw [PathItem.operation] at h
  simp only [PathItem.operations, List.mem_append, Option.mem_toList]
  split at h
  · exact .inl (.inl (.inl (.inl h)))
  · exact .inl (.inl (.inl (.inr h)))
  · exact .inl (.inl (.inr h))
  · exact .inl (.inr h)
  · exact .inr h
  · cases h

end Document

end CrdForge.OpenApi

namespace CrdForge.Pipeline

open OpenApi (Document)
open Run

variable {document : Document}

/-! ### Sources of a version -/

theorem holds_of_endpointSchema {endpoint : Config.Endpoint} {schema : OpenApi.Schema}
    (h : endpointSchema document endpoint = .ok schema) : document.Holds schema := by
  obtain ⟨operation, ho, h⟩ := except_bind_ok h
  rw [operationOf] at ho
  split at ho
  · cases ho
  · next item hi =>
    split at ho
    · cases ho
    · next found hv =>
      cases ho
      dsimp only at h
      split at h
      · next found hf =>
        cases h
        obtain ⟨body, hb, hm⟩ := Option.bind_eq_some_iff.mp hf
        obtain ⟨asked, ha, hr⟩ := Option.bind_eq_some_iff.mp hb
        have hbody := Document.holds_of_resolveRequestBody
          (.operation (Keyed.mem_of_lookup hi) (Document.operation_mem hv) ha) hr
        rw [mediaSchema?] at hm
        split at hm
        · obtain ⟨⟨mimeType, content⟩, hc, hs⟩ := Option.bind_eq_some_iff.mp hm
          cases hs
          exact .body hbody (List.mem_of_head? hc)
        · obtain ⟨content, hc, hs⟩ := Option.bind_eq_some_iff.mp hm
          cases hs
          exact .body hbody (Keyed.mem_of_lookup hc)
      · cases h

/-- The source of a part is held by the document. -/
theorem holds_of_sourceSchema {selection : Config.Selection} {part : String} {schema : OpenApi.Schema}
    (h : sourceSchema document selection part = .ok (some schema)) : document.Holds schema := by
  rw [sourceSchema] at h
  split at h
  · next name _ =>
    split at h
    · next found hs =>
      cases h
      exact .component (Keyed.mem_of_lookup hs)
    · cases h
  · split at h
    · cases he : endpointSchema document selection.endpoint with
      | error failure =>
        rw [he] at h
        cases h
      | ok found =>
        rw [he] at h
        cases h
        exact holds_of_endpointSchema he
    · cases h

/-- The parameters of an endpoint are held by the document. -/
theorem holds_of_endpointParameters {endpoint : Config.Endpoint} {parameters : List OpenApi.Parameter}
    (h : endpointParameters document endpoint = .ok parameters) {parameter : OpenApi.Parameter}
    (hm : parameter ∈ parameters.filterMap document.resolveParameter) :
    document.HoldsParameter parameter := by
  obtain ⟨given, hg, hr⟩ := List.mem_filterMap.mp hm
  refine Document.holds_of_resolveParameter ?_ hr
  rw [endpointParameters] at h
  split at h
  · cases h
  · next item hi =>
    split at h
    · cases h
    · split at h
      · cases h
      · next operation ho =>
        cases h
        rcases List.mem_append.mp hg with hg | hg
        · exact .path (Keyed.mem_of_lookup hi) hg
        · exact .operation (Keyed.mem_of_lookup hi) (Document.operation_mem ho) hg

end CrdForge.Pipeline
