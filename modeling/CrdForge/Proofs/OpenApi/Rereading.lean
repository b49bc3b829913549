import CrdForge.Generation.Report
import CrdForge.Proofs.OpenApi.Contents
import CrdForge.Proofs.OpenApi.VendorKey

/-! Documents that are read, written and read again.

The second reading finds what was written, with two exceptions. It takes the key of change logs out,
which the first one has left where the key had a tag; and it takes null for nothing, which the first one
has put for a default or an example that is not finite. Documents without such are `Lasting`, and these
are the ones that are read again as they are (`reread_iff`). All documents are that were read from values
without tags and with finite floats. -/
namespace CrdForge.OpenApi

open Yaml (Value Misfit)

/-- What is read from the value that a document is written as. -/
def Document.reread (document : Document) : Except Misfit Document :=
  ofValue (withoutKey changelogKey (.ofJson document.toJson))

/-- Whether nothing that is said at a schema is lost: the key of change logs
is no name, and null is no value. -/
structure Schema.Lasting (schema : Schema) : Prop where
  properties : changelogKey ∉ Keyed.keys schema.properties
  default : ∀ value, schema.default = some value →
    value ≠ .null ∧ value.Within (· ≠ changelogKey) (·.isFinite = true)
  sample : ∀ value, schema.sample = some value →
    value ≠ .null ∧ value.Within (· ≠ changelogKey) (·.isFinite = true)
  enumeration : ∀ value ∈ schema.enumeration, value.Within (· ≠ changelogKey) (·.isFinite = true)

namespace Document
variable {document : Document}

/-- Whether nothing that a document says is lost. -/
structure Lasting (document : Document) : Prop where
  schema : ∀ schema, document.Holds schema → schema.Lasting
  content : ∀ body, document.HoldsBody body → changelogKey ∉ Keyed.keys body.content
  paths : changelogKey ∉ Keyed.keys document.paths
  schemas : changelogKey ∉ Keyed.keys document.components.schemas
  parameters : changelogKey ∉ Keyed.keys document.components.parameters
  requestBodies : changelogKey ∉ Keyed.keys document.components.requestBodies

/-- Whether all numbers at schemas are finite. Those in JSON always are. -/
def Finite (document : Document) : Prop :=
  ∀ schema, document.Holds schema → ∀ unit, schema.multipleOf = some unit → unit.isFinite = true

/-! ### Lasting documents -/

theorem not_mem_keys_iff {α : Type} {key : String} {entries : List (String × α)} :
    key ∉ Keyed.keys entries ↔ ∀ entry ∈ entries, entry.1 ≠ key := by
  simp only [Keyed.keys, List.mem_map, not_exists, not_and, ne_eq]

/-- What is read without the key and from finite floats is lasting. -/
theorem Made.lasting (h : document.Made (· ≠ changelogKey) (·.isFinite = true)) : document.Lasting where
  schema schema hs := by
    have hmade := (h.schema schema hs).self
    have hnull {value : Json} (hv : value = .null → ∃ x : Float, x.isFinite = true ∧ x.isFinite = false) :
        value ≠ .null := fun hn => by
      obtain ⟨x, hf, hi⟩ := hv hn
      exact Bool.false_ne_true (hi.symm.trans hf)
    exact {
      properties := not_mem_keys_iff.mpr hmade.properties.named
      default := fun value hd => ⟨hnull (hmade.default value hd).2, (hmade.default value hd).1.within⟩
      sample := fun value he => ⟨hnull (hmade.sample value he).2, (hmade.sample value he).1.within⟩
      enumeration := fun value hm => (hmade.enumeration value hm).within }
  content body hb := not_mem_keys_iff.mpr (h.content body hb).named
  paths := not_mem_keys_iff.mpr h.paths.named
  schemas := not_mem_keys_iff.mpr h.schemas.named
  parameters := not_mem_keys_iff.mpr h.parameters.named
  requestBodies := not_mem_keys_iff.mpr h.requestBodies.named

variable {names : String → Prop} {floats : Float → Prop}

/-- Whatever it was read from, a lasting document could be read without the key and from finite floats. -/
theorem Made.of_lasting (h : document.Made names floats) (hl : document.Lasting) :
    document.Made (· ≠ changelogKey) (·.isFinite = true) where
  schema schema hs := (h.schema schema hs).of_holds hs fun schema hs hmade =>
    have hlasting := hl.schema schema hs
    { properties := ⟨hmade.properties.nodup, not_mem_keys_iff.mp hlasting.properties⟩
      default := fun value hd => ⟨⟨(hmade.default value hd).1.sorted, (hlasting.default value hd).2⟩,
        fun hn => absurd hn (hlasting.default value hd).1⟩
      sample := fun value he => ⟨⟨(hmade.sample value he).1.sorted, (hlasting.sample value he).2⟩,
        fun hn => absurd hn (hlasting.sample value he).1⟩
      enumeration := fun value hm => ⟨(hmade.enumeration value hm).sorted, hlasting.enumeration value hm⟩ }
  content body hb := ⟨(h.content body hb).nodup, not_mem_keys_iff.mp (hl.content body hb)⟩
  paths := ⟨h.paths.nodup, not_mem_keys_iff.mp hl.paths⟩
  schemas := ⟨h.schemas.nodup, not_mem_keys_iff.mp hl.schemas⟩
  parameters := ⟨h.parameters.nodup, not_mem_keys_iff.mp hl.parameters⟩
  requestBodies := ⟨h.requestBodies.nodup, not_mem_keys_iff.mp hl.requestBodies⟩

/-! ### Reading again -/

theorem made_of_ofValue {value : Value} (hv : value.Within names floats) (h : ofValue value = .ok document) :
    document.Made names floats := by
  have hyields := gives_document value hv
  rwa [h] at hyields

theorem read_ok {source : String} (h : read source = .ok document) :
    ∃ value, readValue source = .ok value ∧ ofValue (withoutKey changelogKey value) = .ok document := by
  obtain ⟨value, hv, h⟩ := Run.except_bind_ok h
  exact ⟨value, hv, Run.mapError_ok h⟩

theorem unique_readValue {source : String} {value : Value} (h : readValue source = .ok value) :
    Unique value := by
  obtain ⟨node, _, h⟩ := Run.except_bind_ok h
  have hyields := unique_value node
  rwa [Run.mapError_ok h] at hyields

section
variable (h : document.Made (fun _ => True) fun _ => True)
include h

/-- What is read again is lasting, since it is read from a value without tags. -/
theorem lasting_of_reread {again : Document} (hr : document.reread = .ok again) : again.Lasting := by
  have hwithin := Document.within_toJson (fun _ _ => trivial) h
  refine Made.lasting (made_of_ofValue ?_ hr)
  exact within_withoutKey (unique_ofJson hwithin) (Value.hasTag_ofJson _) (Value.within_ofJson hwithin)

/-- A lasting document is read again as it is. -/
theorem reread_of_lasting (hf : document.Finite) (hl : document.Lasting) :
    document.reread = .ok document := by
  have hwritable : ∀ schema, document.Holds schema → Restored schema := fun schema hs =>
    restored_of_writable ((h.schema schema hs).of_holds hs fun schema hs hmade =>
      have hlasting := hl.schema schema hs
      { properties := hmade.properties.nodup
        default := fun value hd => ⟨(hmade.default value hd).1, (hlasting.default value hd).1⟩
        sample := fun value he => ⟨(hmade.sample value he).1, (hlasting.sample value he).1⟩
        enumeration := hmade.enumeration
        multipleOf := hf schema hs })
  have hwithin := Document.within_toJson (by decide) (h.of_lasting hl)
  rw [reread, withoutKey_ofJson hwithin]
  exact ofValue_toJson h hwritable

end

/-- **A document that was read from a text is read again as it is exactly if
it is lasting, and then its text and its digest are the same again. It is
lasting if the text has no tags and all floats in it are finite.** -/
theorem reread_iff {source : String} (h : read source = .ok document) (hf : document.Finite) :
    (document.reread = .ok document ↔ document.Lasting) ∧
      (document.Lasting → ∃ again, document.reread = .ok again ∧
        again.toJson.compact = document.toJson.compact ∧
        Generation.documentDigest again = Generation.documentDigest document) ∧
      ∀ value, readValue source = .ok value → value.hasTag = false →
        value.Within (fun _ => True) (·.isFinite = true) → document.Lasting := by
  obtain ⟨value, hv, hd⟩ := read_ok h
  have hmade := made_of_ofValue (Value.within_any _) hd
  have hreread := reread_of_lasting hmade hf
  refine ⟨⟨lasting_of_reread hmade, hreread⟩, fun hl => ⟨document, hreread hl, rfl, rfl⟩,
    fun given hg ht hw => ?_⟩
  obtain rfl := Except.ok.inj (hv.symm.trans hg)
  exact Made.lasting (made_of_ofValue (within_withoutKey (unique_readValue hv) ht hw) hd)

/-- A document with one schema, which says nothing. -/
def single (name : String) : Document := { components := { schemas := [(name, {})] } }

/-- Whether a document is the one with a schema of this name that says nothing. -/
def isSingle (name : String) : Document → Bool
  | ⟨"", ⟨"", ""⟩, [],
    ⟨[(given, ⟨none, none, none, none, none, none, none, [], none, [], false, none, [], none, [], [],
      [], none⟩)], [], []⟩⟩ => given == name
  | _ => false

theorem eq_single {name : String} (h : document.isSingle name = true) : document = single name := by
  unfold isSingle at h
  split at h
  · rw [beq_iff_eq.mp h, single]
  · cases h

theorem read_single {source name : String} (h : (read source).toOption.any (isSingle name) = true) :
    read source = .ok (single name) := by
  cases hr : read source with
  | ok document =>
    rw [hr] at h
    exact congrArg _ (eq_single h)
  | error fault =>
    rw [hr] at h
    cases h

theorem eq_empty_of_holds {name : String} {schema : Schema} (h : (single name).Holds schema) :
    schema = {} := by
  induction h with
  | component hm => exact (Prod.mk.inj (List.mem_singleton.mp hm)).2
  | parameter hp => rcases hp with hm | hm | hm <;> cases hm
  | body hb => rcases hb with hm | hm <;> cases hm
  | property _ hm ih => exact nomatch ih ▸ hm
  | items _ hi ih => exact nomatch ih ▸ hi
  | additional _ ha ih => exact nomatch ih ▸ ha
  | branch _ hm ih => exact nomatch ih ▸ hm

theorem finite_single (name : String) : (single name).Finite := by
  intro schema hs unit hu
  rw [eq_empty_of_holds hs] at hu
  cases hu

theorem lasting_single {name : String} (h : name ≠ changelogKey) : (single name).Lasting where
  schema schema hs := by
    rw [eq_empty_of_holds hs]
    exact ⟨List.not_mem_nil, nofun, nofun, nofun⟩
  content body hb := by rcases hb with hm | hm <;> cases hm
  paths := List.not_mem_nil
  schemas := fun hm => h (List.mem_singleton.mp hm).symm
  parameters := List.not_mem_nil
  requestBodies := List.not_mem_nil

/-- The key of change logs, with a tag, is read as a name. It is gone when
the document is read again, and any other name stays. -/
theorem tagged_key_lost :
    read "components: \x7bschemas: \x7b!t x-xgen-changelog: \x7b\x7d\x7d\x7d" = .ok (single changelogKey) ∧
      (single changelogKey).Finite ∧ (single changelogKey).reread ≠ .ok (single changelogKey) ∧
      (single "G").reread = .ok (single "G") := by
  have htagged : read "components: \x7bschemas: \x7b!t x-xgen-changelog: \x7b\x7d\x7d\x7d" =
      .ok (single changelogKey) := read_single (by decide +kernel)
  have hplain : read "components: \x7bschemas: \x7bG: \x7b\x7d\x7d\x7d" = .ok (single "G") :=
    read_single (by decide +kernel)
  refine ⟨htagged, finite_single _, fun hr => ?_, ?_⟩
  · have hlasting := (reread_iff htagged (finite_single _)).1.mp hr
    exact hlasting.schemas (List.mem_singleton_self _)
  · exact (reread_iff hplain (finite_single _)).1.mpr (lasting_single (by decide))

end Document

end CrdForge.OpenApi
