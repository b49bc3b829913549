import CrdForge.Config.Validate
import CrdForge.Proofs.Run

/-! What the check of a configuration ensures. -/
namespace CrdForge.Config

open Run

variable {documents : List DocumentSource} {names : List String} {resources : List Resource} {config : Config}

/-- A document has either a path or a package. -/
theorem DocumentSource.one_of_check {source : DocumentSource} (h : source.check = .ok ()) :
    source.path.isSome ≠ source.package.isSome := by
  rw [DocumentSource.check] at h
  split at h
  · cases h
  · split at h
    · cases h
    · next hne => simpa using hne

theorem check_of_checkDocuments {before : List String} (h : checkDocuments before documents = .ok ()) :
    ∀ source ∈ documents, source.check = .ok () := by
  induction documents generalizing before with
  | nil => simp
  | cons first rest ih =>
    obtain ⟨_, hfirst, h⟩ := except_bind_ok h
    intro source hs
    split at h
    · cases h
    · rcases List.mem_cons.mp hs with rfl | hs
      · exact hfirst
      · exact ih h source hs

/-- A mapping names one of the documents. -/
theorem Resource.declared_of_check {resource : Resource} (h : resource.checkDocuments names = .ok ()) :
    ∀ mapping ∈ resource.mappings, mapping.document ∈ names := by
  rw [Resource.checkDocuments] at h
  split at h
  · cases h
  · next hf => simpa using hf

theorem check_of_checkResources (h : checkResources names resources = .ok ()) :
    ∀ resource ∈ resources, resource.check = .ok () ∧ resource.checkDocuments names = .ok () := by
  induction resources with
  | nil => simp
  | cons first rest ih =>
    obtain ⟨_, hfirst, h⟩ := except_bind_ok h
    obtain ⟨_, hdocuments, hrest⟩ := except_bind_ok h
    intro resource hr
    rcases List.mem_cons.mp hr with rfl | hr
    · exact ⟨hfirst, hdocuments⟩
    · exact ih hrest resource hr

theorem parts_of_check (h : config.check = .ok ()) : checkDocuments [] config.documents = .ok () ∧
    checkResources (config.documents.map fun source => source.name) config.resources = .ok () := by
  rw [Config.check] at h
  split at h
  · cases h
  · obtain ⟨_, hd, hr⟩ := except_bind_ok (mapError_ok h)
    exact ⟨hd, hr⟩

end CrdForge.Config
