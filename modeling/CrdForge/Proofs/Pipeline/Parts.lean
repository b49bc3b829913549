import CrdForge.Pipeline.PluginSet
import CrdForge.Proofs.Conversion.Outcome
import CrdForge.Proofs.Keyed
import CrdForge.Proofs.Run

/-! Drafts by their parts.

Once the definition was started over, plugins change nothing of a draft but what is asked for, what is
observed, the annotations and the columns. A draft is `Parts.draft` of these, and the steps of the
construction are equations on the parts. -/
namespace CrdForge.Pipeline

open Extension (NodeId Tree)

/-! ### Parts -/

/-- What plugins for a version may change. -/
structure Parts where
  /-- What is asked for. -/
  spec : Crd.Schema
  /-- What is observed. -/
  status : Crd.Schema
  tree : Tree
  columns : List Crd.Column := []

/-- The names of a resource. -/
def singularName (resource : Config.Resource) : String := (resourceNames resource.kind).2

namespace Parts

/-- The schema with these parts. -/
def root (resource : Config.Resource) (parts : Parts) : Crd.Schema :=
  { rootSchema (singularName resource) resource.majorVersions with
    properties := [(specPart, parts.spec), (statusPart, parts.status)] }

/-- The definition with these parts. -/
def definition (resource : Config.Resource) (parts : Parts) : Crd.Definition :=
  { skeleton resource with schema := some (parts.root resource), columns := parts.columns }

/-- The draft with these parts. -/
def draft (resource : Config.Resource) (parts : Parts) : Draft := ⟨parts.definition resource, parts.tree⟩

/-- The parts before any version is added. -/
def start (resource : Config.Resource) : Parts where
  spec := specSchema (singularName resource) resource.majorVersions
  status := statusSchema (singularName resource)
  tree := Tree.empty

/-- The parts with other annotations. -/
def withTree (parts : Parts) (tree : Tree) : Parts := { parts with tree := tree }

variable (resource : Config.Resource) (parts : Parts)

@[simp] theorem withTree_spec (tree : Tree) : (parts.withTree tree).spec = parts.spec := rfl

@[simp] theorem withTree_status (tree : Tree) : (parts.withTree tree).status = parts.status := rfl

@[simp] theorem withTree_tree (tree : Tree) : (parts.withTree tree).tree = tree := rfl

@[simp] theorem withTree_withTree (first second : Tree) :
    (parts.withTree first).withTree second = parts.withTree second := rfl

variable {resource parts} in
theorem definition_inj {parts' : Parts} : parts.definition resource = parts'.definition resource ↔
    parts.spec = parts'.spec ∧ parts.status = parts'.status ∧ parts.columns = parts'.columns := by
  constructor
  · intro h
    have hschema : some (parts.root resource) = some (parts'.root resource) :=
      congrArg Crd.Definition.schema h
    have hproperties : (parts.root resource).properties = (parts'.root resource).properties :=
      congrArg Crd.Schema.properties (Option.some.inj hschema)
    have hcolumns : parts.columns = parts'.columns := congrArg Crd.Definition.columns h
    simp only [root, List.cons.injEq, Prod.mk.injEq, true_and, and_true] at hproperties
    exact ⟨hproperties.1, hproperties.2, hcolumns⟩
  · rintro ⟨hs, ht, hc⟩
    rw [definition, definition, root, root, hs, ht, hc]

variable {resource parts} in
theorem draft_injective {parts' : Parts} (h : parts.draft resource = parts'.draft resource) :
    parts = parts' := by
  obtain ⟨hs, ht, hc⟩ := definition_inj.mp (congrArg Draft.definition h)
  have htree : parts.tree = parts'.tree := congrArg Draft.tree h
  cases parts
  cases parts'
  simp_all

/-! ### Equations -/

theorem startOver_start : startOver resource {} = (.ok (), (start resource).draft resource) := rfl

theorem readPart_spec :
    readPart specPart (parts.draft resource) = (.ok parts.spec, parts.draft resource) := rfl

theorem editPart_spec (change : Crd.Schema → Crd.Schema) :
    editPart specPart change (parts.draft resource) =
      (.ok (), { parts with spec := change parts.spec }.draft resource) := rfl

theorem editPart_status (change : Crd.Schema → Crd.Schema) :
    editPart statusPart change (parts.draft resource) =
      (.ok (), { parts with status := change parts.status }.draft resource) := rfl

theorem setColumns_draft :
    setColumns (parts.draft resource) =
      (.ok (), { parts with columns := conditionColumns }.draft resource) := rfl

end Parts

end CrdForge.Pipeline
