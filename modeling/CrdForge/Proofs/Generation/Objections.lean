import CrdForge.Proofs.Generation.Findings
import CrdForge.Proofs.Pipeline.Calls

/-! What an inspection may object to in any definition that was made.

Documents need not be well-formed here. Every plugin leaves the schema structural, so whatever a
definition was made from, its names, versions and columns are in order, and nothing is found in its
schema but arrays that do not say what their items are and properties that are listed beside something
that is said of the others. -/
namespace CrdForge.Generation

open Crd.Schema (Everywhere Structural)
open Pipeline (Draft ExtensionPlugin Job MappingPlugin Parts PluginSet Upholds)
open Run

variable {config : Config} {loaders : OpenApi.Loaders} {generator : Generator} {resource : Config.Resource}
  {set : PluginSet} {cache after : Cache} {generated : Generated}

/-! ### Runs -/

theorem runPlugin_sturdy {kind majorVersion plugin : String} {build : Pipeline.Build Unit}
    {draft last : Draft} (hb : Upholds (fun _ => True) build)
    (h : Generator.runPlugin kind majorVersion plugin build draft = .ok last) (hd : draft.Sturdy) :
    last.Sturdy := by
  have hrun := Generator.runPlugin_ok h
  have hlast := (hb draft hd).1
  rwa [hrun] at hlast

theorem addMapping_sturdy {job : Job} {draft last : Draft} (h : Generator.addMapping set job draft = .ok last)
    (hd : draft.Sturdy) : last.Sturdy := by
  obtain ⟨middle, hm, he⟩ := except_bind_ok h
  have hmiddle : middle.Sturdy := (foldlM_ok hm).preserves
    (fun plugin _ _ _ hs hrun => runPlugin_sturdy (plugin.run_upholds job) hrun hs) hd
  exact (foldlM_ok he).preserves
    (fun plugin _ _ _ hs hrun => runPlugin_sturdy (plugin.run_upholds job) hrun hs) hmiddle

theorem addMappings_sturdy {mappings : List Config.Mapping} {draft last : Draft}
    (h : generator.addMappings set resource mappings draft cache = (.ok last, after)) (hd : draft.Sturdy) :
    last.Sturdy := by
  induction mappings generalizing draft cache with
  | nil =>
    obtain ⟨rfl, -⟩ := pure_ok h
    exact hd
  | cons mapping rest ih =>
    obtain ⟨document, _, _, h⟩ := bind_ok h
    obtain ⟨next, _, hl, h⟩ := bind_ok h
    obtain ⟨ha, rfl⟩ := liftExcept_ok hl
    exact ih h (addMapping_sturdy (mapError_ok ha) hd)

/-! ### Definitions -/

/-- A definition that was made has the schema and the columns of a sturdy draft. -/
theorem generate_sturdy (hs : generator.setOf resource = .ok set) (hb : set.hasBase = true)
    (h : generator.generate resource cache = (.ok generated, after)) :
    ∃ parts : Parts, generated.definition = Generator.finish (parts.draft resource) ∧
      generated.findings = generator.inspect generated.definition ∧ (parts.draft resource).Sturdy := by
  obtain ⟨-, draft, hdefinition, hfindings, hm⟩ := Generator.generate_run hs hb h
  have hsturdy : draft.Sturdy := addMappings_sturdy hm (Pipeline.startOver_sturdy resource {})
  obtain ⟨parts, rfl, -, -⟩ := Generator.addMappings_ok hm
  exact ⟨parts, hdefinition, hfindings, hsturdy⟩

/-- **Whatever a definition was made from, each of its findings is an array that does not say what its
items are, or a node that lists properties beside something that it says of the others.** -/
theorem findings_offend (hg : Generator.ofConfig Pipeline.Plugin.all loaders config = .ok generator)
    (hr : resource ∈ config.resources) (hset : generator.UsesAll resource set)
    (h : generator.generate resource cache = (.ok generated, after)) :
    ∃ root, generated.definition.schema = some root ∧
      generated.findings = generated.definition.findings.map Crd.Finding.message ∧
      ∀ finding ∈ generated.definition.findings, ∃ node, root.Inspected node ∧ node.Offends finding := by
  obtain ⟨parts, hdefinition, hfindings, hsturdy⟩ := generate_sturdy hset.1 hset.hasBase h
  have hroot : (parts.draft resource).definition.schema = some (parts.root resource) := rfl
  have hall : (parts.root resource).Everywhere Structural := by
    obtain ⟨root, he, hall⟩ := hsturdy.schema
    obtain rfl := Option.some.inj (hroot.symm.trans he)
    exact hall
  refine ⟨parts.root resource, ?_, ?_, fun finding hm => ?_⟩
  · rw [hdefinition, Generator.finish_schema, hroot]
  · rw [hfindings, inspect_of_ofConfig hg]
  · have hdraft : (parts.draft resource).definition = parts.definition resource := rfl
    rw [hdefinition, finish_findings, hdraft, definition_findings_of_columns (kind_of_ofConfig hg hr)
      hsturdy.columns] at hm
    exact Crd.Schema.offends_of_mem hall hm

/-! ### A document that is not well-formed -/

/-- A schema with a reference that leads nowhere, an array without items, a format that no cluster knows, and
something required that is not listed; and something is said of properties that are not listed. -/
def wild : OpenApi.Schema where
  required := ["missing", "tags"]
  properties := [("other", { reference := some "#/components/schemas/Other" }),
    ("tags", { type := some (.one "array"), format := some "uuid" })]
  additional := some (.schema { type := some (.one "string") })

def wildDocument : OpenApi.Document where
  components := { schemas := [("Wild", wild)] }

def wildResource : Config.Resource where
  group := "example.com"
  version := "v1"
  kind := "Wild"
  mappings := [{ majorVersion := "v1", document := "api", entry := { schema := some "Wild" } }]

def wildConfig : Config where
  kind := Config.expectedKind
  apiVersion := Config.expectedApiVersion
  documents := [⟨"api", some "api.yaml", none⟩]
  resources := [wildResource]

theorem wild_offends : ∃ generated after root,
    (Generator.ofDocument wildDocument).generate wildResource {} = (.ok generated, after) ∧
      generated.definition.schema = some root ∧ generated.findings.length = 2 ∧
      ∀ finding ∈ generated.definition.findings, ∃ node, root.Inspected node ∧ node.Offends finding := by
  have hcheck :
    (((Generator.ofDocument wildDocument).generate wildResource {}).1.toOption.any fun generated =>
      generated.findings.length == 2) = true := by decide +kernel
  obtain ⟨generated, after, hgenerated, hlength⟩ := Generator.generate_of_check hcheck
  have hconfig : Generator.ofConfig Pipeline.Plugin.all
      ⟨fun _ => .ok wildDocument, fun _ => .ok wildDocument⟩ wildConfig =
        .ok (Generator.ofDocument wildDocument) := rfl
  obtain ⟨root, hroot, -, hall⟩ := findings_offend hconfig (List.mem_singleton.mpr rfl)
    (Generator.ofDocument_usesAll wildDocument rfl) hgenerated
  exact ⟨generated, after, root, hgenerated, hroot, beq_iff_eq.mp hlength, hall⟩

end CrdForge.Generation
