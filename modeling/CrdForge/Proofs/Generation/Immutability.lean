import CrdForge.Proofs.Pipeline.Fields

/-! Parameters in a whole definition.

A parameter becomes a property of its version that keeps its first value. The entry and references are
listed in the same place, so it is gone if one of them has its name, and stays as it was converted last
if none has (`parameters_immutable_iff`). -/
namespace CrdForge.Generation

open Pipeline (Job PluginSet entryPart parameterProperty specPart)

namespace Generator

variable {generator : Generator} {resource : Config.Resource} {set : PluginSet} {cache after : Cache}
  {generated : Generated}

/-- **In a definition that was made, a parameter with a conversion keeps its first value exactly if
neither a reference nor the entry has its name.** It is listed as it was converted last then, unless it
is listed for the entry and has the references of that. -/
theorem parameters_immutable_iff (hset : generator.UsesAll resource set)
    (h : generator.generate resource cache = (.ok generated, after)) :
    ∀ mapping ∈ resource.mappings, ∃ document, generator.Supplies cache mapping.document document ∧
      ∃ spec version, generated.definition.part? specPart = some spec ∧
        spec.property? mapping.majorVersion = some version ∧
        let job : Job := ⟨resource, mapping, document, set.propertyPlugins⟩
        ∀ before parameter later converted, job.parameters = before ++ parameter :: later →
          job.parameterShape? parameter = some converted →
            ((∃ listed, version.property? parameter.name = some listed ∧
              Crd.Rule.immutable parameter.name ∈ listed.rules) ↔ ¬ job.Displaces parameter.name) ∧
            (¬ job.Displaces parameter.name → (parameter.name = entryPart → mapping.entry.references = []) →
              (∀ other ∈ later, other.name = parameter.name → job.parameterShape? other = none) →
                version.property? parameter.name = some (parameterProperty parameter converted)) := by
  intro mapping hm
  obtain ⟨hd, parts, hdefinition, -, hrun, -⟩ := generate_ok hset.1 hset.hasBase h
  obtain ⟨document, hsupplies, hcompleted⟩ :=
    (Pipeline.done_of_run hset.mappingPlugins hd hrun).completed mapping hm
  obtain ⟨version, hmakes, hv⟩ := hcompleted.version
  refine ⟨document, hsupplies, parts.spec, version, by rw [hdefinition, finish_spec], hv, ?_⟩
  intro job before parameter later converted hsplit hs
  refine ⟨hmakes.immutable_iff (hsplit ▸ by simp) (by rw [hs]; rfl), fun hdisplaced hentry hlast => ?_⟩
  obtain ⟨listed, hl, -, hsame⟩ := hmakes.parameter hsplit hs hlast hdisplaced
  rw [hl, hsame hentry]

end Generator

/-! ### A parameter with the name of the entry -/

/-- A parameter that is a text. -/
def textParameter (name : String) : OpenApi.Parameter where
  name := name
  schema := some { type := some (.one "string") }

/-- Notes are asked for by their group and by a parameter that is named as entries are. -/
def notes : OpenApi.Document where
  paths := [("/notes", { get := some {}, parameters := [textParameter "groupId", textParameter entryPart] })]
  components := { schemas := [("Note", { properties := [("text", { type := some (.one "string") })] })] }

def noteMapping : Config.Mapping where
  majorVersion := "v1"
  document := "api"
  parameters := { endpoint := { name := "/notes", verb := "get" } }
  entry := { schema := some "Note" }

def note : Config.Resource where
  group := "example.com"
  version := "v1"
  kind := "Note"
  mappings := [noteMapping]

def noteJob : Job := ⟨note, noteMapping, notes, Conversion.PropertyPlugin.all⟩

theorem noteJob_parameters : noteJob.parameters = [textParameter "groupId", textParameter entryPart] := by
  with_unfolding_all rfl

/-- The group keeps its first value, and the other parameter is gone. -/
theorem entry_displaces_parameter :
    ∃ generated after spec version, (Generator.ofDocument notes).generate note {} = (.ok generated, after) ∧
      generated.definition.part? specPart = some spec ∧ spec.property? "v1" = some version ∧
      (∃ listed, version.property? "groupId" = some listed ∧ Crd.Rule.immutable "groupId" ∈ listed.rules) ∧
      ¬ ∃ listed, version.property? entryPart = some listed ∧
        Crd.Rule.immutable entryPart ∈ listed.rules := by
  have hcheck : (((Generator.ofDocument notes).generate note {}).1.toOption.any fun _ => true) = true := by
    decide +kernel
  obtain ⟨generated, after, hg, -⟩ := Generator.generate_of_check hcheck
  have hall : (Generator.ofDocument notes).UsesAll note ⟨"default", true, Pipeline.Plugin.all⟩ :=
    Generator.ofDocument_usesAll notes rfl
  obtain ⟨document, hsupplies, spec, version, hspec, hv, hlisted⟩ :=
    Generator.parameters_immutable_iff hall hg noteMapping (List.mem_singleton.mpr rfl)
  obtain rfl : notes = document := by
    rcases hsupplies with hl | ⟨source, hm, -, hl⟩
    · cases hl
    · cases List.mem_singleton.mp hm
      exact Except.ok.inj hl
  rw [hall.propertyPlugins] at hlisted
  have hgroup : (noteJob.parameterShape? (textParameter "groupId")).isSome = true := by decide +kernel
  have hother : (noteJob.parameterShape? (textParameter entryPart)).isSome = true := by decide +kernel
  have hentry : noteJob.entryShape?.isSome = true := by decide +kernel
  obtain ⟨group, hgroup⟩ := Option.isSome_iff_exists.mp hgroup
  obtain ⟨other, hother⟩ := Option.isSome_iff_exists.mp hother
  refine ⟨generated, after, spec, version, hg, hspec, hv, ?_, ?_⟩
  · refine (hlisted [] _ [textParameter entryPart] _ noteJob_parameters hgroup).1.mpr ?_
    rintro (hn | ⟨hn, -⟩)
    · cases hn
    · simp [textParameter, entryPart] at hn
  · intro hc
    exact (hlisted [textParameter "groupId"] _ [] _ noteJob_parameters hother).1.mp hc (.inr ⟨rfl, hentry⟩)

end CrdForge.Generation
