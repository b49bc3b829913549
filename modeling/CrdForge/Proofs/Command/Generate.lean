import CrdForge.Command.Run
import CrdForge.Proofs.Config.Saving
import CrdForge.Proofs.Generation.Isolation
import CrdForge.Proofs.Host.Directories

/-! What a command that makes definitions leaves behind.

Everything that can be wrong with what is asked is found before anything is written: then the command is
`Stopped`, and no file is changed (`run_of_stopped`). Otherwise it is `Prepared`, and writes the
definitions of all resources that have one, in order, whether or not some have none (`run_of_prepared`).
`generate_outcome` puts both together, with what becomes of the files that were there. -/
namespace CrdForge

namespace Generation.Generator

/-- The definitions of resources, in order. A resource without a definition is left out. -/
def definitionsOf (generator : Generator) (resources : List Config.Resource) : List Crd.Definition :=
  resources.filterMap fun resource => (generator.alone resource).toOption.map (·.definition)

/-- The resources without a definition. -/
def failing (generator : Generator) (resources : List Config.Resource) : List Config.Resource :=
  resources.filter fun resource => (generator.failure? resource).isSome

theorem failing_nil_iff (generator : Generator) (resources : List Config.Resource) :
    generator.failing resources = [] ↔ resources.findSome? generator.failure? = none := by
  simp [failing, List.filter_eq_nil_iff, List.findSome?_eq_none_iff]

/-- All definitions are made unless the first failure ends everything. -/
theorem generateAll_result (generator : Generator) (resources : List Config.Resource) (failFast : Bool) :
    match (generator.generateAll resources failFast {}).1 with
    | .error failure => failFast = true ∧ resources.findSome? generator.failure? = some failure
    | .ok output => (failFast = true → resources.findSome? generator.failure? = none) ∧
        output.definitions = generator.definitionsOf resources ∧
        output.report.failures.length = (generator.failing resources).length := by
  have hfresh := fresh_faithful generator
  obtain ⟨hdefinitions, -, -, hfailures⟩ := record_all generator resources
  have hmade : (resources.foldl generator.record {}).definitions = generator.definitionsOf resources ∧
      (resources.foldl generator.record {}).report.failures.length =
        (generator.failing resources).length := by
    refine ⟨hdefinitions, ?_⟩
    rw [hfailures, failing, ← List.countP_eq_length_filter, List.length_filterMap_eq_countP]
    simp only [Option.isSome_map]
  cases failFast with
  | false =>
    rw [generateAll_false hfresh]
    exact ⟨fun h => absurd h Bool.false_ne_true, hmade⟩
  | true =>
    rw [generateAll_true hfresh]
    cases hf : resources.findSome? generator.failure? with
    | some failure => exact ⟨rfl, rfl⟩
    | none =>
      rw [generateAll_false hfresh]
      exact ⟨fun _ => rfl, hmade⟩

end Generation.Generator

namespace Command

open Generation (Generator)
open Host (FileSystem PathName.parts)
open Host.FileSystem (Grows Rooted)
open Run

variable {world : World} {name output : String} {force failFast : Bool} {config : Config}
  {sets : List Pipeline.PluginSet} {causes : List String}

/-! ### Steps -/

theorem orFail_eq {ε α : Type} (causes : ε → List String) (result : Except ε α) (progress : Progress) :
    orFail causes result progress = (result.mapError causes, progress) := by
  cases result <;> rfl

theorem onFiles_eq {α : Type} (failure : String) (change : Host.Change α) (progress : Progress) :
    onFiles failure change progress =
      ((change progress.files).1.mapError fun fault => [failure, fault.message],
        { progress with files := (change progress.files).2 }) := by
  show orFail _ (change progress.files).1 _ = _
  rw [orFail_eq]

theorem loadConfig_eq (name : String) (progress : Progress) :
    loadConfig name progress = ((Config.load progress.files name).mapError fun fault =>
      ("failed to load configuration " ++ name) :: fault.causes, progress) :=
  orFail_eq _ _ progress

/-! ### Before anything is written -/

/-- What definitions are made with: the documents are those of files as they were. -/
def generatorOf (world : World) (name : String) (config : Config) (sets : List Pipeline.PluginSet) :
    Generator where
  sources := config.documents
  sets := sets
  loaders := OpenApi.fileLoaders world.environment world.files (some (baseOf name))

/-- Why nothing is written, and the failure with its causes. -/
inductive Stopped (world : World) (name output : String) (force failFast : Bool) : List String → Prop
  /-- The configuration cannot be read or may not be used. -/
  | unloaded {fault : Config.Fault} (hl : Config.load world.files name = .error fault) :
    Stopped world name output force failFast (("failed to load configuration " ++ name) :: fault.causes)
  | occupied {config : Config} (hl : Config.load world.files name = .ok config)
      (ho : world.files.has output = true) (hf : force = false) :
    Stopped world name output force failFast
      ["output file " ++ output ++ " already exists, use --force to overwrite"]
  /-- Its sets of plugins cannot be resolved. -/
  | unresolved {config : Config} {failure : Generation.Failure}
    (hl : Config.load world.files name = .ok config)
      (ho : force = false → world.files.has output = false)
      (hs : Generation.setsOf Pipeline.Plugin.all config = .error failure) :
    Stopped world name output force failFast failure.causes
  /-- A resource has no definition, and the first one without ends everything. -/
  | failed {config : Config} {sets : List Pipeline.PluginSet} {failure : Generation.Failure}
      (hl : Config.load world.files name = .ok config) (ho : force = false → world.files.has output = false)
      (hs : Generation.setsOf Pipeline.Plugin.all config = .ok sets)
      (hf : (failFast || config.failFast) = true)
      (hr : config.resources.findSome? (generatorOf world name config sets).failure? = some failure) :
    Stopped world name output force failFast failure.causes

/-- Whether definitions are written. -/
structure Prepared (world : World) (name output : String) (force failFast : Bool) (config : Config)
    (sets : List Pipeline.PluginSet) : Prop where
  loaded : Config.load world.files name = .ok config
  free : force = false → world.files.has output = false
  resolved : Generation.setsOf Pipeline.Plugin.all config = .ok sets
  complete : (failFast || config.failFast) = true →
    config.resources.findSome? (generatorOf world name config sets).failure? = none

/-- Nothing is written for a reason, or something is written. -/
theorem stopped_or_prepared (world : World) (name output : String) (force failFast : Bool) :
    (∃ causes, Stopped world name output force failFast causes) ∨
      ∃ config sets, Prepared world name output force failFast config sets := by
  cases hl : Config.load world.files name with
  | error fault => exact .inl ⟨_, .unloaded hl⟩
  | ok config =>
    by_cases ho : force = false → world.files.has output = false
    · cases hs : Generation.setsOf Pipeline.Plugin.all config with
      | error failure => exact .inl ⟨_, .unresolved hl ho hs⟩
      | ok sets =>
        cases hr : config.resources.findSome? (generatorOf world name config sets).failure? with
        | none => exact .inr ⟨config, sets, hl, ho, hs, fun _ => hr⟩
        | some failure =>
          by_cases hf : (failFast || config.failFast) = true
          · exact .inl ⟨_, .failed hl ho hs hf hr⟩
          · exact .inr ⟨config, sets, hl, ho, hs, fun h => absurd h hf⟩
    · rw [Classical.not_imp, Bool.not_eq_false] at ho
      exact .inl ⟨_, .occupied hl ho.2 ho.1⟩

theorem free_iff :
    (world.files.has output && !force) = false ↔ (force = false → world.files.has output = false) := by
  cases force <;> simp

theorem Stopped.not_prepared (h : Stopped world name output force failFast causes) :
    ¬Prepared world name output force failFast config sets := by
  intro hp
  cases h with
  | unloaded hl =>
    rw [hp.loaded] at hl
    cases hl
  | occupied _ ho hf =>
    rw [hp.free hf] at ho
    cases ho
  | unresolved hl _ hs =>
    obtain rfl := Except.ok.inj (hl.symm.trans hp.loaded)
    rw [hp.resolved] at hs
    cases hs
  | failed hl _ hs hf hr =>
    obtain rfl := Except.ok.inj (hl.symm.trans hp.loaded)
    obtain rfl := Except.ok.inj (hs.symm.trans hp.resolved)
    rw [hp.complete hf] at hr
    cases hr

/-- What is done with definitions that were made. -/
def conclude (world : World) (output : String) (config : Config) (made : Generation.Output) : Run Unit := do
  writeDefinitions output made.definitions
  say (reportLines world.time output made.report)
  warn (made.report.failures.map ("  Error: " ++ ·))
  if !made.report.isSuccess then
    throw [toString made.report.failures.length ++ " of " ++ toString config.resources.length ++
      " CRDs failed to generate"]

theorem runGenerate_of_loaded (hl : Config.load world.files name = .ok config) :
    runGenerate world name output force failFast { files := world.files } =
      if world.files.has output && !force then
        (.error ["output file " ++ output ++ " already exists, use --force to overwrite"],
          { files := world.files })
      else (makeDefinitions world (baseOf name) config (failFast || config.failFast) >>=
        conclude world output config)
        { files := world.files } := by
  rw [runGenerate, bind_eq, loadConfig_eq, hl]
  dsimp only [Except.mapError]
  rw [get_bind]
  dsimp only
  split <;> rfl

theorem makeDefinitions_eq (hl : Config.load world.files name = .ok config) (failFast : Bool) :
    makeDefinitions world (baseOf name) config failFast { files := world.files } =
      (match Generation.setsOf Pipeline.Plugin.all config with
        | .error failure => .error failure.causes
        | .ok sets =>
          ((generatorOf world name config sets).generateAll config.resources failFast {}).1.mapError
            Generation.Failure.causes,
        { files := world.files }) := by
  obtain ⟨content, hr⟩ : ∃ content, Config.read content = .ok config := by
    obtain ⟨content, -, hr⟩ := except_bind_ok hl
    exact ⟨content, hr⟩
  rw [makeDefinitions, get_bind, bind_eq, orFail_eq, Generator.ofConfig, Config.check_of_read hr]
  cases hs : Generation.setsOf Pipeline.Plugin.all config with
  | error failure => rfl
  | ok sets => exact orFail_eq ..

/-- Nothing is written if something is wrong. -/
theorem run_of_stopped (h : Stopped world name output force failFast causes) :
    run world (.generate name output force failFast) = (some causes, { files := world.files }) := by
  have hrun (hs : runGenerate world name output force failFast { files := world.files } =
      (.error causes, { files := world.files })) :
      run world (.generate name output force failFast) = (some causes, { files := world.files }) := by
    rw [run, steps, hs]
  refine hrun ?_
  cases h with
  | unloaded hl =>
    rw [runGenerate, bind_eq, loadConfig_eq, hl]
    rfl
  | occupied hl ho hf =>
    rw [runGenerate_of_loaded hl, ho, hf]
    rfl
  | unresolved hl ho hs =>
    rw [runGenerate_of_loaded hl, free_iff.mpr ho, if_neg Bool.false_ne_true, bind_eq,
      makeDefinitions_eq hl, hs]
  | @failed config sets failure hl ho hs hf hr =>
    have hmade := (generatorOf world name config sets).generateAll_result config.resources
      (failFast || config.failFast)
    rw [runGenerate_of_loaded hl, free_iff.mpr ho, if_neg Bool.false_ne_true, bind_eq,
      makeDefinitions_eq hl, hs]
    dsimp only
    cases hg : ((generatorOf world name config sets).generateAll config.resources
      (failFast || config.failFast) {}).1 with
    | error other =>
      rw [hg, hr] at hmade
      rw [Option.some.inj hmade.2]
      rfl
    | ok made =>
      rw [hg] at hmade
      rw [hmade.1 hf] at hr
      cases hr

/-! ### What is written -/

/-- Directories are made, and then the file is written, or something fails. -/
theorem writeDefinitions_cases (output : String) (definitions : List Crd.Definition) (progress : Progress) :
    ∃ grown, Grows progress.files grown ∧
      ((∃ location, grown.locate output = .ok location ∧ grown.entry? location ≠ some .directory ∧
        writeDefinitions output definitions progress =
          (.ok (), { progress with files := grown.put location (.text (render definitions)) })) ∨
      ∃ causes, writeDefinitions output definitions progress =
        (.error causes, { progress with files := grown })) := by
  have hgrown := Host.makeDirectories_grows progress.files ((Host.PathName.parent? output).getD "")
  rw [writeDefinitions, bind_eq, onFiles_eq]
  generalize Host.makeDirectories ((Host.PathName.parent? output).getD "") progress.files = made at hgrown
  obtain ⟨result, grown⟩ := made
  refine ⟨grown, hgrown, ?_⟩
  cases result with
  | error fault => exact .inr ⟨_, rfl⟩
  | ok =>
    dsimp only [Except.mapError]
    rw [onFiles_eq]
    rcases Host.writeFile_cases grown output (render definitions) with ⟨location, hl, hd, hw⟩ | ⟨fault, hw⟩
    · rw [hw]
      exact .inl ⟨location, hl, hd, rfl⟩
    · rw [hw]
      exact .inr ⟨_, rfl⟩

/-- What is written is read by the name that it was written to. -/
theorem read_of_writeDefinitions {definitions : List Crd.Definition} {progress written : Progress}
    (h : writeDefinitions output definitions progress = (.ok (), written)) :
    written.files.read output = .ok (render definitions) := by
  obtain ⟨grown, -, hcases⟩ := writeDefinitions_cases output definitions progress
  rw [h] at hcases
  rcases hcases with ⟨target, hl, hd, hw⟩ | ⟨causes, hw⟩
  · rw [(ok_ok hw).2]
    exact Host.FileSystem.read_put hd hl
  · cases hw

/-- What is said if some of the resources have no definition. -/
def lacking (failing resources : Nat) : Option (List String) :=
  if failing = 0 then none
  else some [toString failing ++ " of " ++ toString resources ++ " CRDs failed to generate"]

theorem conclude_eq (made : Generation.Output) (progress : Progress) :
    conclude world output config made progress =
      match writeDefinitions output made.definitions progress with
      | (.error causes, written) => (.error causes, written)
      | (.ok (), written) =>
        (match lacking made.report.failures.length config.resources.length with
          | none => .ok ()
          | some causes => .error causes,
          { written with
            said := written.said ++ reportLines world.time output made.report
            warned := written.warned ++ made.report.failures.map ("  Error: " ++ ·) }) := by
  obtain ⟨definitions, names, documents, warnings, failures⟩ := made
  rw [conclude, bind_eq]
  rcases writeDefinitions output definitions progress with ⟨causes | _, written⟩
  · rfl
  · cases failures <;> rfl

/-- What a command comes to by what writing comes to: the definitions that there are are written, and
then it fails if there are resources without one. -/
def Concludes (output : String) (generator : Generator) (resources : List Config.Resource)
    (outcome : Option (List String) × Progress) : Except (List String) Unit × Progress → Prop
  | (.error causes, written) => outcome = (some causes, written)
  | (.ok (), written) =>
    outcome.1 = lacking (generator.failing resources).length resources.length ∧
      outcome.2.files = written.files ∧
        written.files.read output = .ok (render (generator.definitionsOf resources))

theorem run_of_prepared (h : Prepared world name output force failFast config sets) :
    Concludes output (generatorOf world name config sets) config.resources
      (run world (.generate name output force failFast))
      (writeDefinitions output ((generatorOf world name config sets).definitionsOf config.resources)
        { files := world.files }) := by
  generalize hgenerator : generatorOf world name config sets = generator
  have hmade := generator.generateAll_result config.resources (failFast || config.failFast)
  rw [run, steps, runGenerate_of_loaded h.loaded, free_iff.mpr h.free, if_neg Bool.false_ne_true, bind_eq,
    makeDefinitions_eq h.loaded, h.resolved]
  dsimp only
  rw [hgenerator]
  cases hg : (generator.generateAll config.resources (failFast || config.failFast) {}).1 with
  | error failure =>
    rw [hg] at hmade
    have hn := h.complete hmade.1
    rw [hgenerator, hmade.2] at hn
    cases hn
  | ok made =>
    rw [hg] at hmade
    obtain ⟨-, hdefinitions, hlength⟩ := hmade
    dsimp only [Except.mapError]
    rw [← hdefinitions, conclude_eq, hlength]
    rcases hw : writeDefinitions output made.definitions { files := world.files } with ⟨causes | _, written⟩
    · rfl
    · have hread := read_of_writeDefinitions hw
      rw [hdefinitions] at hread
      dsimp only
      cases hl : lacking (generator.failing config.resources).length config.resources.length with
      | none => exact ⟨hl.symm, rfl, hread⟩
      | some causes => exact ⟨hl.symm, rfl, hread⟩

/-- Directories are made, and then something may take the place of a file where the name leads. -/
theorem files_of_prepared (h : Prepared world name output force failFast config sets) :
    ∃ grown, Grows world.files grown ∧
      ((run world (.generate name output force failFast)).2.files = grown ∨
        ∃ target entry, grown.locate output = .ok target ∧ grown.entry? target ≠ some .directory ∧
          (run world (.generate name output force failFast)).2.files = grown.put target entry) := by
  have hrun := run_of_prepared h
  obtain ⟨grown, hgrown, hcases⟩ := writeDefinitions_cases output
    ((generatorOf world name config sets).definitionsOf config.resources) { files := world.files }
  refine ⟨grown, hgrown, ?_⟩
  rcases hcases with ⟨target, hl, hd, hw⟩ | ⟨causes, hw⟩
  · rw [hw] at hrun
    exact .inr ⟨target, _, hl, hd, hrun.2.1⟩
  · rw [hw] at hrun
    exact .inl (congrArg (fun outcome => outcome.2.files) hrun)

/-- What a command that makes definitions comes to. -/
structure Outcome (world : World) (name output : String) (force failFast : Bool)
    (outcome : Option (List String) × Progress) : Prop where
  /-- What is there is not written to unless that is asked for. -/
  refused : world.files.has output = true → force = false →
    outcome.1.isSome = true ∧ outcome.2.files = world.files
  /-- Nothing is written if something is wrong. -/
  stopped : ∀ causes, Stopped world name output force failFast causes →
    outcome = (some causes, { files := world.files })
  /-- Otherwise definitions are written. -/
  started : (∃ causes, Stopped world name output force failFast causes) ∨
    ∃ config sets, Prepared world name output force failFast config sets
  /-- Unless they cannot be written, the file holds those that there are, and what is lacking is told. -/
  written : ∀ config sets, Prepared world name output force failFast config sets →
    Concludes output (generatorOf world name config sets) config.resources outcome
      (writeDefinitions output ((generatorOf world name config sets).definitionsOf config.resources)
        { files := world.files })
  /-- Directories are added, and the file. -/
  kept : ∀ location, outcome.2.files.entry? location = world.files.entry? location ∨
    world.files.entry? location = none ∧ outcome.2.files.entry? location = some .directory ∨
    outcome.2.files.locate output = .ok location ∧ world.files.entry? location ≠ some .directory
  /-- If nothing is to be replaced, what is replaced was not where the name led when that was looked up,
  which takes a name that goes up. -/
  replaced : force = false → ∀ location entry, world.files.entry? location = some entry →
    outcome.2.files.entry? location ≠ some entry → world.files.has output = false ∧
      outcome.2.files.locate output = .ok location ∧ (world.files.Rooted → ".." ∈ PathName.parts output)

theorem outcome_of_stopped (h : Stopped world name output force failFast causes) :
    Outcome world name output force failFast (run world (.generate name output force failFast)) where
  refused _ _ := by
    rw [run_of_stopped h]
    exact ⟨rfl, rfl⟩
  stopped _ h := run_of_stopped h
  started := .inl ⟨causes, h⟩
  written _ _ hp := absurd hp h.not_prepared
  kept location := by
    rw [run_of_stopped h]
    exact .inl rfl
  replaced _ location entry he hne := by
    rw [run_of_stopped h] at hne
    exact absurd he hne

theorem outcome_of_prepared (h : Prepared world name output force failFast config sets) :
    Outcome world name output force failFast (run world (.generate name output force failFast)) where
  refused ho hf := by
    rw [h.free hf] at ho
    cases ho
  stopped _ hs := absurd h hs.not_prepared
  started := .inr ⟨config, sets, h⟩
  written _ _ hp := run_of_prepared hp
  kept location := by
    obtain ⟨grown, hgrown, hg | ⟨target, entry, hl, hd, hp⟩⟩ := files_of_prepared h
    · rw [hg]
      exact (hgrown.entries location).imp_right .inl
    · rw [hp]
      refine (hgrown.put_entries hd entry location).imp_right (.imp_right ?_)
      rintro ⟨rfl, hfile⟩
      exact ⟨Host.FileSystem.locate_put hd hl, hfile⟩
  replaced hf location entry he hne := by
    obtain ⟨grown, hgrown, hg | ⟨target, entry', hl, hd, hp⟩⟩ := files_of_prepared h
    · rw [hg] at hne
      exact absurd (hgrown.keeps he) hne
    · rw [hp] at hne ⊢
      have htarget : location = target := by
        by_contra hother
        rw [Host.FileSystem.entry?_put_of_ne hother] at hne
        exact hne (hgrown.keeps he)
      subst htarget
      refine ⟨h.free hf, Host.FileSystem.locate_put hd hl, fun hr => ?_⟩
      by_contra hup
      have hhas := hgrown.has hr hup hl he
      rw [h.free hf] at hhas
      cases hhas

/-- **What is there stays unless it is asked for, and failures are told.** -/
theorem generate_outcome (world : World) (name output : String) (force failFast : Bool) :
    Outcome world name output force failFast (run world (.generate name output force failFast)) := by
  rcases stopped_or_prepared world name output force failFast with ⟨causes, hs⟩ | ⟨config, sets, hp⟩
  · exact outcome_of_stopped hs
  · exact outcome_of_prepared hp

/-! #### Two resources, one of them with a set that is not declared -/

def teamsText : String :=
  "\x7bkind: Config, apiVersion: atlas2crd.mongodb.com/v1alpha1, spec: \x7bopenapi: [], crd: [\x7bgvk: " ++
    "\x7bgroup: g, version: v, kind: Group\x7d\x7d, " ++
    "\x7bgvk: \x7bgroup: g, version: v, kind: Team\x7d, pluginSet: s\x7d]\x7d\x7d"

def groups : Config.Resource where
  group := "g"
  version := "v"
  kind := "Group"

def teams : Config.Resource where
  group := "g"
  version := "v"
  kind := "Team"
  pluginSet := some "s"

def teamsConfig : Config where
  kind := "Config"
  apiVersion := "atlas2crd.mongodb.com/v1alpha1"
  resources := [groups, teams]

/-- A configuration, and a file that is to be kept. -/
def teamsWorld : World where
  files := { entries := [(["config.yaml"], .text teamsText), (["crds.yaml"], .text "keep me")] }

theorem teamsText_loaded : Config.load teamsWorld.files "config.yaml" = .ok teamsConfig := by decide +kernel

theorem teamsWorld_rooted : teamsWorld.files.Rooted := by
  intro location part entry h
  cases location with
  | nil => rfl
  | cons outer rest =>
    -- both names have a single part
    have hname (name : String) : (outer :: rest ++ [part] == [name]) = false := by simp
    have hnone : teamsWorld.files.entry? (outer :: rest ++ [part]) = none := by
      rw [Host.FileSystem.entry?, if_neg (by simp)]
      simp only [teamsWorld, List.lookup_cons, List.lookup_nil, hname]
    rw [hnone] at h
    cases h

theorem teams_made : ∃ sets definition, Generation.setsOf Pipeline.Plugin.all teamsConfig = .ok sets ∧
    (generatorOf teamsWorld "config.yaml" teamsConfig sets).definitionsOf teamsConfig.resources =
      [definition] ∧
    (generatorOf teamsWorld "config.yaml" teamsConfig sets).failing teamsConfig.resources = [teams] ∧
    definition.name = "groups.g" := by
  have hmade : (Generation.setsOf Pipeline.Plugin.all teamsConfig).toOption.map (fun sets =>
      let generator := generatorOf teamsWorld "config.yaml" teamsConfig sets
      ((generator.definitionsOf teamsConfig.resources).map (·.name),
        generator.failing teamsConfig.resources)) =
        some (["groups.g"], [teams]) := by decide +kernel
  cases hs : Generation.setsOf Pipeline.Plugin.all teamsConfig with
  | error failure =>
    rw [hs] at hmade
    cases hmade
  | ok sets =>
    rw [hs] at hmade
    obtain ⟨hnames, hfailing⟩ := Prod.mk.inj (Option.some.inj hmade)
    obtain ⟨definition, hdefinitions, hname⟩ := List.map_eq_singleton_iff.mp hnames
    exact ⟨sets, definition, rfl, hdefinitions, hfailing, hname⟩

theorem render_ne (definition : Crd.Definition) : render [definition] ≠ "keep me" := by
  intro h
  have hfirst := congrArg (·.toList.head?) h
  simp [render, Yaml.writeDocument, String.join] at hfirst

/-- The file is kept if it is not to be replaced, or if the first failure ends everything. Otherwise it
holds the definition of the group, and there is a failure. It is replaced as well under a name that led
nowhere before the directory was made that it goes back up from. -/
theorem teams_partly_written :
    (run teamsWorld (.generate "config.yaml" "crds.yaml" false false)).2.files = teamsWorld.files ∧
    (run teamsWorld (.generate "config.yaml" "crds.yaml" true true)).2.files = teamsWorld.files ∧
    ∃ definition : Crd.Definition, definition.name = "groups.g" ∧
      (run teamsWorld (.generate "config.yaml" "crds.yaml" true false)).2.files.read "crds.yaml" =
        .ok (render [definition]) ∧
      (run teamsWorld (.generate "config.yaml" "crds.yaml" true false)).1 =
        some ["1 of 2 CRDs failed to generate"] ∧
      teamsWorld.files.Rooted ∧ teamsWorld.files.has "new/../crds.yaml" = false ∧
      (run teamsWorld (.generate "config.yaml" "new/../crds.yaml" false false)).2.files.read "crds.yaml" =
        .ok (render [definition]) ∧
      render [definition] ≠ "keep me" := by
  obtain ⟨sets, definition, hresolved, hdefinitions, hfailing, hname⟩ := teams_made
  have hfree : teamsWorld.files.has "new/../crds.yaml" = false := by decide +kernel
  have hprepared (force : Bool) (output : String) (hf : force = false → teamsWorld.files.has output = false) :
      Prepared teamsWorld "config.yaml" output force false teamsConfig sets :=
    ⟨teamsText_loaded, hf, hresolved, fun h => absurd h Bool.false_ne_true⟩
  have hforced := (generate_outcome teamsWorld "config.yaml" "crds.yaml" true false).written _ _
    (hprepared true "crds.yaml" nofun)
  have hup := (generate_outcome teamsWorld "config.yaml" "new/../crds.yaml" false false).written _ _
    (hprepared false "new/../crds.yaml" fun _ => hfree)
  rw [hdefinitions] at hforced hup
  have hnamed : (writeDefinitions "crds.yaml" [definition] { files := teamsWorld.files }).1 = .ok () := rfl
  have hback : (writeDefinitions "new/../crds.yaml" [definition] { files := teamsWorld.files }).1 = .ok () ∧
      (writeDefinitions "new/../crds.yaml" [definition] { files := teamsWorld.files }).2.files.read
        "crds.yaml" =
        .ok (render [definition]) := ⟨rfl, rfl⟩
  generalize writeDefinitions "crds.yaml" [definition]
    { files := teamsWorld.files } = written at hforced hnamed
  generalize writeDefinitions "new/../crds.yaml" [definition]
    { files := teamsWorld.files } = climbed at hup hback
  obtain ⟨_, written⟩ := written
  obtain ⟨_, climbed⟩ := climbed
  obtain ⟨rfl, hread⟩ := hback
  obtain rfl := hnamed
  obtain ⟨hlacking, hfiles, hheld⟩ := hforced
  obtain ⟨-, hclimbed, -⟩ := hup
  rw [hdefinitions] at hheld
  rw [hfailing] at hlacking
  refine ⟨?_, ?_, definition, hname, ?_, ?_, teamsWorld_rooted, hfree, ?_, render_ne definition⟩
  · exact ((generate_outcome teamsWorld "config.yaml" "crds.yaml" false
      false).refused (by decide +kernel) rfl).2
  · obtain ⟨failure, hfailure⟩ : ∃ failure,
        teamsConfig.resources.findSome? (generatorOf teamsWorld "config.yaml" teamsConfig sets).failure? =
          some failure := by
      refine Option.ne_none_iff_exists'.mp fun hn => ?_
      rw [(Generator.failing_nil_iff ..).mpr hn] at hfailing
      cases hfailing
    have hstopped : Stopped teamsWorld "config.yaml" "crds.yaml" true true failure.causes :=
      .failed teamsText_loaded nofun hresolved rfl hfailure
    rw [(generate_outcome teamsWorld "config.yaml" "crds.yaml" true true).stopped _ hstopped]
  · rw [hfiles]
    exact hheld
  · rw [hlacking]
    rfl
  · rw [hclimbed]
    exact hread

end Command

end CrdForge
