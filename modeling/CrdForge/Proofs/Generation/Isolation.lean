import CrdForge.Generation.Report
import CrdForge.Proofs.Keyed
import CrdForge.Proofs.Run
import Mathlib.Data.List.Induction

/-! That definitions are made independently of what was made before.

Documents that are kept change no result: a step is `Transparent` if it does the same on every cache
whose documents are what their sources are loaded as, and adds the same documents to it. Steps that are
put together from transparent ones are transparent (`Transparent.andThen`), so generation is
(`generate_transparent`), and a list of resources gives what each of them gives alone
(`generations_isolated`). -/
namespace CrdForge.Generation

open Config (DocumentSource)
open Run

namespace Generator

variable {generator : Generator} {cache middle after : Cache} {α β : Type}

/-! ### Caches -/

/-- Whether every document is kept that its source is loaded as. -/
structure Faithful (generator : Generator) (cache : Cache) : Prop where
  sorted : Keyed.Sorted cache.documents
  loaded : ∀ name document, cache.documents.lookup name = some document →
    ∃ source, generator.sources.find? (·.name == name) = some source ∧
      generator.loaders.load source = .ok document

theorem fresh_faithful (generator : Generator) : generator.Faithful {} :=
  ⟨.nil, fun _ _ h => nomatch h⟩

/-- Whether loaders were asked for the documents of these sources since an earlier cache: for none that
was kept, and for none again after it was loaded. -/
structure Asks (generator : Generator) (cache : Cache) (asks : List DocumentSource)
    (after : Cache) : Prop where
  log : after.asked = cache.asked ++ asks.flatMap fun source => (OpenApi.identifier? source).toList
  declared : ∀ source ∈ asks, generator.sources.find? (·.name == source.name) = some source
  missing : ∀ source ∈ asks, cache.documents.lookup source.name = none
  once : asks.Pairwise fun source later =>
    source.name = later.name → ∀ document, generator.loaders.load source ≠ .ok document
  documents : ∀ name document, after.documents.lookup name = some document ↔
    cache.documents.lookup name = some document ∨
      ∃ source ∈ asks, source.name = name ∧ generator.loaders.load source = .ok document

theorem Asks.refl (generator : Generator) (cache : Cache) : generator.Asks cache [] cache where
  log := (List.append_nil _).symm
  declared := by simp
  missing := by simp
  once := .nil
  documents := by simp

theorem Asks.trans {asks others : List DocumentSource} (h : generator.Asks cache asks middle)
    (h' : generator.Asks middle others after) : generator.Asks cache (asks ++ others) after where
  log := by rw [h'.log, h.log, List.flatMap_append, List.append_assoc]
  declared source hs := by
    rcases List.mem_append.mp hs with hs | hs
    · exact h.declared source hs
    · exact h'.declared source hs
  missing source hs := by
    rcases List.mem_append.mp hs with hs | hs
    · exact h.missing source hs
    · cases hc : cache.documents.lookup source.name with
      | none => rfl
      | some document =>
        have hm := (h.documents _ _).mpr (.inl hc)
        rw [h'.missing source hs] at hm
        cases hm
  once := by
    refine List.pairwise_append.mpr ⟨h.once, h'.once, fun source hs later hl hname document hd => ?_⟩
    have hm := (h.documents later.name document).mpr (.inr ⟨source, hs, hname, hd⟩)
    rw [h'.missing later hl] at hm
    cases hm
  documents name document := by
    rw [h'.documents, h.documents, or_assoc]
    simp only [List.mem_append, or_and_right, exists_or]

/-! ### Transparent steps -/

/-- Whether a step does on a cache what it does on a fresh one. -/
structure Agrees (generator : Generator) (step : Step α) (cache : Cache) : Prop where
  result : (step cache).1 = (step {}).1
  faithful : generator.Faithful (step cache).2
  documents : ∀ name, (step cache).2.documents.lookup name =
    (cache.documents.lookup name).or ((step {}).2.documents.lookup name)
  asks : ∃ asks, generator.Asks cache asks (step cache).2

/-- Whether a step does the same whatever is kept. -/
def Transparent (generator : Generator) (step : Step α) : Prop :=
  ∀ cache, generator.Faithful cache → generator.Agrees step cache

theorem transparent_of_eq {step : Step α} {result : Except Failure α}
    (h : ∀ cache, step cache = (result, cache)) :
    generator.Transparent step := by
  intro cache hc
  refine ⟨?_, ?_, fun name => ?_, [], ?_⟩
  · rw [h, h]
  · rw [h]
    exact hc
  · rw [h, h]
    exact (Option.or_none).symm
  · rw [h]
    exact .refl generator cache

/-- A step that goes on with the result of another. -/
theorem Transparent.andThen {step : Step α} {next : Except Failure α → Step β}
    (hs : generator.Transparent step) (hn : ∀ result, generator.Transparent (next result)) :
    generator.Transparent (fun cache => next (step cache).1 (step cache).2) := by
  intro cache hc
  have hstep := hs cache hc
  have hnext := hn (step cache).1 (step cache).2 hstep.faithful
  have hfresh := hn (step {}).1 (step {}).2 (hs {} (fresh_faithful generator)).faithful
  obtain ⟨asks, hasks⟩ := hstep.asks
  obtain ⟨others, hothers⟩ := hnext.asks
  refine ⟨?_, hnext.faithful, fun name => ?_, asks ++ others, hasks.trans hothers⟩
  · rw [hnext.result, hfresh.result, hstep.result]
  · rw [hnext.documents, hfresh.documents, hstep.documents, hstep.result, Option.or_assoc]

theorem Transparent.bind {step : Step α} {next : α → Step β} (hs : generator.Transparent step)
    (hn : ∀ a, generator.Transparent (next a)) : generator.Transparent (step >>= next) := by
  show generator.Transparent fun cache => ExceptT.bindCont next (step cache).1 (step cache).2
  apply hs.andThen
  intro result
  cases result with
  | ok a => exact hn a
  | error => exact transparent_of_eq fun _ => rfl

/-- What a step goes on with that recovers from failures. -/
def recovered (handler : Failure → Step α) : Except Failure α → Step α
  | .ok a => pure a
  | .error failure => handler failure

theorem Transparent.recover {step : Step α} {handler : Failure → Step α} (hs : generator.Transparent step)
    (hh : ∀ failure, generator.Transparent (handler failure)) :
    generator.Transparent (tryCatch step handler) := by
  have heq : tryCatch step handler = fun cache => recovered handler (step cache).1 (step cache).2 := by
    funext cache
    rw [tryCatch_eq]
    rcases step cache with ⟨_ | _, _⟩ <;> rfl
  rw [heq]
  apply hs.andThen
  intro result
  cases result with
  | ok a => exact transparent_of_eq fun _ => rfl
  | error failure => exact hh failure

theorem transparent_pure (a : α) : generator.Transparent (pure a) := transparent_of_eq fun _ => rfl

theorem transparent_throw (failure : Failure) : generator.Transparent (throw failure : Step α) :=
  transparent_of_eq fun _ => rfl

theorem transparent_lift (result : Except Failure α) : generator.Transparent (liftExcept result) :=
  by cases result <;> exact transparent_of_eq fun _ => rfl

/-! ### Documents -/

/-- The cache after a loader was asked for the document of a source. -/
def asking (source : DocumentSource) (cache : Cache) : Cache :=
  { cache with asked := cache.asked ++ (OpenApi.identifier? source).toList }

theorem load_apply (generator : Generator) (source : DocumentSource) (cache : Cache) :
    generator.load source cache = match generator.loaders.load source with
      | .ok document => (.ok document,
        { asking source cache with documents := Keyed.insert source.name document cache.documents })
      | .error fault => (.error (.unloaded source.name fault), asking source cache) := by
  unfold load
  cases generator.loaders.load source <;> rfl

theorem document_apply (generator : Generator) (name : String) (cache : Cache) :
    generator.document name cache = match cache.documents.lookup name with
      | some document => (.ok document, cache)
      | none => match generator.sources.find? (·.name == name) with
        | some source => generator.load source cache
        | none => (.error (.unknownDocument name), cache) := by
  show (match cache.documents.lookup name with
    | some document => pure document
    | none => match generator.sources.find? (·.name == name) with
      | some source => generator.load source
      | none => throw (.unknownDocument name) : Step OpenApi.Document) cache = _
  cases cache.documents.lookup name with
  | some document => rfl
  | none => cases generator.sources.find? (·.name == name) <;> rfl

/-- A document that is not kept is asked for once, and kept if there is one. -/
theorem load_asks {source : DocumentSource}
    (hs : generator.sources.find? (·.name == source.name) = some source) (hc : generator.Faithful cache)
    (hm : cache.documents.lookup source.name = none) :
    generator.Faithful (generator.load source cache).2 ∧
      generator.Asks cache [source] (generator.load source cache).2 := by
  have hlog : (asking source cache).asked =
      cache.asked ++ [source].flatMap fun source => (OpenApi.identifier? source).toList := by
    rw [List.flatMap_singleton]
    rfl
  rw [load_apply]
  cases hl : generator.loaders.load source with
  | error fault =>
    refine ⟨⟨hc.sorted, hc.loaded⟩,
      hlog, by simpa using hs, by simpa using hm, List.pairwise_singleton .., ?_⟩
    simp [hl, asking]
  | ok document =>
    refine ⟨⟨hc.sorted.insert _ _, fun name other h => ?_⟩, hlog, by simpa using hs, by simpa using hm,
      List.pairwise_singleton .., fun name other => ?_⟩
    · rw [Keyed.lookup_insert] at h
      split at h
      · next hn =>
        cases h
        exact ⟨source, hn ▸ hs, hl⟩
      · exact hc.loaded name other h
    · rw [Keyed.lookup_insert]
      by_cases hn : name = source.name
      · subst hn
        simp [hl, hm]
      · simp [hn, Ne.symm hn]

theorem document_transparent (generator : Generator) (name : String) :
    generator.Transparent (generator.document name) := by
  intro cache hc
  have hfresh : generator.document name {} = match generator.sources.find? (·.name == name) with
      | some source => generator.load source {}
      | none => (.error (.unknownDocument name), {}) := document_apply generator name {}
  cases hl : cache.documents.lookup name with
  | some document =>
    -- It is kept, so a fresh cache has it after its source was asked for it.
    obtain ⟨source, hs, hd⟩ := hc.loaded name document hl
    obtain rfl : source.name = name := by simpa using List.find?_some hs
    have happly : generator.document source.name cache = (.ok document, cache) := by
      rw [document_apply, hl]
    rw [hs] at hfresh
    dsimp only at hfresh
    rw [load_apply, hd] at hfresh
    refine ⟨by rw [happly, hfresh], by rwa [happly], fun other => ?_, [], happly ▸ .refl generator cache⟩
    rw [happly, hfresh]
    dsimp only
    rw [Keyed.lookup_insert]
    split
    · next he => rw [he, hl, Option.some_or]
    · exact (Option.or_none).symm
  | none =>
    have happly := document_apply generator name cache
    rw [hl] at happly
    cases hf : generator.sources.find? (·.name == name) with
    | none =>
      rw [hf] at happly hfresh
      refine ⟨by rw [happly, hfresh], by rwa [happly], fun other => ?_, [], happly ▸ .refl generator cache⟩
      rw [happly, hfresh]
      exact (Option.or_none).symm
    | some source =>
      obtain rfl : source.name = name := by simpa using List.find?_some hf
      rw [hf] at happly hfresh
      dsimp only at happly hfresh
      obtain ⟨hfaithful, hasks⟩ := load_asks hf hc hl
      rw [← happly] at hfaithful hasks
      rw [load_apply] at happly hfresh
      refine ⟨?_, hfaithful, fun other => ?_, _, hasks⟩
      · rw [happly, hfresh]
        cases generator.loaders.load source <;> rfl
      · rw [happly, hfresh]
        cases generator.loaders.load source with
        | error => exact (Option.or_none).symm
        | ok document =>
          dsimp only
          rw [Keyed.lookup_insert, Keyed.lookup_insert]
          split
          · next he => rw [he, hl, Option.none_or]
          · exact (Option.or_none).symm

/-! ### Definitions -/

theorem addMappings_transparent (generator : Generator) (set : Pipeline.PluginSet)
    (resource : Config.Resource) (mappings : List Config.Mapping) (draft : Pipeline.Draft) :
    generator.Transparent (generator.addMappings set resource mappings draft) := by
  induction mappings generalizing draft with
  | nil => exact transparent_pure draft
  | cons mapping rest ih =>
    exact (document_transparent generator mapping.document).bind fun document =>
      (transparent_lift _).bind fun draft => ih draft

/-- **What is kept changes no definition.** -/
theorem generate_transparent (generator : Generator) (resource : Config.Resource) :
    generator.Transparent (generator.generate resource) := by
  unfold generate
  cases Pipeline.repeated? [] resource.majorVersions with
  | some majorVersion => exact transparent_throw _
  | none =>
    exact (transparent_lift _).bind fun set => (transparent_lift _).bind fun draft =>
      (addMappings_transparent generator set resource _ draft).bind fun draft => transparent_pure _

theorem generateEach_transparent (generator : Generator) (failFast : Bool) (output : Output)
    (resources : List Config.Resource) :
    generator.Transparent (generator.generateEach failFast output resources) := by
  induction resources generalizing output with
  | nil => exact transparent_pure output
  | cons resource rest ih =>
    refine .bind (.recover ?_ fun failure => ?_) ih
    · exact (generate_transparent generator resource).bind fun generated => transparent_pure _
    · cases failFast
      · exact transparent_pure _
      · exact transparent_throw _

/-! ### Many definitions -/

/-- The cache after definitions were made one after another, or not. -/
def cacheAfter (generator : Generator) (cache : Cache) (resources : List Config.Resource) : Cache :=
  resources.foldl (fun cache resource => (generator.generate resource cache).2) cache

/-- The definition of a resource, or why there is none, if nothing was made before. -/
def alone (generator : Generator) (resource : Config.Resource) : Except Failure Generated :=
  (generator.generate resource {}).1

/-- Why there is no definition of a resource. -/
def failure? (generator : Generator) (resource : Config.Resource) : Option Failure :=
  match generator.alone resource with
  | .ok _ => none
  | .error failure => some failure

/-- The document of a name, if it is loaded for a resource. -/
def loaded? (generator : Generator) (name : String) (resource : Config.Resource) : Option OpenApi.Document :=
  (generator.generate resource {}).2.documents.lookup name

theorem cacheAfter_append (generator : Generator) (cache : Cache) (earlier resources : List Config.Resource) :
    generator.cacheAfter cache (earlier ++ resources) =
      generator.cacheAfter (generator.cacheAfter cache earlier) resources :=
  List.foldl_append

/-- What is kept after definitions were made is what was kept before and what was loaded for them. -/
theorem cacheAfter_spec (hc : generator.Faithful cache) (resources : List Config.Resource) :
    generator.Faithful (generator.cacheAfter cache resources) ∧
      (∀ name, (generator.cacheAfter cache resources).documents.lookup name =
        (cache.documents.lookup name).or (resources.findSome? (generator.loaded? name))) ∧
      ∃ asks, generator.Asks cache asks (generator.cacheAfter cache resources) := by
  induction resources generalizing cache with
  | nil => exact ⟨hc, fun name => (Option.or_none).symm, [], .refl generator cache⟩
  | cons resource rest ih =>
    have hstep := generate_transparent generator resource cache hc
    obtain ⟨asks, hasks⟩ := hstep.asks
    obtain ⟨hfaithful, hdocuments, others, hothers⟩ := ih hstep.faithful
    refine ⟨hfaithful, fun name => ?_, asks ++ others, hasks.trans hothers⟩
    have hname := hdocuments name
    rw [hstep.documents, Option.or_assoc] at hname
    rw [List.findSome?_cons]
    refine hname.trans (congrArg _ ?_)
    show (generator.loaded? name resource).or _ = _
    cases generator.loaded? name resource <;> rfl

/-- What is reported of a resource. -/
def record (generator : Generator) (output : Output) (resource : Config.Resource) : Output :=
  match generator.alone resource with
  | .ok generated => output.withDefinition generated
  | .error failure => output.withFailure resource.kind failure

theorem generateEach_cons (failFast : Bool) (output : Output) (resource : Config.Resource)
    (rest : List Config.Resource) (hc : generator.Faithful cache) :
    generator.generateEach failFast output (resource :: rest) cache =
      match (if failFast then generator.failure? resource else none) with
      | some failure => (.error failure, (generator.generate resource cache).2)
      | none => generator.generateEach failFast (generator.record output resource) rest
        (generator.generate resource cache).2 := by
  have hresult : (generator.generate resource cache).1 = generator.alone resource :=
    (generate_transparent generator resource cache hc).result
  rw [generateEach, bind_eq, tryCatch_eq, map_eq, failure?, record, ← hresult]
  rcases generator.generate resource cache with ⟨_ | _, _⟩ <;> cases failFast <;> rfl

/-- A failure ends everything if the first one does, and is reported otherwise. -/
theorem generateEach_result (failFast : Bool) (output : Output) (resources : List Config.Resource)
    (hc : generator.Faithful cache) :
    (generator.generateEach failFast output resources cache).1 =
      match (if failFast then resources.findSome? generator.failure? else none) with
      | some failure => .error failure
      | none => .ok (resources.foldl generator.record output) := by
  induction resources generalizing output cache with
  | nil => cases failFast <;> rfl
  | cons resource rest ih =>
    have hnext := (generate_transparent generator resource cache hc).faithful
    rw [generateEach_cons failFast output resource rest hc, List.findSome?_cons]
    cases failFast with
    | false => exact ih _ hnext
    | true =>
      cases generator.failure? resource with
      | some failure => rfl
      | none => exact ih _ hnext

theorem generateEach_cache (output : Output) (resources : List Config.Resource)
    (hc : generator.Faithful cache) :
    (generator.generateEach false output resources cache).2 = generator.cacheAfter cache resources := by
  induction resources generalizing output cache with
  | nil => rfl
  | cons resource rest ih =>
    rw [generateEach_cons false output resource rest hc]
    exact ih _ (generate_transparent generator resource cache hc).faithful

theorem generateEach_of_no_failure (output : Output) (resources : List Config.Resource)
    (hc : generator.Faithful cache) (hf : resources.findSome? generator.failure? = none) :
    generator.generateEach true output resources cache =
      generator.generateEach false output resources cache := by
  induction resources generalizing output cache with
  | nil => rfl
  | cons resource rest ih =>
    rw [List.findSome?_cons] at hf
    rw [generateEach_cons true output resource rest hc, generateEach_cons false output resource rest hc]
    cases hr : generator.failure? resource with
    | some failure =>
      rw [hr] at hf
      cases hf
    | none =>
      rw [hr] at hf
      exact ih _ (generate_transparent generator resource cache hc).faithful hf

/-! ### Reports -/

/-- Adds the digests of documents that were loaded. -/
def withDigests (output : Output) (cache : Cache) : Output :=
  { output with report := { output.report with
      documents := cache.documents.map fun (name, document) => (name, documentDigest document) } }

theorem generateAll_eq (generator : Generator) (resources : List Config.Resource)
    (failFast : Bool) (cache : Cache) :
    generator.generateAll resources failFast cache =
      match generator.generateEach failFast {} resources cache with
      | (.ok output, cache) => (.ok (withDigests output cache), cache)
      | (.error failure, cache) => (.error failure, cache) := by
  rw [generateAll, bind_eq]
  rcases generator.generateEach failFast {} resources cache with ⟨_ | _, _⟩ <;> rfl

/-- What is reported of resources that are made after others. -/
structure Reports (generator : Generator) (earlier resources : List Config.Resource)
    (output : Output) : Prop where
  definitions : output.definitions = resources.filterMap fun resource =>
    (generator.alone resource).toOption.map (·.definition)
  names : output.report.names = output.definitions.map (·.name)
  warnings : output.report.warnings = resources.flatMap fun resource =>
    match generator.alone resource with
    | .ok generated => generated.findings.map (generated.definition.name ++ ": " ++ ·)
    | .error _ => []
  failures : output.report.failures = resources.filterMap fun resource =>
    (generator.failure? resource).map (resource.kind ++ ": " ++ ·.message)
  sorted : Keyed.Sorted output.report.documents
  documents : ∀ name, output.report.documents.lookup name =
    ((earlier ++ resources).findSome? (generator.loaded? name)).map documentDigest

theorem record_all (generator : Generator) (resources : List Config.Resource) :
    let output := resources.foldl generator.record {}
    (output.definitions = resources.filterMap fun resource =>
      (generator.alone resource).toOption.map (·.definition)) ∧
      output.report.names = output.definitions.map (·.name) ∧
      (output.report.warnings = resources.flatMap fun resource =>
        match generator.alone resource with
        | .ok generated => generated.findings.map (generated.definition.name ++ ": " ++ ·)
        | .error _ => []) ∧
      output.report.failures = resources.filterMap fun resource =>
        (generator.failure? resource).map (resource.kind ++ ": " ++ ·.message) := by
  induction resources using List.reverseRecOn with
  | nil => exact ⟨rfl, rfl, rfl, rfl⟩
  | append_singleton resources resource ih =>
    obtain ⟨hdefinitions, hnames, hwarnings, hfailures⟩ := ih
    rw [List.foldl_append, List.foldl_cons, List.foldl_nil, List.filterMap_append, List.filterMap_append,
      List.flatMap_append, List.filterMap_cons, List.filterMap_cons, List.flatMap_singleton, record, failure?]
    cases generator.alone resource with
    | ok generated =>
      refine ⟨congrArg (· ++ [_]) hdefinitions, ?_, congrArg (· ++ List.map _ _) hwarnings, ?_⟩
      · show _ ++ [_] = List.map _ (_ ++ [_])
        rw [List.map_append, hnames]
        rfl
      · exact hfailures.trans (List.append_nil _).symm
    | error failure =>
      refine ⟨hdefinitions.trans (List.append_nil _).symm, hnames,
        hwarnings.trans (List.append_nil _).symm, ?_⟩
      exact congrArg (· ++ [_]) hfailures

/-- Digests are reported of the documents that are kept in the end, and of no others. -/
theorem generateAll_digests {resources : List Config.Resource} {failFast : Bool} {output : Output}
    (h : generator.generateAll resources failFast cache = (.ok output, after)) :
    output.report.documents =
      after.documents.map fun (name, document) => (name, documentDigest document) := by
  rw [generateAll_eq] at h
  generalize generator.generateEach failFast {} resources cache = made at h
  rcases made with ⟨_ | _, _⟩
  · cases h
  · cases h
    rfl

theorem generateAll_asks (hc : generator.Faithful cache) (resources : List Config.Resource)
    (failFast : Bool) :
    ∃ asks, generator.Asks cache asks (generator.generateAll resources failFast cache).2 := by
  obtain ⟨asks, hasks⟩ := (generateEach_transparent generator failFast {} resources cache hc).asks
  refine ⟨asks, ?_⟩
  rw [generateAll_eq]
  generalize generator.generateEach failFast {} resources cache = made at hasks
  rcases made with ⟨_ | _, after⟩ <;> exact hasks

/-- Failures that are to be reported end nothing. -/
theorem generateAll_false (hc : generator.Faithful cache) (resources : List Config.Resource) :
    generator.generateAll resources false cache =
      (.ok (withDigests (resources.foldl generator.record {}) (generator.cacheAfter cache resources)),
        generator.cacheAfter cache resources) := by
  have hmade : generator.generateEach false {} resources cache =
      (.ok (resources.foldl generator.record {}), generator.cacheAfter cache resources) :=
    Prod.ext (generateEach_result false {} resources hc) (generateEach_cache {} resources hc)
  rw [generateAll_eq, hmade]

/-- The first failure is the result, if it is to end everything. -/
theorem generateAll_true (hc : generator.Faithful cache) (resources : List Config.Resource) :
    (generator.generateAll resources true cache).1 =
      match resources.findSome? generator.failure? with
      | some failure => .error failure
      | none => (generator.generateAll resources false cache).1 := by
  cases hf : resources.findSome? generator.failure? with
  | some failure =>
    have hresult := generateEach_result true {} resources hc
    rw [if_pos rfl, hf] at hresult
    rw [generateAll_eq]
    generalize generator.generateEach true {} resources cache = made at hresult
    obtain ⟨result, after⟩ := made
    dsimp only at hresult
    subst hresult
    rfl
  | none => rw [generateAll_eq, generateAll_eq, generateEach_of_no_failure {} resources hc hf]

theorem withDigests_reports (generator : Generator) (earlier resources : List Config.Resource) :
    generator.Reports earlier resources
      (withDigests (resources.foldl generator.record {})
        (generator.cacheAfter {} (earlier ++ resources))) := by
  obtain ⟨hdefinitions, hnames, hwarnings, hfailures⟩ := record_all generator resources
  obtain ⟨hfaithful, hdocuments, -⟩ := cacheAfter_spec (fresh_faithful generator) (earlier ++ resources)
  refine ⟨hdefinitions, hnames, hwarnings, hfailures, hfaithful.sorted.map _, fun name => ?_⟩
  exact (Keyed.lookup_map documentDigest _ name).trans (congrArg _ (hdocuments name))

/-- **What is made does not depend on what was made before.** The documents that are reported are those
that are kept in the end, which are the ones that loaders were asked for and gave. -/
theorem generations_isolated (generator : Generator) (earlier resources : List Config.Resource) :
    let cache := generator.cacheAfter {} earlier
    (∀ resource, (generator.generate resource cache).1 = generator.alone resource) ∧
      (∃ output, (generator.generateAll resources false cache).1 = .ok output ∧
        generator.Reports earlier resources output) ∧
      ((generator.generateAll resources true cache).1 =
        match resources.findSome? generator.failure? with
        | some failure => .error failure
        | none => (generator.generateAll resources false cache).1) ∧
      (∀ failFast, ∃ asks, generator.Asks {} asks (generator.generateAll resources failFast cache).2) ∧
      ∀ failFast output after, generator.generateAll resources failFast cache = (.ok output, after) →
        output.report.documents =
          after.documents.map fun (name, document) => (name, documentDigest document) := by
  intro cache
  obtain ⟨hc, -, asks, hasks⟩ := cacheAfter_spec (fresh_faithful generator) earlier
  have hreports := withDigests_reports generator earlier resources
  rw [cacheAfter_append] at hreports
  refine ⟨fun resource => (generate_transparent generator resource cache hc).result,
    ⟨_, congrArg Prod.fst (generateAll_false hc resources), hreports⟩, generateAll_true hc resources,
    fun failFast => ?_, fun failFast output after => generateAll_digests⟩
  obtain ⟨others, hothers⟩ := generateAll_asks hc resources failFast
  exact ⟨asks ++ others, hasks.trans hothers⟩

end Generator

end CrdForge.Generation
