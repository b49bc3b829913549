import CrdForge.Config.Store
import CrdForge.Proofs.Host.Writing
import CrdForge.Proofs.Yaml.Shown

/-! Configurations survive being saved.

Each part of a configuration is restored from what is written for it: what is written is given once, and
what is left out is what the reader takes for missing. So is the whole, which therefore passes its check
again, as a tree and as a file. -/
namespace CrdForge.Config

open Yaml (Document Tree)
open Yaml.Reading (Reads Restores reads_fields reads_pure restores_text restores_flag restores_texts)

theorem DocumentSource.restores : Restores toJson ofTree := by
  intro source tree h
  obtain ⟨given, hr, hg⟩ := reads_fields h
  refine hr.bind ?_
  refine (hg.required (restores_text source.name) (by simp)).bind ?_
  refine (hg.optional source.path (by simp)).bind ?_
  refine (hg.optional source.package (by simp)).bind ?_
  exact reads_pure source

theorem mimeType_restores :
    Restores (fun mimeType => .object [("mimeType", .string mimeType)]) mimeTypeOfTree := by
  intro mimeType tree h
  obtain ⟨given, hr, hg⟩ := reads_fields h
  exact hr.bind (hg.field (restores_text mimeType) rfl)

theorem Endpoint.restores : Restores toJson ofTree := by
  intro endpoint tree h
  obtain ⟨given, hr, hg⟩ := reads_fields h
  refine hr.bind ?_
  refine (hg.field (restores_text endpoint.name) rfl).bind ?_
  refine (hg.field (restores_text endpoint.verb) rfl).bind ?_
  refine (hg.field (mimeType_restores endpoint.mimeType) rfl).bind ?_
  exact reads_pure endpoint

theorem Filters.restores : Restores toJson ofTree := by
  intro filters tree h
  obtain ⟨given, hr, hg⟩ := reads_fields h
  refine hr.bind ?_
  refine (hg.field (restores_flag filters.readOnly) rfl).bind ?_
  refine (hg.field (restores_flag filters.readWriteOnly) rfl).bind ?_
  refine (hg.field (restores_texts filters.skipped) rfl).bind ?_
  refine (hg.field (restores_texts filters.sensitive) rfl).bind ?_
  exact reads_pure filters

/-- An empty group is left out and read for a missing one. -/
theorem TargetType.restores : Restores toJson ofTree := by
  intro type tree h
  obtain ⟨given, hr, hg⟩ := reads_fields h
  have hgroup : Reads (Yaml.Reading.field given "group" "" Yaml.Reading.text) type.group := by
    by_cases he : type.group = ""
    · rw [he]
      exact hg.absent "" _ (by simp [he])
    · exact hg.field (restores_text type.group) (by simp [he])
  refine hr.bind ?_
  refine (hg.required (restores_text type.kind) (by split <;> rfl)).bind ?_
  refine hgroup.bind ?_
  refine (hg.required (restores_text type.version) (by split <;> rfl)).bind ?_
  refine (hg.required (restores_text type.resource) (by split <;> rfl)).bind ?_
  exact reads_pure type

theorem Target.restores : Restores toJson ofTree := by
  intro target tree h
  obtain ⟨given, hr, hg⟩ := reads_fields h
  refine hr.bind ?_
  refine (hg.required (TargetType.restores target.type) rfl).bind ?_
  refine (hg.field (restores_texts target.properties) rfl).bind ?_
  exact reads_pure target

theorem Reference.restores : Restores toJson ofTree := by
  intro reference tree h
  obtain ⟨given, hr, hg⟩ := reads_fields h
  refine hr.bind ?_
  refine (hg.required (restores_text reference.name) rfl).bind ?_
  refine (hg.required (restores_text reference.property) rfl).bind ?_
  refine (hg.required (Target.restores reference.target) rfl).bind ?_
  exact reads_pure reference

theorem Selection.restores : Restores toJson ofTree := by
  intro selection tree h
  obtain ⟨given, hr, hg⟩ := reads_fields h
  refine hr.bind ?_
  refine (hg.optional selection.schema (by simp)).bind ?_
  refine (hg.field (Endpoint.restores selection.endpoint) (by simp)).bind ?_
  refine (hg.field (Filters.restores selection.filters) (by simp)).bind ?_
  refine (hg.field (Reference.restores.list selection.references) (by simp)).bind ?_
  exact reads_pure selection

theorem documentName_restores :
    Restores (fun name => .object [("name", .string name)]) documentNameOfTree := by
  intro name tree h
  obtain ⟨given, hr, hg⟩ := reads_fields h
  exact hr.bind (hg.required (restores_text name) rfl)

theorem Mapping.restores : Restores toJson ofTree := by
  intro mapping tree h
  obtain ⟨given, hr, hg⟩ := reads_fields h
  refine hr.bind ?_
  refine (hg.required (restores_text mapping.majorVersion) rfl).bind ?_
  refine (hg.required (documentName_restores mapping.document) rfl).bind ?_
  refine (hg.field (Selection.restores mapping.parameters) rfl).bind ?_
  refine (hg.field (Selection.restores mapping.entry) rfl).bind ?_
  refine (hg.field (Selection.restores mapping.status) rfl).bind ?_
  exact reads_pure mapping

theorem gvk_restores : Restores (fun ((group, version, kind) : String × String × String) =>
    .object [("group", .string group), ("version", .string version), ("kind", .string kind)]) gvkOfTree := by
  rintro ⟨group, version, kind⟩ tree h
  obtain ⟨given, hr, hg⟩ := reads_fields h
  refine hr.bind ?_
  refine (hg.required (restores_text group) rfl).bind ?_
  refine (hg.required (restores_text version) rfl).bind ?_
  refine (hg.required (restores_text kind) rfl).bind ?_
  exact reads_pure (group, version, kind)

theorem Resource.restores : Restores toJson ofTree := by
  intro resource tree h
  obtain ⟨given, hr, hg⟩ := reads_fields h
  refine hr.bind ?_
  refine (hg.required (gvk_restores (resource.group, resource.version, resource.kind)) (by simp)).bind ?_
  refine (hg.field (restores_texts resource.categories) (by simp)).bind ?_
  refine (hg.field (restores_texts resource.shortNames) (by simp)).bind ?_
  refine (hg.optional resource.pluginSet (by simp)).bind ?_
  refine (hg.field (Mapping.restores.list resource.mappings) (by simp)).bind ?_
  exact reads_pure resource

theorem SetDeclaration.restores : Restores toJson ofTree := by
  intro declaration tree h
  obtain ⟨given, hr, hg⟩ := reads_fields h
  refine hr.bind ?_
  refine (hg.required (restores_text declaration.name) (by simp)).bind ?_
  refine (hg.field (restores_flag declaration.default) (by simp)).bind ?_
  refine (hg.optional declaration.inherit (by simp)).bind ?_
  refine (hg.field (restores_texts declaration.plugins) (by simp)).bind ?_
  exact reads_pure declaration

/-- What a configuration says besides its kind and version. -/
theorem body_restores (config : Config) {tree : Tree} (h : tree.shows (.object [
      ("openapi", .array (config.documents.map DocumentSource.toJson)),
      ("crd", .array (config.resources.map Resource.toJson)),
      ("pluginSets", .array (config.sets.map SetDeclaration.toJson)),
      ("failFast", .bool config.failFast)]) = true) :
    Reads (bodyOfTree config.kind config.apiVersion tree) config := by
  obtain ⟨given, hr, hg⟩ := reads_fields h
  refine hr.bind ?_
  refine (hg.field (DocumentSource.restores.list config.documents) rfl).bind ?_
  refine (hg.field (Resource.restores.list config.resources) rfl).bind ?_
  refine (hg.field (SetDeclaration.restores.list config.sets) rfl).bind ?_
  refine (hg.field (restores_flag config.failFast) rfl).bind ?_
  exact reads_pure config

theorem restores : Restores toJson ofTree := by
  intro config tree h
  obtain ⟨given, hr, hg⟩ := reads_fields h
  refine hr.bind ?_
  refine (hg.required (restores_text config.kind) rfl).bind ?_
  refine (hg.required (restores_text config.apiVersion) rfl).bind ?_
  exact hg.required (fun _ hs => body_restores config hs) rfl

/-! ### Configurations in files -/

theorem run_of_shows (config : Config) {document : Document} (h : document.root.shows config.toJson = true) :
    Yaml.Reading.run ofTree document = .ok config := by
  rw [Yaml.Reading.run, restores config document.root h]
  rfl

/-- What is written for a configuration is read as that configuration, if it may be used. -/
theorem read_of_shows {config : Config} (hc : config.check = .ok ()) {source : String} {document : Document}
    (hd : Document.read source = .ok document) (h : document.root.shows config.toJson = true) :
    read source = .ok config := by
  rw [read, hd]
  show (((Yaml.Reading.run ofTree document).mapError fun misfit => Fault.unparsable misfit.message).bind
    fun config => config.check.bind fun _ => .ok config) = _
  rw [run_of_shows config h]
  show (config.check.bind fun _ => .ok config) = _
  rw [hc]
  rfl

theorem load_of_read {files : Host.FileSystem} {name content : String} (h : files.read name = .ok content) :
    load files name = read content := by
  rw [load, h]
  rfl

theorem load_of_save {config : Config} (hc : config.check = .ok ())
    {files files' : Host.FileSystem} {name : String} (hs : config.save name files = (.ok (), files'))
    {document : Document} (hd : Document.read config.text = .ok document)
    (h : document.root.shows config.toJson = true) :
    load files' name = .ok config := by
  rw [load_of_read (Host.read_of_writeFile (Run.adapt_ok hs))]
  exact read_of_shows hc hd h

theorem check_of_read {source : String} {config : Config} (h : read source = .ok config) :
    config.check = .ok () := by
  obtain ⟨_, _, h⟩ := Run.except_bind_ok h
  obtain ⟨_, _, h⟩ := Run.except_bind_ok h
  obtain ⟨_, hc, h⟩ := Run.except_bind_ok h
  obtain rfl := Except.ok.inj h
  exact hc

/-- **A configuration that was read is read again after it was saved.** There is a tree that shows what
is written for it, and from each such tree the same configuration is read, which passes its check. So it
is loaded from the file to which it was saved, if the text there is read as such a tree. -/
theorem saving_restores {source : String} {config : Config} (h : read source = .ok config) :
    (Tree.ofJson config.toJson).shows config.toJson = true ∧
    (∀ document : Document, document.root.shows config.toJson = true →
      Yaml.Reading.run ofTree document = .ok config) ∧
    config.check = .ok () ∧
    ∀ (files files' : Host.FileSystem) (name : String) (document : Document),
      config.save name files = (.ok (), files') → Document.read config.text = .ok document →
      document.root.shows config.toJson = true → load files' name = .ok config := by
  have hc := check_of_read h
  refine ⟨Yaml.shows_ofJson _, fun document => run_of_shows config, hc, ?_⟩
  intro files files' name document hs hd hshows
  exact load_of_save hc hs hd hshows

/-- A text that leaves most of a configuration out and sets some of it to nothing. -/
def sparseText : String :=
  "\x7bkind: Config, apiVersion: atlas2crd.mongodb.com/v1alpha1, " ++
    "spec: \x7bopenapi: [\x7bname: d, path: p\x7d], " ++
    "crd: [\x7bgvk: \x7bgroup: g, version: v, kind: K\x7d, categories: , pluginSet: ''\x7d]\x7d\x7d"

def sparse : Config where
  kind := "Config"
  apiVersion := "atlas2crd.mongodb.com/v1alpha1"
  documents := [{ name := "d", path := some "p" }]
  resources := [{ group := "g", version := "v", kind := "K", pluginSet := some "" }]

theorem sparse_restored : read sparseText = .ok sparse ∧
    Yaml.Reading.run ofTree ⟨Tree.ofJson sparse.toJson, [], 40⟩ = .ok sparse := by
  have h : read sparseText = .ok sparse := by decide +kernel
  obtain ⟨hshows, hrun, -⟩ := saving_restores h
  exact ⟨h, hrun ⟨Tree.ofJson sparse.toJson, [], 40⟩ hshows⟩

end CrdForge.Config
