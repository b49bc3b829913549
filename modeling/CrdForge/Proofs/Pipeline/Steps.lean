import CrdForge.Proofs.Conversion.Shape
import CrdForge.Proofs.Pipeline.Parts

/-! What plugins for a version do to the parts of a draft.

For each plugin there is a relation between the parts before it and after it
that says everything it may do when it succeeds, and a theorem that it does
nothing else. What a whole definition satisfies is proved from these. -/
namespace CrdForge.Pipeline

open Extension (NodeId Tree)
open Run

/-! ### Parts of a step -/

namespace Job

/-- How the conversions of a selection are done. -/
def setting (job : Job) (selection : Config.Selection) : Conversion.Setting :=
  ⟨job.document, selection.filters, job.filters⟩

/-- The conversion of a schema of a selection at a node. -/
def conversion (job : Job) (selection : Config.Selection) (schema : OpenApi.Schema) (node : NodeId) :
    Conversion.Step (Option Crd.Schema) :=
  Conversion.convert (job.setting selection) ⟨some schema, node, [Path.root]⟩ 0

/-- What is made of a schema does not depend on the annotations. -/
theorem conversion_shape {job : Job} {selection : Config.Selection} {schema : OpenApi.Schema} {node : NodeId}
    {tree after : Tree} {result : Option Crd.Schema}
    (h : job.conversion selection schema node tree = (result, after)) :
    Conversion.shapeWithin (job.setting selection) Conversion.maxDepth schema [Path.root] = result :=
  (Conversion.convertWithin_fst (job.setting selection) Conversion.maxDepth ⟨some schema, node, [Path.root]⟩
    tree).symm.trans (congrArg Prod.fst h)

end Job

namespace Parts

/-- The parts with another schema for a version. -/
def withVersion (parts : Parts) (job : Job) (version : Crd.Schema) : Parts :=
  { parts with spec := parts.spec.insert job.majorVersion version }

/-- What is asked for by the version that plugins work on. -/
def version? (parts : Parts) (job : Job) : Option Crd.Schema := parts.spec.property? job.majorVersion

theorem withVersion_withVersion (parts : Parts) (job : Job) (first second : Crd.Schema) :
    (parts.withVersion job first).withVersion job second = parts.withVersion job second := by
  simp [withVersion, Crd.Schema.insert]

theorem version?_withVersion (parts : Parts) (job : Job) (version : Crd.Schema) :
    (parts.withVersion job version).version? job = some version := (Keyed.lookup_insert ..).trans (if_pos rfl)

@[simp] theorem version?_withTree (parts : Parts) (job : Job) (tree : Tree) :
    (parts.withTree tree).version? job = parts.version? job := rfl

end Parts

/-! ### Nodes -/

/-- The node of the version with all that leads to it. -/
def versionNode (job : Job) (parts : Parts) : NodeId × Tree :=
  parts.tree.descend Tree.root [specPart, job.majorVersion]

/-- The node of a parameter, made if there is none. -/
def parameterNode (node : NodeId) (parameter : OpenApi.Parameter) (parts : Parts) : NodeId × Tree :=
  parts.tree.child node parameter.name

/-- The node of the entry with all that leads to it. -/
def entryNode (job : Job) (parts : Parts) : NodeId × Tree :=
  parts.tree.descend Tree.root [specPart, job.majorVersion, entryPart]

/-- The node of the status of the version with all that leads to it. -/
def statusNode (job : Job) (parts : Parts) : NodeId × Tree :=
  parts.tree.descend Tree.root [statusPart, job.majorVersion]

section
variable {resource : Config.Resource} {job : Job} {parts : Parts} {after : Draft}

theorem readVersion_draft (job : Job) (resource : Config.Resource) (parts : Parts) :
    readVersion job (parts.draft resource) = (match parts.version? job with
      | some version => .ok version
      | none => .error (.versionNotFound job.majorVersion), parts.draft resource) := by
  rw [readVersion, bind_eq, Parts.readPart_spec, Parts.version?]
  dsimp only
  cases parts.spec.property? job.majorVersion <;> rfl

theorem readVersion_ok {version : Crd.Schema}
    (h : readVersion job (parts.draft resource) = (.ok version, after)) :
    parts.version? job = some version ∧ after = parts.draft resource := by
  rw [readVersion_draft] at h
  cases hv : parts.version? job with
  | none =>
    rw [hv] at h
    cases h
  | some found =>
    rw [hv] at h
    obtain ⟨rfl, rfl⟩ := ok_ok h
    exact ⟨rfl, rfl⟩

theorem writeVersion_draft (version : Crd.Schema) :
    writeVersion job version (parts.draft resource) =
      (.ok (), (parts.withVersion job version).draft resource) := rfl

theorem convert_draft (selection : Config.Selection) (schema : OpenApi.Schema) (node : NodeId) :
    convert job selection schema node (parts.draft resource) =
      (.ok (job.conversion selection schema node parts.tree).1,
        (parts.withTree (job.conversion selection schema node parts.tree).2).draft resource) := rfl

theorem nodeAt_draft (path : List String) : nodeAt path (parts.draft resource) =
    (.ok (parts.tree.descend Tree.root path).1,
      (parts.withTree (parts.tree.descend Tree.root path).2).draft resource) := rfl

theorem versionNode_draft : nodeAt [specPart, job.majorVersion] (parts.draft resource) =
    (.ok (versionNode job parts).1, (parts.withTree (versionNode job parts).2).draft resource) := by
  unfold versionNode
  exact nodeAt_draft _

theorem entryNode_draft : nodeAt [specPart, job.majorVersion, entryPart] (parts.draft resource) =
    (.ok (entryNode job parts).1, (parts.withTree (entryNode job parts).2).draft resource) := by
  unfold entryNode
  exact nodeAt_draft _

theorem statusNode_draft : nodeAt [statusPart, job.majorVersion] (parts.draft resource) =
    (.ok (statusNode job parts).1, (parts.withTree (statusNode job parts).2).draft resource) := by
  unfold statusNode
  exact nodeAt_draft _

theorem nodeBelow_draft (parent : NodeId) (name : String) : nodeBelow parent name (parts.draft resource) =
    (.ok (parts.tree.child parent name).1,
      (parts.withTree (parts.tree.child parent name).2).draft resource) := rfl

theorem parameterNode_draft {node : NodeId} {parameter : OpenApi.Parameter} :
    nodeBelow node parameter.name (parts.draft resource) =
      (.ok (parameterNode node parameter parts).1,
        (parts.withTree (parameterNode node parameter parts).2).draft resource) := rfl

end

/-! ### What is asked for -/

/-- A version before anything is listed for it. -/
def emptyVersion (job : Job) : Crd.Schema :=
  .object ("The spec of the " ++ job.lowerKind ++ " resource for version " ++ job.majorVersion ++ ".")

/-- The schema of a parameter that is not about pages or formats. -/
def parameterSchema? (parameter : OpenApi.Parameter) : Option OpenApi.Schema :=
  if ignoredParameters.contains parameter.name then none else parameter.schema

theorem schema_of_parameterSchema? {parameter : OpenApi.Parameter} {schema : OpenApi.Schema}
    (h : parameterSchema? parameter = some schema) : parameter.schema = some schema := by
  rw [parameterSchema?] at h
  split at h
  · cases h
  · exact h

/-- A parameter is passed over, left out because its schema has no conversion, or listed. -/
inductive ParameterStep (job : Job) (node : NodeId) (parameter : OpenApi.Parameter) : Parts → Parts → Prop
  | passed (parts : Parts) : parameterSchema? parameter = none → ParameterStep job node parameter parts parts
  | left {parts : Parts} {schema : OpenApi.Schema} {tree : Tree} :
    parameterSchema? parameter = some schema →
    job.conversion job.mapping.parameters schema (parameterNode node parameter parts).1
      (parameterNode node parameter parts).2 = (none, tree) →
    ParameterStep job node parameter parts (parts.withTree tree)
  | listed {parts : Parts} {schema : OpenApi.Schema} {tree : Tree} {converted version : Crd.Schema} :
    parameterSchema? parameter = some schema →
    job.conversion job.mapping.parameters schema (parameterNode node parameter parts).1
      (parameterNode node parameter parts).2 = (some converted, tree) →
    parts.version? job = some version →
    ParameterStep job node parameter parts
      ((parts.withTree tree).withVersion job (withParameter parameter converted version))

/-- Parameters are listed one after another, if the selection names an operation. -/
inductive ParametersStep (job : Job) : Parts → Parts → Prop
  | unset (parts : Parts) : job.mapping.parameters.endpoint.isSet = false → ParametersStep job parts parts
  | set {parts after : Parts} {parameters : List OpenApi.Parameter} :
    job.mapping.parameters.endpoint.isSet = true →
    endpointParameters job.document job.mapping.parameters.endpoint = .ok parameters →
    Each (ParameterStep job (versionNode job parts).1) (parameters.filterMap job.document.resolveParameter)
      (parts.withTree (versionNode job parts).2) after →
    ParametersStep job parts after

/-- A converted entry has a description of its own. -/
def described (description : String) (converted : Crd.Schema) : Crd.Schema :=
  { converted with description := some description }

/-- The entry is listed, if it has a source. -/
inductive EntryStep (job : Job) : Parts → Parts → Prop
  | unset (parts : Parts) : sourceSchema job.document job.mapping.entry entryPart = .ok none →
    EntryStep job parts parts
  | listed {parts : Parts} {schema : OpenApi.Schema} {tree : Tree} {converted version : Crd.Schema}
    (description : String) :
    sourceSchema job.document job.mapping.entry entryPart = .ok (some schema) →
    job.conversion job.mapping.entry schema (entryNode job parts).1 (entryNode job parts).2 =
      (some converted, tree) →
    parts.version? job = some version →
    EntryStep job parts
      ((parts.withTree tree).withVersion job (version.insert entryPart (described description converted)))

/-- The status has no source, is left out because its source has no conversion, or is listed. -/
inductive StatusStep (job : Job) : Parts → Parts → Prop
  | unset (parts : Parts) : sourceSchema job.document job.mapping.status statusPart = .ok none →
    StatusStep job parts parts
  | left {parts : Parts} {schema : OpenApi.Schema} {tree : Tree} :
    sourceSchema job.document job.mapping.status statusPart = .ok (some schema) →
    job.conversion job.mapping.status schema (statusNode job parts).1
      (statusNode job parts).2 = (none, tree) →
    StatusStep job parts (parts.withTree tree)
  | listed {parts : Parts} {schema : OpenApi.Schema} {tree : Tree} {converted : Crd.Schema}
    (description : String) :
    sourceSchema job.document job.mapping.status statusPart = .ok (some schema) →
    job.conversion job.mapping.status schema (statusNode job parts).1 (statusNode job parts).2 =
      (some converted, tree) →
    StatusStep job parts
      (({ parts with status := parts.status.insert job.majorVersion (described description converted) } :
        Parts).withTree tree)

/-- References are listed in the version, and those of the entry in the entry. -/
inductive ReferencesStep (job : Job) : Parts → Parts → Prop
  | unset (parts : Parts) : job.mapping.parameters.references = [] → job.mapping.entry.references = [] →
    ReferencesStep job parts parts
  | version {parts : Parts} {version listed : Crd.Schema} :
    parts.version? job = some version → job.mapping.entry.references = [] →
    withReferences version job.mapping.parameters.references = (listed, none) →
    ReferencesStep job parts (parts.withVersion job listed)
  | entry {parts : Parts} {version listed entry whole : Crd.Schema} :
    parts.version? job = some version → job.mapping.entry.references ≠ [] →
    withReferences version job.mapping.parameters.references = (listed, none) →
    listed.property? entryPart = some entry →
    withReferences entry job.mapping.entry.references = (whole, none) →
    ReferencesStep job parts (parts.withVersion job (listed.insert entryPart whole))

section
variable {resource : Config.Resource} {job : Job} {parts : Parts} {after : Draft}

theorem addParameter_ok {node : NodeId} {parameter : OpenApi.Parameter}
    (h : addParameter job node parameter (parts.draft resource) = (.ok (), after)) :
    ∃ parts', after = parts'.draft resource ∧ ParameterStep job node parameter parts parts' := by
  rw [addParameter] at h
  split at h
  · next hi =>
    obtain ⟨_, rfl⟩ := pure_ok h
    exact ⟨parts, rfl, .passed parts (if_pos hi)⟩
  · next hi =>
    cases hs : parameter.schema with
    | none =>
      simp only [hs] at h
      obtain ⟨_, rfl⟩ := pure_ok h
      exact ⟨parts, rfl, .passed parts ((if_neg hi).trans hs)⟩
    | some schema =>
      simp only [hs] at h
      have hs : parameterSchema? parameter = some schema := (if_neg hi).trans hs
      obtain ⟨place, _, hn, h⟩ := bind_ok h
      rw [parameterNode_draft] at hn
      obtain ⟨rfl, rfl⟩ := ok_ok hn
      obtain ⟨converted, _, hc, h⟩ := bind_ok h
      rw [convert_draft, Parts.withTree_tree, Parts.withTree_withTree] at hc
      cases converted with
      | none =>
        obtain ⟨_, rfl⟩ := pure_ok h
        obtain ⟨hr, ht⟩ := ok_ok hc
        exact ⟨_, ht.symm, .left hs (Prod.ext (hr) rfl)⟩
      | some converted =>
        obtain ⟨hr, ht⟩ := ok_ok hc
        rw [← ht] at h
        obtain ⟨version, _, hv, h⟩ := bind_ok h
        obtain ⟨hversion, rfl⟩ := readVersion_ok hv
        rw [writeVersion_draft] at h
        obtain ⟨_, rfl⟩ := ok_ok h
        exact ⟨_, rfl, .listed hs (Prod.ext (hr) rfl) hversion⟩

theorem addParameters_ok (h : addParameters job (parts.draft resource) = (.ok (), after)) :
    ∃ parts', after = parts'.draft resource ∧ ParametersStep job parts parts' := by
  rw [addParameters] at h
  split at h
  · next hi =>
    obtain ⟨_, rfl⟩ := pure_ok h
    exact ⟨parts, rfl, .unset parts (Bool.not_eq_true' _ |>.mp hi)⟩
  · next hi =>
    have hi : job.mapping.parameters.endpoint.isSet = true := by simpa using hi
    obtain ⟨parameters, _, hp, h⟩ := bind_ok h
    obtain ⟨hparameters, rfl⟩ := liftExcept_ok hp
    obtain ⟨node, _, hn, h⟩ := bind_ok h
    rw [versionNode_draft] at hn
    obtain ⟨rfl, rfl⟩ := ok_ok hn
    obtain ⟨_, _, hv, h⟩ := bind_ok h
    obtain ⟨version, _, hread, hv⟩ := bind_ok hv
    obtain ⟨_, rfl⟩ := readVersion_ok hread
    obtain ⟨_, rfl⟩ := pure_ok hv
    obtain ⟨⟨⟩, _, hf, h⟩ := bind_ok h
    obtain ⟨_, rfl⟩ := pure_ok h
    obtain ⟨parts', rfl, he⟩ := (forIn_ok hf).onParts (Parts.draft resource) fun _ _ _ => addParameter_ok
    exact ⟨parts', rfl, .set hi hparameters he⟩

theorem addEntry_ok (h : addEntry job (parts.draft resource) = (.ok (), after)) :
    ∃ parts', after = parts'.draft resource ∧ EntryStep job parts parts' := by
  rw [addEntry] at h
  obtain ⟨source, _, hl, h⟩ := bind_ok h
  obtain ⟨hs, rfl⟩ := liftExcept_ok hl
  cases source with
  | none =>
    obtain ⟨_, rfl⟩ := pure_ok h
    exact ⟨parts, rfl, .unset parts hs⟩
  | some schema =>
    obtain ⟨_, _, hv, h⟩ := bind_ok h
    obtain ⟨version, _, hread, hv⟩ := bind_ok hv
    obtain ⟨hversion, rfl⟩ := readVersion_ok hread
    obtain ⟨_, rfl⟩ := pure_ok hv
    obtain ⟨node, _, hn, h⟩ := bind_ok h
    rw [entryNode_draft] at hn
    obtain ⟨rfl, rfl⟩ := ok_ok hn
    obtain ⟨converted, _, hc, h⟩ := bind_ok h
    rw [convert_draft, Parts.withTree_tree, Parts.withTree_withTree] at hc
    obtain ⟨hr, ht⟩ := ok_ok hc
    rw [← ht] at h
    cases converted with
    | none => exact absurd h throw_ok
    | some converted =>
      obtain ⟨draft, _, hg, h⟩ := bind_ok h
      obtain ⟨rfl, rfl⟩ := get_ok hg
      obtain ⟨version', _, hread, h⟩ := bind_ok h
      obtain ⟨hversion', rfl⟩ := readVersion_ok hread
      rw [writeVersion_draft] at h
      obtain ⟨_, rfl⟩ := ok_ok h
      exact ⟨_, rfl, .listed _ hs (Prod.ext (hr) rfl) hversion'⟩

theorem addStatus_ok (h : addStatus job (parts.draft resource) = (.ok (), after)) :
    ∃ parts', after = parts'.draft resource ∧ StatusStep job parts parts' := by
  rw [addStatus] at h
  obtain ⟨source, _, hl, h⟩ := bind_ok h
  obtain ⟨hs, rfl⟩ := liftExcept_ok hl
  cases source with
  | none =>
    obtain ⟨_, rfl⟩ := pure_ok h
    exact ⟨parts, rfl, .unset parts hs⟩
  | some schema =>
    obtain ⟨node, _, hn, h⟩ := bind_ok h
    rw [statusNode_draft] at hn
    obtain ⟨rfl, rfl⟩ := ok_ok hn
    obtain ⟨converted, _, hc, h⟩ := bind_ok h
    rw [convert_draft, Parts.withTree_tree, Parts.withTree_withTree] at hc
    obtain ⟨hr, ht⟩ := ok_ok hc
    rw [← ht] at h
    cases converted with
    | none =>
      obtain ⟨_, rfl⟩ := pure_ok h
      exact ⟨_, rfl, .left hs (Prod.ext (hr) rfl)⟩
    | some converted =>
      dsimp only at h
      rw [Parts.editPart_status] at h
      obtain ⟨_, rfl⟩ := ok_ok h
      exact ⟨_, rfl, .listed _ hs (Prod.ext (hr) rfl)⟩

theorem raise_ok {failure : Option Failure} {draft : Draft} (h : raise failure draft = (.ok (), after)) :
    failure = none ∧ after = draft := by
  cases failure with
  | none =>
    obtain ⟨_, rfl⟩ := pure_ok h
    exact ⟨rfl, rfl⟩
  | some failure => exact absurd h throw_ok

theorem addReferences_ok (h : addReferences job (parts.draft resource) = (.ok (), after)) :
    ∃ parts', after = parts'.draft resource ∧ ReferencesStep job parts parts' := by
  rw [addReferences] at h
  split at h
  · next he =>
    rw [Bool.and_eq_true, List.isEmpty_iff, List.isEmpty_iff] at he
    obtain ⟨_, rfl⟩ := pure_ok h
    exact ⟨parts, rfl, .unset parts he.1 he.2⟩
  · obtain ⟨version, _, hread, h⟩ := bind_ok h
    obtain ⟨hversion, rfl⟩ := readVersion_ok hread
    rcases hw : withReferences version job.mapping.parameters.references with ⟨listed, failure⟩
    rw [hw] at h
    obtain ⟨_, _, hwrite, h⟩ := bind_ok h
    rw [writeVersion_draft] at hwrite
    obtain ⟨_, rfl⟩ := ok_ok hwrite
    obtain ⟨_, _, hr, h⟩ := bind_ok h
    obtain ⟨rfl, rfl⟩ := raise_ok hr
    split at h
    · next he =>
      obtain ⟨_, rfl⟩ := pure_ok h
      exact ⟨_, rfl, .version hversion (List.isEmpty_iff.mp he) hw⟩
    · next he =>
      cases hp : listed.property? entryPart with
      | none =>
        simp only [hp] at h
        exact absurd h throw_ok
      | some entry =>
        simp only [hp] at h
        rcases hw' : withReferences entry job.mapping.entry.references with ⟨whole, failure⟩
        rw [hw'] at h
        obtain ⟨_, _, hwrite, h⟩ := bind_ok h
        rw [writeVersion_draft, Parts.withVersion_withVersion] at hwrite
        obtain ⟨_, rfl⟩ := ok_ok hwrite
        obtain ⟨rfl, rfl⟩ := raise_ok h
        exact ⟨_, rfl, .entry hversion (fun hn => he (List.isEmpty_iff.mpr hn)) hw hp hw'⟩

theorem addChoices_ok (h : addChoices job (parts.draft resource) = (.ok (), after)) :
    ∃ version, parts.version? job = some version ∧
      after = (parts.withVersion job (versionWithChoices job.mapping version)).draft resource := by
  obtain ⟨version, _, hread, h⟩ := bind_ok h
  obtain ⟨hversion, rfl⟩ := readVersion_ok hread
  rw [writeVersion_draft] at h
  obtain ⟨_, rfl⟩ := ok_ok h
  exact ⟨version, hversion, rfl⟩

theorem addConnection_ok (h : addConnection job (parts.draft resource) = (.ok (), after)) :
    after = ({ parts with spec := withConnectionRules job.mapping (withConnection parts.spec) } : Parts).draft
      resource := by
  rw [addConnection] at h
  obtain ⟨_, _, he, h⟩ := bind_ok h
  rw [Parts.editPart_spec] at he
  obtain ⟨_, rfl⟩ := ok_ok he
  obtain ⟨_, _, hv, h⟩ := bind_ok h
  obtain ⟨version, _, hread, hv⟩ := bind_ok hv
  obtain ⟨_, rfl⟩ := readVersion_ok hread
  obtain ⟨_, rfl⟩ := pure_ok hv
  rw [Parts.editPart_spec] at h
  obtain ⟨_, rfl⟩ := ok_ok h
  rfl

end

/-! ### All plugins -/

/-- What a plugin may do to the parts of a draft. -/
inductive PluginStep (job : Job) : MappingPlugin → Parts → Parts → Prop
  | majorVersion (parts : Parts) :
    PluginStep job .majorVersion parts (parts.withVersion job (emptyVersion job))
  | parameters {parts after : Parts} : ParametersStep job parts after → PluginStep job .parameters parts after
  | entry {parts after : Parts} : EntryStep job parts after → PluginStep job .entry parts after
  | status {parts after : Parts} : StatusStep job parts after → PluginStep job .status parts after
  | references {parts after : Parts} : ReferencesStep job parts after → PluginStep job .references parts after
  | choices {parts : Parts} {version : Crd.Schema} : parts.version? job = some version →
    PluginStep job .choices parts (parts.withVersion job (versionWithChoices job.mapping version))
  | versionChoice (parts : Parts) : PluginStep job .versionChoice parts
    { parts with spec := withVersionChoice job.resource.majorVersions job.majorVersion parts.spec }
  | connection (parts : Parts) : PluginStep job .connection parts
    { parts with spec := withConnectionRules job.mapping (withConnection parts.spec) }
  | columns (parts : Parts) : PluginStep job .columns parts { parts with columns := conditionColumns }

/-- Where a version comes from is said at its node. -/
def versionOrigin (job : Job) : Json :=
  .object [("definition", .string job.mapping.document), ("version", .string job.document.info.version)]

/-- Where a reference leads is said at its node. -/
inductive ReferenceStep (parent : List String) (reference : Config.Reference) : Parts → Parts → Prop
  | annotated {parts : Parts} {node : NodeId} {tree : Tree} :
    (parts.tree.descend Tree.root parent).2.child (parts.tree.descend Tree.root parent).1 reference.name =
      (node, tree) →
    ReferenceStep parent reference parts (parts.withTree
      ((tree.annotate node Extension.clusterMapping (targetMapping reference.target)).annotate node
        Extension.apiMapping (.object [("property", .string reference.property)])))

/-- What a plugin that changes nothing but annotations may do. -/
inductive ExtensionStep (job : Job) : ExtensionPlugin → Parts → Parts → Prop
  | openApiVersion (parts : Parts) : ExtensionStep job .openApiVersion parts (parts.withTree
    ((versionNode job parts).2.annotate (versionNode job parts).1 Extension.apiMapping (versionOrigin job)))
  | referenceMetadata {parts middle after : Parts} :
    Each (ReferenceStep [specPart, job.majorVersion]) job.mapping.parameters.references parts middle →
    Each (ReferenceStep [specPart, job.majorVersion, entryPart]) job.mapping.entry.references middle after →
    ExtensionStep job .referenceMetadata parts after

section
variable {resource : Config.Resource} {job : Job} {parts : Parts} {after : Draft}

theorem MappingPlugin.run_ok {plugin : MappingPlugin}
    (h : plugin.run job (parts.draft resource) = (.ok (), after)) :
    ∃ parts', after = parts'.draft resource ∧ PluginStep job plugin parts parts' := by
  cases plugin with
  | majorVersion =>
    rw [MappingPlugin.run, addVersion, Parts.editPart_spec] at h
    obtain ⟨_, rfl⟩ := ok_ok h
    exact ⟨_, rfl, .majorVersion parts⟩
  | parameters =>
    obtain ⟨parts', ha, hs⟩ := addParameters_ok h
    exact ⟨parts', ha, .parameters hs⟩
  | entry =>
    obtain ⟨parts', ha, hs⟩ := addEntry_ok h
    exact ⟨parts', ha, .entry hs⟩
  | status =>
    obtain ⟨parts', ha, hs⟩ := addStatus_ok h
    exact ⟨parts', ha, .status hs⟩
  | references =>
    obtain ⟨parts', ha, hs⟩ := addReferences_ok h
    exact ⟨parts', ha, .references hs⟩
  | choices =>
    obtain ⟨version, hv, ha⟩ := addChoices_ok h
    exact ⟨_, ha, .choices hv⟩
  | versionChoice =>
    rw [MappingPlugin.run, addVersionChoice, Parts.editPart_spec] at h
    obtain ⟨_, rfl⟩ := ok_ok h
    exact ⟨_, rfl, .versionChoice parts⟩
  | connection => exact ⟨_, addConnection_ok h, .connection parts⟩
  | columns =>
    rw [MappingPlugin.run, Parts.setColumns_draft] at h
    obtain ⟨_, rfl⟩ := ok_ok h
    exact ⟨_, rfl, .columns parts⟩

theorem annotate_draft (node : NodeId) (name : String) (value : Json) :
    annotate node name value (parts.draft resource) =
    (.ok (), (parts.withTree (parts.tree.annotate node name value)).draft resource) := rfl

theorem annotateReference_ok {parent : List String} {reference : Config.Reference}
    (h : annotateReference parent reference (parts.draft resource) = (.ok (), after)) :
    ∃ parts', after = parts'.draft resource ∧ ReferenceStep parent reference parts parts' := by
  rw [annotateReference] at h
  split at h
  · obtain ⟨_, _, ht, _⟩ := bind_ok h
    exact absurd ht throw_ok
  · obtain ⟨parentNode, _, hn, h⟩ := bind_ok h
    rw [nodeAt_draft] at hn
    obtain ⟨rfl, rfl⟩ := ok_ok hn
    obtain ⟨node, _, hn, h⟩ := bind_ok h
    rw [nodeBelow_draft, Parts.withTree_tree, Parts.withTree_withTree] at hn
    obtain ⟨hnode, hdraft⟩ := ok_ok hn
    rw [← hdraft] at h
    obtain ⟨_, _, ha, h⟩ := bind_ok h
    rw [annotate_draft, Parts.withTree_tree, Parts.withTree_withTree] at ha
    obtain ⟨_, rfl⟩ := ok_ok ha
    rw [annotate_draft, Parts.withTree_tree, Parts.withTree_withTree] at h
    obtain ⟨_, rfl⟩ := ok_ok h
    exact ⟨_, rfl, .annotated (Prod.ext hnode rfl)⟩

theorem ExtensionPlugin.run_ok {plugin : ExtensionPlugin}
    (h : plugin.run job (parts.draft resource) = (.ok (), after)) :
    ∃ parts', after = parts'.draft resource ∧ ExtensionStep job plugin parts parts' := by
  cases plugin with
  | openApiVersion =>
    obtain ⟨node, _, hn, h⟩ := bind_ok h
    rw [versionNode_draft] at hn
    obtain ⟨rfl, rfl⟩ := ok_ok hn
    rw [annotate_draft, Parts.withTree_withTree, Parts.withTree_tree] at h
    obtain ⟨_, rfl⟩ := ok_ok h
    exact ⟨_, rfl, .openApiVersion parts⟩
  | referenceMetadata =>
    obtain ⟨⟨⟩, _, hf, h⟩ := bind_ok h
    obtain ⟨middle, rfl, hm⟩ := (forIn_ok hf).onParts (Parts.draft resource) fun _ _ _ => annotateReference_ok
    obtain ⟨⟨⟩, _, hf, h⟩ := bind_ok h
    obtain ⟨_, rfl⟩ := pure_ok h
    obtain ⟨parts', rfl, hs⟩ := (forIn_ok hf).onParts (Parts.draft resource) fun _ _ _ => annotateReference_ok
    exact ⟨parts', rfl, .referenceMetadata hm hs⟩

end

end CrdForge.Pipeline
