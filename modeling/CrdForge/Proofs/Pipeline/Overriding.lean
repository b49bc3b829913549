import CrdForge.Proofs.Pipeline.Fields
import Mathlib.Data.List.Sort

/-! When the parameters of an operation override those of its path.

Parameters are listed one after another, those of the path first. The last one of a name is listed that
has a conversion (`withParameters_property?`), but a name stays required as soon as one of its parameters
is (`mem_withParameters_required`). So an operation that defines a parameter of its path again overrides
it only if it lists one and requires one where the path does (`withParameters_effective_iff`). This holds
of every draft that asks for the version, so it is proved of drafts and not of their parts
(`addParameters_asks`). -/
namespace CrdForge

/-! ### Documents -/

namespace Conversion
variable {setting : Setting} {document : OpenApi.Document}

theorem resolve_of_components (h : document.components = setting.document.components) :
    document.resolve = setting.document.resolve := by
  funext schema
  unfold OpenApi.Document.resolve
  generalize OpenApi.maxReferences = steps
  induction steps generalizing schema with
  | zero => rfl
  | succ steps ih =>
    rw [OpenApi.Document.resolveWithin, OpenApi.Document.resolveWithin, h, funext ih]

theorem hasReadOnly_of_components (h : document.components = setting.document.components)
    (source : OpenApi.Schema) (path : List String) (node : Extension.NodeId) :
    (Setting.site { setting with document := document } source path node).hasReadOnly =
      (setting.site source path node).hasReadOnly := by
  funext name
  unfold Site.hasReadOnly Setting.site
  rw [resolve_of_components h]

theorem applyAll_of_components (h : document.components = setting.document.components)
    (source : OpenApi.Schema) (path : List String) (node : Extension.NodeId) :
    applyAll (Setting.site { setting with document := document } source path node) =
      applyAll (setting.site source path node) := by
  have hplugin (plugin : PropertyPlugin) (schema : Crd.Schema) :
      plugin.apply (Setting.site { setting with document := document } source path node) schema =
        plugin.apply (setting.site source path node) schema := by
    cases plugin with
    | readOnly =>
      unfold PropertyPlugin.apply keepReadOnly
      rw [hasReadOnly_of_components h]
      rfl
    | readWrite =>
      unfold PropertyPlugin.apply keepReadWrite
      rw [hasReadOnly_of_components h]
      rfl
    | _ => rfl
  funext plugins schema
  induction plugins generalizing schema with
  | nil => rfl
  | cons plugin rest ih => rw [applyAll, applyAll, hplugin, funext ih]

theorem convertSource_of_components (h : document.components = setting.document.components)
    (convert : Converter) (place : Place) (source : OpenApi.Schema) :
    convertSource { setting with document := document } convert place source =
      convertSource setting convert place source := by
  have hsite := applyAll_of_components h source place.path place.node
  unfold Setting.site at hsite
  unfold convertSource
  dsimp only at hsite ⊢
  rw [hsite]

/-- Of a document only the components matter to a conversion. -/
theorem convertWithin_of_components (h : document.components = setting.document.components) (depth : Nat) :
    convertWithin { setting with document := document } depth = convertWithin setting depth := by
  induction depth with
  | zero => rfl
  | succ depth ih =>
    funext place
    rw [convertWithin, convertWithin, ih, resolve_of_components h]
    dsimp only
    congr 1
    funext source
    exact convertSource_of_components h ..

theorem shapeWithin_of_components (h : document.components = setting.document.components) (depth : Nat) :
    shapeWithin { setting with document := document } depth = shapeWithin setting depth := by
  funext schema path
  have hconvert := convertWithin_fst { setting with document := document } depth
    ⟨some schema, Extension.Tree.root, path⟩
  rw [convertWithin_of_components h] at hconvert
  exact (hconvert .empty).symm.trans
    (convertWithin_fst setting depth ⟨some schema, Extension.Tree.root, path⟩ .empty)

end Conversion

namespace Pipeline

open Run

variable {job : Job} {known version : Crd.Schema} {parameter : OpenApi.Parameter} {name : String}

/-! ### Drafts -/

/-- What a draft asks for with a version. -/
def Draft.version? (draft : Draft) (name : String) : Option Crd.Schema :=
  (draft.definition.part? specPart).bind (·.property? name)

/-- Whether a draft asks for this with the version that plugins work on. -/
def Asks (job : Job) (version : Crd.Schema) (draft : Draft) : Prop :=
  draft.version? job.majorVersion = some version

theorem modifyPart?_eq {definition : Crd.Definition} {part : String} {old : Crd.Schema}
    (h : definition.part? part = some old) (change : Crd.Schema → Crd.Schema) :
    ∃ changed, definition.modifyPart? part change = some changed ∧
      changed.part? part = some (change old) := by
  obtain ⟨root, hroot, hold⟩ := Option.bind_eq_some_iff.mp h
  refine ⟨{ definition with schema := some (root.insert part (change old)) }, ?_, ?_⟩
  · rw [Crd.Definition.modifyPart?, hroot, Option.bind_some, Crd.Schema.modifyAt?, hold]
    rfl
  · exact (Keyed.lookup_insert ..).trans (if_pos rfl)

theorem get_eq (draft : Draft) : (get : Build Draft) draft = (.ok draft, draft) := rfl

theorem readVersion_asks : Triple (Asks job known) (readVersion job)
    (fun version draft => version = known ∧ Asks job known draft) fun _ => False := by
  intro draft h
  obtain ⟨spec, hspec, hv⟩ := Option.bind_eq_some_iff.mp h
  have hread : readPart specPart draft = (.ok spec, draft) := by
    rw [readPart, bind_eq, get_eq]
    dsimp only
    rw [hspec]
    rfl
  rw [readVersion, bind_eq, hread]
  dsimp only
  rw [hv]
  exact ⟨rfl, h⟩

theorem writeVersion_asks (version : Crd.Schema) : Triple (Asks job known) (writeVersion job version)
    (fun _ => Asks job version) fun _ => False := by
  intro draft h
  obtain ⟨spec, hspec, -⟩ := Option.bind_eq_some_iff.mp h
  obtain ⟨changed, hchange, hpart⟩ := modifyPart?_eq hspec fun spec => spec.insert job.majorVersion version
  have hwrite : writeVersion job version draft = (.ok (), { draft with definition := changed }) := by
    rw [writeVersion, editPart, bind_eq, get_eq]
    dsimp only
    rw [hchange]
    rfl
  rw [hwrite]
  show (changed.part? specPart).bind _ = _
  rw [hpart]
  exact (Keyed.lookup_insert ..).trans (if_pos rfl)

theorem onTree_asks {α : Type} (step : Conversion.Step α) :
    Triple (Asks job known) (onTree step) (fun _ => Asks job known) fun _ => False :=
  fun _ h => h

/-- A parameter is listed in the version, if it has a conversion. -/
theorem addParameter_asks (node : Extension.NodeId) (parameter : OpenApi.Parameter) :
    Triple (Asks job known) (addParameter job node parameter)
      (fun _ => Asks job (job.withParameter known parameter)) fun _ => False := by
  rw [addParameter, Job.withParameter, Job.parameterShape?, Job.parameterSource?, parameterSchema?]
  split
  · exact .pure fun _ hs => hs
  · cases parameter.schema with
    | none => exact .pure fun _ hs => hs
    | some schema =>
      refine .bind (onTree_asks _) fun place => .bind (Q := fun converted draft =>
        job.shape ⟨.property parameter.name, job.mapping.parameters, schema⟩ = converted ∧
          Asks job known draft)
        (fun draft h => ⟨Job.conversion_shape (Prod.eta _), h⟩) fun converted => ?_
      rintro draft ⟨hshape, h⟩
      rw [Option.map_some, Option.bind_some, hshape]
      revert draft
      cases converted with
      | none => exact fun draft h => h
      | some converted =>
        refine Triple.bind readVersion_asks fun version => ?_
        rintro draft ⟨rfl, h⟩
        exact writeVersion_asks _ draft h

/-- Steps that each change what is asked for come to all the changes in order. -/
theorem forIn_asks {visit : OpenApi.Parameter → Build Unit}
    (h : ∀ parameter known, Triple (Asks job known) (visit parameter)
      (fun _ => Asks job (job.withParameter known parameter)) fun _ => False)
      (parameters : List OpenApi.Parameter) :
    Triple (Asks job known) (forIn parameters PUnit.unit fun parameter _ => do
        visit parameter
        return ForInStep.yield PUnit.unit : Build PUnit)
      (fun _ => Asks job (parameters.foldl job.withParameter known)) fun _ => False := by
  induction parameters generalizing known with
  | nil => exact .pure fun _ hs => hs
  | cons parameter rest ih =>
    rw [List.forIn_cons, List.foldl_cons]
    refine .bind (Q := fun again draft => again = ForInStep.yield PUnit.unit ∧
      Asks job (job.withParameter known parameter) draft) ?_ fun again => ?_
    · exact .bind (h parameter known) fun _ => .pure fun _ hs => ⟨rfl, hs⟩
    · rintro draft ⟨rfl, hs⟩
      exact ih draft hs

/-- The parameters of an operation do not fail, and are listed one after another. -/
theorem addParameters_asks (hset : job.mapping.parameters.endpoint.isSet = true)
    {parameters : List OpenApi.Parameter}
    (hp : endpointParameters job.document job.mapping.parameters.endpoint = .ok parameters) :
    Triple (Asks job known) (addParameters job)
      (fun _ => Asks job ((parameters.filterMap job.document.resolveParameter).foldl job.withParameter known))
      fun _ => False := by
  rw [addParameters, hset, hp]
  refine .bind (Q := fun found draft => found = parameters ∧ Asks job known draft) (fun _ hs => ⟨rfl, hs⟩)
    fun found => ?_
  rintro draft ⟨rfl, h⟩
  refine Triple.bind (onTree_asks _)
    (fun node => .bind (.discard (I := Asks job known) ?_) fun _ => ?_) draft h
  · exact readVersion_asks.mono (fun _ h => h) (fun _ _ h => h.2) fun _ h => h
  · exact .bind (forIn_asks (fun parameter known => addParameter_asks node parameter) _) fun _ =>
      .pure fun _ hs => hs

/-! ### What is listed and required -/

/-- What a parameter is listed as under a name. -/
def Job.listed? (job : Job) (name : String) (parameter : OpenApi.Parameter) : Option Crd.Schema :=
  if parameter.name = name then (job.parameterShape? parameter).map (parameterProperty parameter) else none

/-- A parameter that has a conversion, as one that lists its name has. -/
def Job.Lists (job : Job) (name : String) (parameter : OpenApi.Parameter) : Prop :=
  parameter.name = name ∧ (job.parameterShape? parameter).isSome = true

theorem listed?_isSome : (job.listed? name parameter).isSome = true ↔ job.Lists name parameter := by
  rw [Job.listed?, Job.Lists]
  split
  · next h => simp [h]
  · next h => simp [h]

/-- Of the parameters of a name the last one is listed. -/
theorem withParameters_property? (parameters : List OpenApi.Parameter)
    (version : Crd.Schema) (name : String) :
    (parameters.foldl job.withParameter version).property? name =
      (parameters.reverse.findSome? (job.listed? name)).or (version.property? name) := by
  induction parameters generalizing version with
  | nil => rfl
  | cons parameter rest ih =>
    rw [List.foldl_cons, ih, List.reverse_cons, List.findSome?_append, Option.or_assoc,
      withParameter_property?]
    congr 1
    rw [List.findSome?_singleton, Job.listed?]
    by_cases h : parameter.name = name
    · rw [if_pos h, if_pos h.symm]
    · rw [if_neg h, if_neg (Ne.symm h), Option.none_or]

theorem withParameter_required (version : Crd.Schema) (parameter : OpenApi.Parameter) :
    (job.withParameter version parameter).required =
      if (job.parameterShape? parameter).isSome && parameter.required then
        (version.addRequired parameter.name).required else version.required := by
  rw [Job.withParameter]
  cases job.parameterShape? parameter with
  | none => rfl
  | some converted =>
    dsimp only
    rw [withParameter, Option.isSome_some, Bool.true_and]
    split
    · rw [Crd.Schema.addRequired, Crd.Schema.addRequired]
      show (if version.required.contains parameter.name then _ else _ : Crd.Schema).required = _
      split <;> rfl
    · rfl

theorem mem_addRequired {schema : Crd.Schema} {other : String} :
    name ∈ (schema.addRequired other).required ↔ name = other ∨ name ∈ schema.required := by
  rw [Crd.Schema.addRequired]
  split
  · next h =>
    refine (or_iff_right_of_imp ?_).symm
    rintro rfl
    exact List.contains_iff_mem.mp h
  · rw [Keyed.mem_ascending, List.mem_cons]

theorem addRequired_ascends {schema : Crd.Schema} (h : schema.required.Pairwise (· < ·)) (name : String) :
    (schema.addRequired name).required.Pairwise (· < ·) := by
  rw [Crd.Schema.addRequired]
  split
  · exact h
  · next hn =>
    refine Keyed.ascending_ascends (List.nodup_cons.mpr ⟨fun hm => hn (List.contains_iff_mem.mpr hm), ?_⟩)
    exact List.nodup_iff_pairwise_ne.mpr (h.imp Std.ne_of_lt)

/-- A name is required if a parameter that lists it is. -/
theorem mem_withParameters_required {parameters : List OpenApi.Parameter} :
    name ∈ (parameters.foldl job.withParameter version).required ↔
      name ∈ version.required ∨ ∃ parameter ∈ parameters,
        job.Lists name parameter ∧ parameter.required = true := by
  induction parameters generalizing version with
  | nil => simp
  | cons parameter rest ih =>
    rw [List.foldl_cons, ih, withParameter_required]
    simp only [List.mem_cons, exists_eq_or_imp, Job.Lists]
    split
    · next h =>
      rw [Bool.and_eq_true] at h
      rw [mem_addRequired, or_comm (a := name = _), or_assoc]
      simp only [h, and_true, eq_comm]
    · next h =>
      rw [Bool.and_eq_true] at h
      have hnot : ¬ ((parameter.name = name ∧ (job.parameterShape? parameter).isSome = true) ∧
        parameter.required = true) := fun hl => h ⟨hl.1.2, hl.2⟩
      rw [or_iff_right hnot]

/-- What parameters leave of a version: nothing else is changed than what it
lists and requires, and both are in order. -/
structure Orders (version listed : Crd.Schema) : Prop where
  frame : ∃ properties required, listed = { version with properties := properties, required := required }
  sorted : Keyed.Sorted listed.properties
  ascends : listed.required.Pairwise (· < ·)

theorem Orders.withParameter {listed : Crd.Schema} (h : Orders version listed)
    (parameter : OpenApi.Parameter) :
    Orders version (job.withParameter listed parameter) := by
  have hrequired : (job.withParameter listed parameter).required = _ :=
    withParameter_required listed parameter
  rw [Job.withParameter] at hrequired ⊢
  cases hs : job.parameterShape? parameter with
  | none => exact h
  | some converted =>
    rw [hs] at hrequired
    constructor
    · obtain ⟨properties, required, rfl⟩ := h.frame
      dsimp only
      rw [Pipeline.withParameter, Crd.Schema.addRequired]
      split
      · split <;> exact ⟨_, _, rfl⟩
      · exact ⟨_, _, rfl⟩
    · dsimp only
      rw [withParameter_properties]
      exact h.sorted.insert _ _
    · dsimp only at hrequired ⊢
      rw [hrequired]
      split
      · exact addRequired_ascends h.ascends _
      · exact h.ascends

theorem Orders.withParameters {listed : Crd.Schema} (h : Orders version listed)
    (parameters : List OpenApi.Parameter) :
    Orders version (parameters.foldl job.withParameter listed) := by
  induction parameters generalizing listed with
  | nil => exact h
  | cons parameter rest ih => exact ih (h.withParameter parameter)

/-- A version is known by what it lists and requires. -/
theorem Orders.ext {listed other : Crd.Schema} (h : Orders version listed) (h' : Orders version other)
    (hp : ∀ name, listed.property? name = other.property? name)
    (hr : ∀ name, name ∈ listed.required ↔ name ∈ other.required) : listed = other := by
  have hproperties : listed.properties = other.properties := h.sorted.ext h'.sorted hp
  have hrequired : listed.required = other.required :=
    h.ascends.eq_of_mem_iff h'.ascends fun {name} => hr name
  obtain ⟨properties, required, rfl⟩ := h.frame
  obtain ⟨properties', required', rfl⟩ := h'.frame
  obtain rfl : properties = properties' := hproperties
  obtain rfl : required = required' := hrequired
  rfl

/-! ### Overriding -/

/-- The parameters of an operation, and those of its path whose names it does not define again. -/
def effectiveParameters (own shared : List OpenApi.Parameter) : List OpenApi.Parameter :=
  own ++ shared.filter fun parameter => !(own.map (·.name)).contains parameter.name

/-- Whether a parameter is overridden by others in all respects: one of them is listed in its place, and
if it is required, one that is listed is required as well. -/
structure Overrides (job : Job) (own : List OpenApi.Parameter) (parameter : OpenApi.Parameter) : Prop where
  listed : ∃ other ∈ own, job.Lists parameter.name other
  required : parameter.required = true → ∃ other ∈ own, job.Lists parameter.name other ∧ other.required = true

section
variable {own shared : List OpenApi.Parameter}

theorem findSome?_listed? {parameters : List OpenApi.Parameter} :
    (parameters.reverse.findSome? (job.listed? name)).isSome = true ↔
      ∃ parameter ∈ parameters, job.Lists name parameter := by
  simp only [List.findSome?_isSome_iff, List.mem_reverse, listed?_isSome]

theorem listed?_of_ne (h : parameter.name ≠ name) : job.listed? name parameter = none := if_neg h

theorem findSome?_listed?_of_notMem {parameters : List OpenApi.Parameter}
    (h : name ∉ parameters.map (·.name)) :
    parameters.reverse.findSome? (job.listed? name) = none := by
  rw [List.findSome?_eq_none_iff]
  intro parameter hm
  exact listed?_of_ne fun hn => h (List.mem_map.mpr ⟨parameter, List.mem_reverse.mp hm, hn⟩)

/-- What is left out of a search that it would not find does not matter. -/
theorem findSome?_filter_of {α β : Type} {f : α → Option β} {p : α → Bool} {xs : List α}
    (h : ∀ x ∈ xs, p x = false → f x = none) : (xs.filter p).findSome? f = xs.findSome? f := by
  induction xs with
  | nil => rfl
  | cons x rest ih =>
    have ih := ih fun y hy => h y (List.mem_cons_of_mem _ hy)
    rw [List.filter_cons]
    split
    · rw [List.findSome?_cons, List.findSome?_cons, ih]
    · next hp => rw [ih, List.findSome?_cons, h x (List.mem_cons_self ..) (Bool.not_eq_true _ |>.mp hp)]

/-- Of a name that is defined again, only what it is defined as is effective. -/
theorem effective_of_mem (h : name ∈ own.map (·.name)) :
    (effectiveParameters own shared).reverse.findSome? (job.listed? name) =
      own.reverse.findSome? (job.listed? name) := by
  rw [effectiveParameters, List.reverse_append, List.findSome?_append,
    findSome?_listed?_of_notMem, Option.none_or]
  rw [List.mem_map]
  rintro ⟨parameter, hm, rfl⟩
  have hnot := (List.mem_filter.mp hm).2
  rw [Bool.not_eq_true', ← Bool.not_eq_true, List.contains_iff_mem] at hnot
  exact hnot h

theorem effective_of_notMem (h : name ∉ own.map (·.name)) :
    (effectiveParameters own shared).reverse.findSome? (job.listed? name) =
      shared.reverse.findSome? (job.listed? name) := by
  rw [effectiveParameters, List.reverse_append, List.findSome?_append,
    findSome?_listed?_of_notMem h, Option.or_none, ← List.filter_reverse]
  refine findSome?_filter_of fun parameter _ hp => listed?_of_ne ?_
  rintro rfl
  rw [Bool.not_eq_false', List.contains_iff_mem] at hp
  exact h hp

theorem mem_effective_iff : parameter ∈ effectiveParameters own shared ↔
    parameter ∈ own ∨ parameter ∈ shared ∧ parameter.name ∉ own.map (·.name) := by
  rw [effectiveParameters, List.mem_append, List.mem_filter, Bool.not_eq_true', ← Bool.not_eq_true,
    List.contains_iff_mem]

/-- The same is listed exactly if what is defined again is listed again. -/
theorem withParameters_listed_iff (hp : version.properties = []) :
    (∀ name, ((shared ++ own).foldl job.withParameter version).property? name =
        ((effectiveParameters own shared).foldl job.withParameter version).property? name) ↔
      ∀ parameter ∈ shared, parameter.name ∈ own.map (·.name) →
        (job.parameterShape? parameter).isSome = true →
        ∃ other ∈ own, job.Lists parameter.name other := by
  have hnone (name : String) : version.property? name = none := by rw [Crd.Schema.property?, hp]; rfl
  simp only [withParameters_property?, hnone, Option.or_none, List.reverse_append, List.findSome?_append]
  constructor
  · intro h parameter hm hn hs
    have hname := h parameter.name
    rw [effective_of_mem hn] at hname
    have hshared : (shared.reverse.findSome? (job.listed? parameter.name)).isSome = true :=
      findSome?_listed?.mpr ⟨parameter, hm, rfl, hs⟩
    rw [← findSome?_listed?, ← hname, Option.isSome_or, hshared, Bool.or_true]
  · intro h name
    by_cases hn : name ∈ own.map (·.name)
    · rw [effective_of_mem hn]
      cases hshared : shared.reverse.findSome? (job.listed? name) with
      | none => rw [Option.or_none]
      | some listed =>
        obtain ⟨parameter, hm, rfl, hs⟩ :=
          findSome?_listed?.mp (Option.isSome_iff_exists.mpr ⟨listed, hshared⟩)
        have hown := findSome?_listed?.mpr (h parameter hm hn hs)
        exact Option.or_of_isSome hown
    · rw [effective_of_notMem hn, findSome?_listed?_of_notMem hn, Option.none_or]

/-- The same is required exactly if what is required and defined again is required again. -/
theorem withParameters_required_iff (hr : version.required = []) :
    (∀ name, name ∈ ((shared ++ own).foldl job.withParameter version).required ↔
        name ∈ ((effectiveParameters own shared).foldl job.withParameter version).required) ↔
      ∀ parameter ∈ shared, parameter.name ∈ own.map (·.name) →
        (job.parameterShape? parameter).isSome = true →
        parameter.required = true → ∃ other ∈ own,
          job.Lists parameter.name other ∧ other.required = true := by
  simp only [mem_withParameters_required, hr, List.not_mem_nil, false_or, List.mem_append, mem_effective_iff]
  constructor
  · intro h parameter hm hn hs hrequired
    obtain ⟨other, ho | ⟨-, hother⟩, hlists, hrequired⟩ :=
      (h parameter.name).mp ⟨parameter, .inl hm, ⟨rfl, hs⟩, hrequired⟩
    · exact ⟨other, ho, hlists, hrequired⟩
    · rw [hlists.1] at hother
      exact absurd hn hother
  · intro h name
    constructor
    · rintro ⟨parameter, hm | hm, ⟨rfl, hs⟩, hrequired⟩
      · by_cases hn : parameter.name ∈ own.map (·.name)
        · obtain ⟨other, ho, hlists⟩ := h parameter hm hn hs hrequired
          exact ⟨other, .inl ho, hlists⟩
        · exact ⟨parameter, .inr ⟨hm, hn⟩, ⟨rfl, hs⟩, hrequired⟩
      · exact ⟨parameter, .inl hm, ⟨rfl, hs⟩, hrequired⟩
    · rintro ⟨parameter, hm, hlists⟩
      exact ⟨parameter, hm.elim .inr fun hm => .inl hm.1, hlists⟩

/-- The effective parameters make the same of an empty version exactly if each parameter that is defined
again is overridden in all respects. -/
theorem withParameters_effective_iff (hp : version.properties = []) (hr : version.required = []) :
    (shared ++ own).foldl job.withParameter version =
        (effectiveParameters own shared).foldl job.withParameter version ↔
      ∀ parameter ∈ shared, parameter.name ∈ own.map (·.name) →
        (job.parameterShape? parameter).isSome = true →
        Overrides job own parameter := by
  have horders : Orders version version := by
    refine ⟨⟨version.properties, version.required, ?_⟩, by rw [hp]; exact .nil, by rw [hr]; exact .nil⟩
    cases version
    rfl
  constructor
  · intro h parameter hm hn hs
    exact ⟨(withParameters_listed_iff hp).mp (fun name => by rw [h]) parameter hm hn hs,
      (withParameters_required_iff hr).mp (fun name => by rw [h]) parameter hm hn hs⟩
  · intro h
    refine (horders.withParameters _).ext (horders.withParameters _) ?_ ?_
    · exact (withParameters_listed_iff hp).mpr fun parameter hm hn hs => (h parameter hm hn hs).listed
    · exact (withParameters_required_iff hr).mpr fun parameter hm hn hs => (h parameter hm hn hs).required

end

/-! ### Operations -/

theorem endpointParameters_eq {document : OpenApi.Document} {endpoint : Config.Endpoint}
    {item : OpenApi.PathItem} {operation : OpenApi.Operation} (hi : document.path? endpoint.name = some item)
    (hv : parameterVerbs.contains endpoint.verb.toLower = true)
    (ho : item.operation endpoint.verb = some operation) :
    endpointParameters document endpoint = .ok (item.parameters ++ operation.parameters) := by
  rw [endpointParameters, hi]
  dsimp only
  rw [hv, ho]
  rfl

theorem withParameter_of_components {document : OpenApi.Document}
    (h : document.components = job.document.components) :
    Job.withParameter { job with document := document } = job.withParameter := by
  have hwithin (source : Source) (depth : Nat) :
      Conversion.shapeWithin { job.setting source.selection with document := document } depth =
        Conversion.shapeWithin (job.setting source.selection) depth :=
          Conversion.shapeWithin_of_components h depth
  have hshape (parameter : OpenApi.Parameter) :
      Job.parameterShape? { job with document := document } parameter = job.parameterShape? parameter :=
    congrArg (Option.bind _) (funext fun source => congrFun (congrFun (hwithin source _) _) _)
  funext version parameter
  rw [Job.withParameter, Job.withParameter, hshape]

/-- **Parameters of an operation override those of its path exactly if each that is defined again is
overridden in all respects**: only then does a version that is empty become the same as from a path that
has no parameters of its own and an operation with the effective ones. -/
theorem addParameters_effective_iff {document : OpenApi.Document} {item alone : OpenApi.PathItem}
    {operation whole : OpenApi.Operation} {draft : Draft}
    (hset : job.mapping.parameters.endpoint.isSet = true)
    (hv : parameterVerbs.contains job.mapping.parameters.endpoint.verb.toLower = true)
    (hi : job.document.path? job.mapping.parameters.endpoint.name = some item)
    (ho : item.operation job.mapping.parameters.endpoint.verb = some operation)
    (hc : document.components = job.document.components)
    (hi' : document.path? job.mapping.parameters.endpoint.name = some alone) (ha : alone.parameters = [])
    (ho' : alone.operation job.mapping.parameters.endpoint.verb = some whole)
    (he : whole.parameters.filterMap document.resolveParameter =
      effectiveParameters (operation.parameters.filterMap job.document.resolveParameter)
        (item.parameters.filterMap job.document.resolveParameter))
    (hd : draft.version? job.majorVersion = some version) (hp : version.properties = [])
    (hr : version.required = []) :
    ∃ after after' listed listed', addParameters job draft = (.ok (), after) ∧
      addParameters { job with document := document } draft = (.ok (), after') ∧
      after.version? job.majorVersion = some listed ∧ after'.version? job.majorVersion = some listed' ∧
      (listed = listed' ↔ ∀ parameter ∈ item.parameters.filterMap job.document.resolveParameter,
        parameter.name ∈ (operation.parameters.filterMap job.document.resolveParameter).map (·.name) →
          (job.parameterShape? parameter).isSome = true →
            Overrides job (operation.parameters.filterMap job.document.resolveParameter) parameter) := by
  obtain ⟨_, after, hafter, hlisted⟩ :=
    (addParameters_asks hset (endpointParameters_eq hi hv ho)).succeeds (show Asks job version draft from hd)
  obtain ⟨_, after', hafter', hlisted'⟩ :=
    (@addParameters_asks { job with document := document } version hset _
      (endpointParameters_eq hi' hv ho')).succeeds
      (show Asks { job with document := document } version draft from hd)
  rw [List.filterMap_append] at hlisted
  rw [ha, List.nil_append, he, withParameter_of_components hc] at hlisted'
  exact ⟨after, after', _, _, hafter, hafter', hlisted, hlisted', withParameters_effective_iff hp hr⟩

/-- A parameter that is a text. -/
def limit (required : Bool) : OpenApi.Parameter where
  name := "limit"
  required := required
  schema := some { type := some (.one "string") }

/-- Teams, with parameters of their path and of the operation that reads them. -/
def teams (shared own : List OpenApi.Parameter) : OpenApi.Document where
  paths := [("/teams", { parameters := shared, get := some { parameters := own } })]

def teamsJob : Job where
  resource := { group := "example.com", version := "v1", kind := "Team" }
  mapping :=
    { majorVersion := "v1", document := "api",
      parameters := { endpoint := { name := "/teams", verb := "get" } } }
  document := teams [limit true] [limit false]
  filters := Conversion.PropertyPlugin.all

/-- The operation does not ask for the limit that its path asks for, but the version does. -/
theorem limit_stays_required :
    ∃ draft : Draft, draft.version? "v1" = some (emptyVersion teamsJob) ∧
      ∃ after after' listed listed', addParameters teamsJob draft = (.ok (), after) ∧
        addParameters { teamsJob with document := teams [] [limit false] } draft = (.ok (), after') ∧
        after.version? "v1" = some listed ∧ after'.version? "v1" = some listed' ∧ listed ≠ listed' := by
  let parts := (Parts.start teamsJob.resource).withVersion teamsJob (emptyVersion teamsJob)
  have hversion : parts.version? teamsJob = some (emptyVersion teamsJob) := Parts.version?_withVersion ..
  have hstart : (parts.draft teamsJob.resource).version? "v1" = some (emptyVersion teamsJob) := hversion
  have hset : teamsJob.mapping.parameters.endpoint.isSet = true := rfl
  have hcomponents : (teams [] [limit false]).components = teamsJob.document.components := rfl
  obtain ⟨after, after', listed, listed', ha, ha', hl, hl', hiff⟩ :=
    addParameters_effective_iff hset (by decide +kernel) rfl (by with_unfolding_all rfl) hcomponents rfl rfl
      (by with_unfolding_all rfl) (by with_unfolding_all rfl) hstart rfl rfl
  refine ⟨_, hstart, after, after', listed, listed', ha, ha', hl, hl', fun hsame => ?_⟩
  have hlimit : (teamsJob.parameterShape? (limit true)).isSome = true := by decide +kernel
  have hoverrides := hiff.mp hsame (limit true) (List.mem_singleton.mpr rfl)
    (List.mem_singleton.mpr rfl) hlimit
  obtain ⟨other, ho, -, hrequired⟩ := hoverrides.required rfl
  obtain rfl : other = limit false := List.mem_singleton.mp ho
  cases hrequired

end Pipeline

end CrdForge
