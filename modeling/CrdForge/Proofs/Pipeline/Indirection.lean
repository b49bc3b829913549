import CrdForge.Proofs.OpenApi.Chains
import CrdForge.Proofs.Pipeline.Overriding
import Mathlib.Data.List.Forall2
import Mathlib.Data.Option.Basic

/-! Parameters and request bodies behind references.

A parameter or body of an operation may be given by a reference to a component, which may be a reference
again. Other than for a schema, one hop is all that is looked at: what is found there is used even if it
is a reference (`seen?_of_chain`).

The plugins that make a version see a document only with everything looked up that its operations give
(`Document.settled`). So moving a parameter or body into a component changes nothing of what they do, as
long as it is one hop away. Behind more hops it is as if it were not given (`products_moved`). -/
namespace CrdForge

namespace OpenApi

/-! ### Single hops -/

section
variable {α : Type} {reference : α → Option String} {kind : String} {components : List (String × α)}
  {given plain last : α} {hops limit : Nat}

/-- What is looked at where something is given: itself, or the component
that it refers to, whatever that is. -/
def seen? (reference : α → Option String) (kind : String) (components : List (String × α))
    (given : α) : Option α :=
  match reference given with
  | none => some given
  | some path => referent? kind path components

theorem seen?_of_none (h : reference given = none) : seen? reference kind components given = some given := by
  rw [seen?, h]

theorem seen?_of_hop {name : String} {next : α} (hr : reference given = some (componentPath kind name))
    (hl : components.lookup name = some next) : seen? reference kind components given = some next := by
  rw [seen?, hr]
  exact referent?_eq_some_iff.mpr ⟨name, rfl, hl⟩

/-- The end of a chain is seen from no more than one hop away. From further away a reference is seen. -/
theorem seen?_of_chain (h : Chain reference kind components hops given last) (hn : reference last = none) :
    ∃ answer, seen? reference kind components given = some answer ∧ (answer = last ↔ hops ≤ 1) ∧
      (reference answer = none ↔ hops ≤ 1) := by
  cases h with
  | here => exact ⟨given, seen?_of_none hn, by simp, by simp [hn]⟩
  | @hop hops _ next _ name hr hl hrest =>
    refine ⟨next, seen?_of_hop hr hl, ?_⟩
    cases hrest with
    | here => simp [hn]
    | @hop hops _ _ _ _ hr' =>
      have hne : next ≠ last := by
        rintro rfl
        cases hr'.symm.trans hn
      simp [hne, hr']

/-- Whether something is given as it is, or by a reference from which so many hops at most lead to it. -/
def Moved (reference : α → Option String) (kind : String) (components : List (String × α)) (limit : Nat)
    (plain given : α) : Prop :=
  given = plain ∨ reference plain = none ∧ ∃ hops ≤ limit, Chain reference kind components hops given plain

theorem Moved.seen?_eq (h : Moved reference kind components 1 plain given) :
    seen? reference kind components given = seen? reference kind components plain := by
  rcases h with rfl | ⟨hn, hops, hle, h⟩
  · rfl
  · obtain ⟨answer, ha, he, -⟩ := seen?_of_chain h hn
    rw [ha, he.mpr hle, seen?_of_none hn]

/-- What is looked at, given as it is, if there is any use in it. -/
def settle (reference : α → Option String) (kind : String) (components : List (String × α))
    (usable : α → Bool) (inPlace : α → α) (given : α) : Option α :=
  ((seen? reference kind components given).filter usable).map inPlace

section
variable {usable : α → Bool} {inPlace : α → α} {found : α}

theorem Moved.settle_eq (h : Moved reference kind components 1 plain given) :
    settle reference kind components usable inPlace given =
      settle reference kind components usable inPlace plain := by
  rw [settle, settle, h.seen?_eq]

theorem settle_reference (hi : ∀ found, reference (inPlace found) = none)
    (h : settle reference kind components usable inPlace given = some found) : reference found = none := by
  obtain ⟨seen, -, rfl⟩ := Option.map_eq_some_iff.mp h
  exact hi seen

/-- A reference that is looked at is a component. So it is of no use if no
component is that is a reference. -/
theorem settle_of_aliased
    (hu : ∀ entry ∈ components, (reference entry.2).isSome = true → usable entry.2 = false)
    (ha : (seen? reference kind components given).any (fun seen => (reference seen).isSome) = true) :
    settle reference kind components usable inPlace given = none := by
  rw [settle]
  rw [seen?] at ha ⊢
  cases hr : reference given with
  | none =>
    rw [hr] at ha
    simp [hr] at ha
  | some path =>
    rw [hr] at ha
    dsimp only at ha ⊢
    cases hs : referent? kind path components with
    | none => rfl
    | some seen =>
      rw [hs, Option.any_some] at ha
      obtain ⟨name, -, hl⟩ := referent?_eq_some_iff.mp hs
      rw [Option.filter_some, hu _ (Keyed.mem_of_lookup hl) ha]
      rfl

end

end

theorem resolveParameter_eq (document : Document) (given : Parameter) :
    document.resolveParameter given =
      seen? Parameter.reference "parameters" document.components.parameters given := by
  unfold Document.resolveParameter seen?
  cases given.reference <;> rfl

theorem resolveRequestBody_eq (document : Document) (given : RequestBody) :
    document.resolveRequestBody given =
    seen? RequestBody.reference "requestBodies" document.components.requestBodies given := by
  unfold Document.resolveRequestBody seen?
  cases given.reference <;> rfl

/-! ### Revised documents -/

section
variable (parameter parameter' : Parameter → Option Parameter) (body body' : RequestBody → Option RequestBody)

/-- An operation with its parameters and its body changed or left out. -/
def Operation.revise (operation : Operation) : Operation :=
  { operation with
    parameters := operation.parameters.filterMap parameter
    requestBody := operation.requestBody.bind body }

def PathItem.revise (item : PathItem) : PathItem where
  get := item.get.map (·.revise parameter body)
  post := item.post.map (·.revise parameter body)
  put := item.put.map (·.revise parameter body)
  delete := item.delete.map (·.revise parameter body)
  patch := item.patch.map (·.revise parameter body)
  parameters := item.parameters.filterMap parameter

/-- A document with the parameters and the bodies changed or left out that its paths and operations give. -/
def Document.revise (document : Document) : Document :=
  { document with paths := document.paths.map fun (name, item) => (name, item.revise parameter body) }

theorem Operation.revise_revise (operation : Operation) :
    (operation.revise parameter body).revise parameter' body' =
      operation.revise (fun given => (parameter given).bind parameter') fun given =>
        (body given).bind body' := by
  simp only [Operation.revise, List.filterMap_filterMap, Option.bind_assoc]

theorem PathItem.revise_revise (item : PathItem) :
    (item.revise parameter body).revise parameter' body' =
      item.revise (fun given => (parameter given).bind parameter') fun given => (body given).bind body' := by
  simp only [PathItem.revise, List.filterMap_filterMap, Option.map_map, Function.comp_def,
    Operation.revise_revise]

theorem Document.revise_revise (document : Document) :
    (document.revise parameter body).revise parameter' body' =
      document.revise (fun given => (parameter given).bind parameter') fun given =>
        (body given).bind body' := by
  simp only [Document.revise, List.map_map, Function.comp_def, PathItem.revise_revise]

theorem PathItem.operation_revise (item : PathItem) (verb : String) :
    (item.revise parameter body).operation verb = (item.operation verb).map (·.revise parameter body) := by
  unfold PathItem.operation
  split <;> rfl

theorem Document.path?_revise (document : Document) (name : String) :
    (document.revise parameter body).path? name = (document.path? name).map (·.revise parameter body) :=
  Keyed.lookup_map (fun item : PathItem => item.revise parameter body) document.paths name

end

/-! ### Settled documents -/

namespace Document

/-- A parameter once looked up, if it has a schema. -/
def settleParameter (document : Document) : Parameter → Option Parameter :=
  settle Parameter.reference "parameters" document.components.parameters (·.schema.isSome)
    ({ · with reference := none })

/-- A request body once looked up, if it has a content. -/
def settleBody (document : Document) : RequestBody → Option RequestBody :=
  settle RequestBody.reference "requestBodies" document.components.requestBodies (!·.content.isEmpty)
    ({ · with reference := none })

/-- A document with everything looked up that its operations give, less what nothing can be made of. -/
def settled (document : Document) : Document := document.revise document.settleParameter document.settleBody

end Document

/-! ### Moved and aliased parameters -/

/-- Whether an operation gives the same parameters and body as another, some of them by references. -/
structure Operation.Moved (components : Components) (limit : Nat) (plain given : Operation) : Prop where
  rest : given = { plain with parameters := given.parameters, requestBody := given.requestBody }
  parameters : List.Forall₂ (OpenApi.Moved Parameter.reference "parameters" components.parameters limit)
    plain.parameters given.parameters
  requestBody : Option.Rel
    (OpenApi.Moved RequestBody.reference "requestBodies" components.requestBodies limit)
    plain.requestBody given.requestBody

structure PathItem.Moved (components : Components) (limit : Nat) (plain given : PathItem) : Prop where
  get : Option.Rel (Operation.Moved components limit) plain.get given.get
  post : Option.Rel (Operation.Moved components limit) plain.post given.post
  put : Option.Rel (Operation.Moved components limit) plain.put given.put
  delete : Option.Rel (Operation.Moved components limit) plain.delete given.delete
  patch : Option.Rel (Operation.Moved components limit) plain.patch given.patch
  parameters : List.Forall₂ (OpenApi.Moved Parameter.reference "parameters" components.parameters limit)
    plain.parameters given.parameters

/-- Whether a document is another with parameters and bodies given by references, from which so many hops
at most lead to the ones of the other document. -/
structure Document.Moved (limit : Nat) (plain given : Document) : Prop where
  rest : given = { plain with paths := given.paths }
  paths : List.Forall₂ (fun entry moved => moved.1 = entry.1 ∧ entry.2.Moved plain.components limit moved.2)
    plain.paths given.paths

section
variable {components : Components} {parameter : Parameter → Option Parameter}
  {body : RequestBody → Option RequestBody}

theorem map_eq_of_rel {α β : Type} {R : α → α → Prop} {f : α → β} {plain given : Option α}
    (h : Option.Rel R plain given) (hf : ∀ plain given, R plain given → f given = f plain) :
    given.map f = plain.map f := by
  cases h with
  | none => rfl
  | some h => exact congrArg some (hf _ _ h)

theorem bind_eq_of_rel {α β : Type} {R : α → α → Prop} {f : α → Option β} {plain given : Option α}
    (h : Option.Rel R plain given) (hf : ∀ plain given, R plain given → f given = f plain) :
    given.bind f = plain.bind f := by
  cases h with
  | none => rfl
  | some h => exact hf _ _ h

theorem filterMap_eq_of_forall₂ {α β : Type} {R : α → α → Prop} {f : α → Option β} {plain given : List α}
    (h : List.Forall₂ R plain given) (hf : ∀ plain given, R plain given → f given = f plain) :
    given.filterMap f = plain.filterMap f := by
  induction h with
  | nil => rfl
  | cons hr _ ih => rw [List.filterMap_cons, List.filterMap_cons, hf _ _ hr, ih]

variable (hp : ∀ plain given,
    OpenApi.Moved Parameter.reference "parameters" components.parameters 1 plain given →
      parameter given = parameter plain)
  (hb : ∀ plain given, OpenApi.Moved RequestBody.reference "requestBodies"
    components.requestBodies 1 plain given →
    body given = body plain)
include hp hb

theorem Operation.Moved.revise_eq {plain given : Operation} (h : plain.Moved components 1 given) :
    given.revise parameter body = plain.revise parameter body := by
  rw [Operation.revise, Operation.revise, filterMap_eq_of_forall₂ h.parameters hp,
    bind_eq_of_rel h.requestBody hb, h.rest]

theorem PathItem.Moved.revise_eq {plain given : PathItem} (h : plain.Moved components 1 given) :
    given.revise parameter body = plain.revise parameter body := by
  have hoperation (plain given : Operation) (h : plain.Moved components 1 given) := h.revise_eq hp hb
  rw [PathItem.revise, PathItem.revise, map_eq_of_rel h.get hoperation, map_eq_of_rel h.post hoperation,
    map_eq_of_rel h.put hoperation, map_eq_of_rel h.delete hoperation, map_eq_of_rel h.patch hoperation,
    filterMap_eq_of_forall₂ h.parameters hp]

end

namespace Document
variable {document plain given : Document}

/-- One hop is looked through. -/
theorem Moved.settled_eq (h : plain.Moved 1 given) : given.settled = plain.settled := by
  obtain ⟨hrest, hpaths⟩ := h
  have hcomponents : given.components = plain.components := by rw [hrest]
  have hparameter : given.settleParameter = plain.settleParameter := by
    rw [settleParameter, settleParameter, hcomponents]
  have hbody : given.settleBody = plain.settleBody := by rw [settleBody, settleBody, hcomponents]
  have hitems :
    (given.paths.map fun (name, item) => (name, item.revise plain.settleParameter plain.settleBody)) =
      plain.paths.map fun (name, item) => (name, item.revise plain.settleParameter plain.settleBody) := by
    simp only [← List.filterMap_eq_map]
    refine filterMap_eq_of_forall₂ hpaths fun entry moved ⟨hname, hitem⟩ => ?_
    have hrevise : moved.2.revise plain.settleParameter plain.settleBody =
        entry.2.revise plain.settleParameter plain.settleBody :=
      hitem.revise_eq (fun _ _ h => h.settle_eq) fun _ _ h => h.settle_eq
    exact congrArg some (Prod.ext hname hrevise)
  rw [settled, settled, revise, revise, hparameter, hbody, hitems, hrest]

/-- Whether what a parameter is looked up as is a reference. -/
def isAliasedParameter (document : Document) (given : Parameter) : Bool :=
  (document.resolveParameter given).any (·.reference.isSome)

/-- Whether what a request body is looked up as is a reference. -/
def isAliasedBody (document : Document) (given : RequestBody) : Bool :=
  (document.resolveRequestBody given).any (·.reference.isSome)

/-- A document whose operations do not give what is looked up as a reference. -/
def withoutAliased (document : Document) : Document :=
  document.revise (Option.guard (!document.isAliasedParameter ·)) (Option.guard (!document.isAliasedBody ·))

/-- Whether the components that are references have neither schema nor content of their own. -/
structure Bare (document : Document) : Prop where
  parameters : ∀ entry ∈ document.components.parameters, entry.2.reference.isSome → entry.2.schema = none
  requestBodies : ∀ entry ∈ document.components.requestBodies, entry.2.reference.isSome → entry.2.content = []

theorem Bare.settleParameter_eq_none (h : document.Bare) {given : Parameter}
    (ha : document.isAliasedParameter given = true) : document.settleParameter given = none := by
  rw [isAliasedParameter, resolveParameter_eq] at ha
  exact settle_of_aliased (fun entry hm hr => by rw [h.parameters entry hm hr]; rfl) ha

theorem Bare.settleBody_eq_none (h : document.Bare) {given : RequestBody}
    (ha : document.isAliasedBody given = true) : document.settleBody given = none := by
  rw [isAliasedBody, resolveRequestBody_eq] at ha
  exact settle_of_aliased (fun entry hm hr => by rw [h.requestBodies entry hm hr]; rfl) ha

/-- References that say nothing themselves are not seen. -/
theorem Bare.settled_withoutAliased (h : document.Bare) :
    document.withoutAliased.settled = document.settled := by
  have hrevise := revise_revise (Option.guard (!document.isAliasedParameter ·)) document.settleParameter
    (Option.guard (!document.isAliasedBody ·)) document.settleBody document
  refine hrevise.trans (congrArg₂ (revise · · document) ?_ ?_)
  · funext given
    cases ha : document.isAliasedParameter given with
    | false => simp [Option.guard, ha]
    | true => simp [Option.guard, ha, h.settleParameter_eq_none ha]
  · funext given
    cases ha : document.isAliasedBody given with
    | false => simp [Option.guard, ha]
    | true => simp [Option.guard, ha, h.settleBody_eq_none ha]

end Document

end OpenApi

/-! ### What plugins see -/

namespace Pipeline
variable {job : Job} {document : OpenApi.Document}

theorem operationOf_revise (parameter : OpenApi.Parameter → Option OpenApi.Parameter)
    (body : OpenApi.RequestBody → Option OpenApi.RequestBody) (document : OpenApi.Document)
    (endpoint : Config.Endpoint) : operationOf (document.revise parameter body) endpoint =
      (operationOf document endpoint).map (·.revise parameter body) := by
  rw [operationOf, operationOf, OpenApi.Document.path?_revise]
  cases document.path? endpoint.name with
  | none => rfl
  | some item =>
    dsimp only [Option.map_some]
    rw [OpenApi.PathItem.operation_revise]
    cases item.operation endpoint.verb <;> rfl

theorem endpointParameters_revise (parameter : OpenApi.Parameter → Option OpenApi.Parameter)
    (body : OpenApi.RequestBody → Option OpenApi.RequestBody) (document : OpenApi.Document)
    (endpoint : Config.Endpoint) : endpointParameters (document.revise parameter body) endpoint =
      (endpointParameters document endpoint).map (List.filterMap parameter) := by
  rw [endpointParameters, endpointParameters, OpenApi.Document.path?_revise]
  cases document.path? endpoint.name with
  | none => rfl
  | some item =>
    dsimp only [Option.map_some]
    rw [OpenApi.PathItem.operation_revise]
    split
    · rfl
    · cases item.operation endpoint.verb with
      | none => rfl
      | some operation => exact congrArg Except.ok (List.filterMap_append ..).symm

theorem convert_of_components (h : document.components = job.document.components) :
    convert { job with document := document } = convert job := by
  funext selection schema node
  exact congrArg (fun convert : Conversion.Converter => onTree (convert _))
    (@Conversion.convertWithin_of_components ⟨job.document, selection.filters, job.filters⟩ document h _)

theorem addParameter_of_components (h : document.components = job.document.components) :
    addParameter { job with document := document } = addParameter job := by
  funext node parameter
  rw [addParameter, addParameter, convert_of_components h]
  rfl

/-- Nothing is made of a parameter that has no schema. -/
theorem addParameter_without_schema (node : Extension.NodeId) {parameter : OpenApi.Parameter}
    (h : parameter.schema = none) : addParameter job node parameter = pure () := by
  rw [addParameter, h]
  split <;> rfl

/-- Of parameters only those matter that have a schema, and not whether they are references. -/
theorem forIn_usable (node : Extension.NodeId) (parameters : List OpenApi.Parameter) :
    (forIn ((parameters.filter (·.schema.isSome)).map fun parameter =>
      { parameter with reference := none }) PUnit.unit
        fun parameter _ => do
          addParameter job node parameter
          return ForInStep.yield PUnit.unit : Build PUnit) =
      forIn parameters PUnit.unit fun parameter _ => do
        addParameter job node parameter
        return ForInStep.yield PUnit.unit := by
  induction parameters with
  | nil => rfl
  | cons parameter rest ih =>
    cases hs : parameter.schema with
    | none =>
      rw [List.filter_cons_of_neg (by simp [hs]), ih, List.forIn_cons, addParameter_without_schema node hs]
      simp only [pure_bind]
    | some schema =>
      rw [List.filter_cons_of_pos (by simp [hs]), List.map_cons, List.forIn_cons, List.forIn_cons]
      simp only [bind_assoc, pure_bind, ih]
      rfl

theorem filterMap_settleParameter (document : OpenApi.Document) (given : List OpenApi.Parameter) :
    given.filterMap document.settleParameter =
      ((given.filterMap document.resolveParameter).filter (·.schema.isSome)).map
        ({ · with reference := none }) := by
  rw [List.filter_filterMap, List.map_filterMap, funext (OpenApi.resolveParameter_eq document)]
  rfl

/-- What is settled stays as it is. -/
theorem resolveParameter_settled (given : List OpenApi.Parameter) :
    (given.filterMap document.settleParameter).filterMap document.resolveParameter =
      given.filterMap document.settleParameter := by
  rw [List.filterMap_filterMap]
  refine congrFun (congrArg List.filterMap (funext fun parameter => ?_)) given
  cases h : document.settleParameter parameter with
  | none => rfl
  | some found =>
    rw [Option.bind_some, OpenApi.Document.resolveParameter, OpenApi.settle_reference (fun _ => rfl) h]

/-- The parameters of a settled document are added as if they were looked up now. -/
theorem forIn_settled (node : Extension.NodeId) (given : List OpenApi.Parameter) :
    (forIn ((given.filterMap job.document.settleParameter).filterMap job.document.resolveParameter) PUnit.unit
        fun parameter _ => do
          addParameter job node parameter
          return ForInStep.yield PUnit.unit : Build PUnit) =
      forIn (given.filterMap job.document.resolveParameter) PUnit.unit fun parameter _ => do
        addParameter job node parameter
        return ForInStep.yield PUnit.unit := by
  rw [resolveParameter_settled, filterMap_settleParameter, forIn_usable]

theorem addParameters_settled (job : Job) :
    addParameters { job with document := job.document.settled } = addParameters job := by
  have hc : job.document.settled.components = job.document.components := rfl
  have hresolve : job.document.settled.resolveParameter = job.document.resolveParameter := rfl
  have hlift (parameters : List OpenApi.Parameter) :
    (liftExcept (.ok parameters : Except Failure _) : Build _) =
      pure parameters := rfl
  unfold addParameters
  rw [addParameter_of_components hc]
  dsimp only
  rw [hresolve, OpenApi.Document.settled, endpointParameters_revise]
  cases endpointParameters job.document job.mapping.parameters.endpoint with
  | error => rfl
  | ok given =>
    simp only [Except.map, hlift, pure_bind, forIn_settled]
    rfl

/-! ### Sources of parts -/

theorem mediaSchema?_without_content {body : OpenApi.RequestBody} (h : body.content = [])
    (mimeType : String) :
    mediaSchema? body mimeType = none := by
  rw [mediaSchema?, h]
  split <;> rfl

/-- A settled body has the same schemas. -/
theorem mediaSchema?_settled (document : OpenApi.Document) (given : OpenApi.RequestBody) (mimeType : String) :
    ((document.settleBody given).bind document.resolveRequestBody).bind (mediaSchema? · mimeType) =
      (document.resolveRequestBody given).bind (mediaSchema? · mimeType) := by
  rw [OpenApi.Document.settleBody, OpenApi.settle, ← OpenApi.resolveRequestBody_eq]
  cases document.resolveRequestBody given with
  | none => rfl
  | some found =>
    rw [Option.filter_some]
    cases hc : found.content with
    | nil => exact (mediaSchema?_without_content hc mimeType).symm
    | cons => rfl

theorem endpointSchema_settled (document : OpenApi.Document) (endpoint : Config.Endpoint) :
    endpointSchema document.settled endpoint = endpointSchema document endpoint := by
  have hresolve : document.settled.resolveRequestBody = document.resolveRequestBody := rfl
  rw [endpointSchema, endpointSchema, hresolve, OpenApi.Document.settled, operationOf_revise]
  cases operationOf document endpoint with
  | error => rfl
  | ok operation =>
    have hsame : ((operation.revise document.settleParameter document.settleBody).requestBody.bind
        document.resolveRequestBody).bind (mediaSchema? · endpoint.mimeType) =
          (operation.requestBody.bind document.resolveRequestBody).bind
            (mediaSchema? · endpoint.mimeType) := by
      rw [OpenApi.Operation.revise]
      cases operation.requestBody with
      | none => rfl
      | some given => exact mediaSchema?_settled document given endpoint.mimeType
    simp only [Except.map, bind, Except.bind, hsame]

theorem sourceSchema_settled (document : OpenApi.Document) (selection : Config.Selection) (part : String) :
    sourceSchema document.settled selection part = sourceSchema document selection part := by
  rw [sourceSchema, sourceSchema, endpointSchema_settled]
  rfl

theorem addEntry_settled (job : Job) :
    addEntry { job with document := job.document.settled } = addEntry job := by
  have hc : job.document.settled.components = job.document.components := rfl
  unfold addEntry
  rw [convert_of_components hc]
  dsimp only
  rw [sourceSchema_settled]
  rfl

theorem addStatus_settled (job : Job) :
    addStatus { job with document := job.document.settled } = addStatus job := by
  have hc : job.document.settled.components = job.document.components := rfl
  unfold addStatus
  rw [convert_of_components hc]
  dsimp only
  rw [sourceSchema_settled]
  rfl

/-! ### Products -/

/-- Whether the parameters, the entry and the status are made of another document as of the job's own. -/
structure Job.SameFrom (job : Job) (other : OpenApi.Document) : Prop where
  parameters : addParameters { job with document := other } = addParameters job
  entry : addEntry { job with document := other } = addEntry job
  status : addStatus { job with document := other } = addStatus job

/-- Nothing else is made of documents that are settled alike. -/
theorem Job.SameFrom.of_settled (h : document.settled = job.document.settled) : job.SameFrom document where
  parameters := by rw [← addParameters_settled, ← addParameters_settled job, h]
  entry := by rw [← addEntry_settled, ← addEntry_settled job, h]
  status := by rw [← addStatus_settled, ← addStatus_settled job, h]

/-- **Parameters and bodies behind references.** Moved into a component one hop away they are used as if
they were given in place. What is found further away is still a reference, so if references say nothing
themselves, parameters and bodies behind more hops are as if they were not given. -/
theorem products_moved (job : Job) :
    (∀ other, job.document.Moved 1 other → job.SameFrom other) ∧
      (∀ hops given last, OpenApi.Chain OpenApi.Parameter.reference "parameters"
        job.document.components.parameters hops
          given last → last.reference = none →
        ∃ answer, job.document.resolveParameter given = some answer ∧ (answer = last ↔ hops ≤ 1) ∧
          (answer.reference = none ↔ hops ≤ 1)) ∧
      (∀ hops given last, OpenApi.Chain OpenApi.RequestBody.reference "requestBodies"
          job.document.components.requestBodies hops given last → last.reference = none →
        ∃ answer, job.document.resolveRequestBody given = some answer ∧ (answer = last ↔ hops ≤ 1) ∧
          (answer.reference = none ↔ hops ≤ 1)) ∧
      (job.document.Bare → job.SameFrom job.document.withoutAliased) := by
  refine ⟨fun other h => .of_settled h.settled_eq, fun hops given last h hn => ?_,
    fun hops given last h hn => ?_, fun h => .of_settled h.settled_withoutAliased⟩
  · rw [OpenApi.resolveParameter_eq]
    exact OpenApi.seen?_of_chain h hn
  · rw [OpenApi.resolveRequestBody_eq]
    exact OpenApi.seen?_of_chain h hn

/-- Refers to a parameter of the components. -/
def referTo (name : String) : OpenApi.Parameter where
  reference := some (OpenApi.componentPath "parameters" name)

/-- Teams that are listed up to a limit, which has a second name among the components. -/
def limitedTeams (given : List OpenApi.Parameter) : OpenApi.Document :=
  { teams [] given with components := { parameters := [("limit", limit true), ("size", referTo "limit")] } }

def limitedJob (given : OpenApi.Parameter) : Job := { teamsJob with document := limitedTeams [given] }

/-- A limit behind one reference is used, and one behind two is not. -/
theorem second_name_lost :
    (limitedJob (limit true)).SameFrom (limitedTeams [referTo "limit"]) ∧
      (limitedJob (referTo "size")).SameFrom (limitedTeams []) ∧
      ¬ (limitedJob (limit true)).SameFrom (limitedTeams [referTo "size"]) := by
  have hone : OpenApi.Chain OpenApi.Parameter.reference "parameters" (limitedTeams []).components.parameters 1
      (referTo "limit") (limit true) := .hop rfl rfl (.here _)
  refine ⟨?_, ?_, fun hsame => ?_⟩
  · have hmoved : (limitedJob (limit true)).document.Moved 1 (limitedTeams [referTo "limit"]) := by
      refine ⟨rfl, .cons ⟨rfl, .some ⟨rfl, .cons ?_ .nil, .none⟩, .none, .none, .none, .none, .nil⟩ .nil⟩
      exact .inr ⟨rfl, 1, Nat.le_refl 1, hone⟩
    exact (products_moved (limitedJob (limit true))).1 _ hmoved
  · refine (products_moved (limitedJob (referTo "size"))).2.2.2 ⟨?_, ?_⟩
    · intro entry hm hr
      obtain rfl | rfl : entry = ("limit", limit true) ∨ entry = ("size", referTo "limit") := by
        simpa [limitedJob, limitedTeams] using hm
      · cases hr
      · rfl
    · intro entry hm
      cases hm
  · -- With the limit given in place the version lists it.
    let parts := (Parts.start teamsJob.resource).withVersion teamsJob (emptyVersion teamsJob)
    have hstart : (parts.draft teamsJob.resource).version? "v1" = some (emptyVersion teamsJob) :=
      (Parts.version?_withVersion .. : parts.version? teamsJob = some (emptyVersion teamsJob))
    have hget : parameterVerbs.contains teamsJob.mapping.parameters.endpoint.verb.toLower = true := by
      decide +kernel
    obtain ⟨_, after, hafter, hlisted⟩ := (@addParameters_asks (limitedJob (limit true)) _ rfl _
      (endpointParameters_eq rfl hget (by with_unfolding_all rfl))).succeeds hstart
    obtain ⟨_, after', hafter', hlisted'⟩ :=
      (@addParameters_asks { limitedJob (limit true) with document := limitedTeams [referTo "size"] } _ rfl _
        (endpointParameters_eq rfl hget (by with_unfolding_all rfl))).succeeds hstart
    obtain rfl : after' = after :=
      congrArg Prod.snd (hafter'.symm.trans ((congrFun hsame.parameters _).trans hafter))
    have hversions := Option.some.inj (hlisted.symm.trans hlisted')
    have hlimit := congrArg (fun version => (version.property? "limit").isSome) hversions
    revert hlimit
    decide +kernel

end Pipeline

end CrdForge
