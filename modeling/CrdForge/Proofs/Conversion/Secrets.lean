import CrdForge.Proofs.Conversion.Entries
import Mathlib.Data.List.Basic

/-! References to secrets and what is said of them.

Every reference to a secret in the result of a conversion is in its log, at the place where it stands and
with the path of the field that it stands in for (`secret_logged`). Whether that is still said in the end
is up to the last entry of the log at the place or above it (`secret_annotated_iff`): a schema that
shares a node on the way and lists the same property later takes it back. -/
namespace CrdForge.Conversion

open Extension (Link Notes Tree)

/-! ### References to secrets -/

/-- Whether a node is a reference to a secret that stands in for a field of this name. -/
def IsSecret (leaf : String) (node : Crd.Schema) : Prop :=
  node.properties = (secretReference leaf none).properties

/-- The segment of a link. -/
def linkSegment : Link → String
  | .property name => name
  | .items => Path.wildcard

/-- The path of the field that a reference to a secret stands in for, from the path at which a conversion
started and the links that lead to the reference. The field had another name than the reference. -/
def secretPath (path : List String) (links : List Link) (leaf : String) : List String :=
  (path ++ links.map linkSegment).dropLast ++ [leaf]

variable {setting : Setting} {shape : Shape} {log : Logging} {path : List String} {source : OpenApi.Schema}
  {leaf : String} {links : List Link} {result node : Crd.Schema}

theorem secretReference_lookup {name : String} {listed : Crd.Schema}
    (h : (secretReference leaf none).properties.lookup name = some listed) :
    listed.properties = [] ∧ listed.items = none ∧ listed.branches = [] := by
  rw [secretReference, Crd.Schema.insert, Keyed.lookup_insert, Crd.Schema.insert, Keyed.lookup_insert] at h
  split at h
  · cases h
    exact ⟨rfl, rfl, rfl⟩
  · split at h
    · cases h
      exact ⟨rfl, rfl, rfl⟩
    · simp [Crd.Schema.object] at h

theorem secretReference_key (leaf : String) :
    ∃ key, (secretReference leaf none).properties.lookup "key" = some key ∧
    key.default = some (.string (".data." ++ leaf)) := by
  rw [secretReference, Crd.Schema.insert, Keyed.lookup_insert]
  exact ⟨_, rfl, rfl⟩

/-- A reference to a secret tells which field it stands in for. -/
theorem isSecret_leaf {other : String} (h : IsSecret leaf node) (h' : IsSecret other node) :
    leaf = other := by
  obtain ⟨key, hk, hd⟩ := secretReference_key leaf
  obtain ⟨key', hk', hd'⟩ := secretReference_key other
  rw [← h, h', hk'] at hk
  cases hk
  rw [hd'] at hd
  exact (String.append_right_inj _).mp (Json.string.inj (Option.some.inj hd)).symm

/-- A schema without parts has no reference to a secret in it. -/
theorem not_isSecret_of_leaf (hp : result.properties = []) (hi : result.items = none)
    (hb : result.branches = []) (hs : result.Stands links node) : ¬ IsSecret leaf node := by
  intro hn
  rw [hs.end_of_leaf hp hi hb, IsSecret, hp] at hn
  exact absurd hn.symm (Keyed.insert_ne_nil _ _ _)

theorem Hidden.not_isSecret_property {other name : String} {listed : Crd.Schema}
    (h : Hidden shape path source other result) (hl : result.properties.lookup name = some listed)
    (hs : listed.Stands links node) : ¬ IsSecret leaf node := by
  rw [h.properties] at hl
  obtain ⟨hp, hi, hb⟩ := secretReference_lookup hl
  exact not_isSecret_of_leaf hp hi hb hs

/-! ### Paths -/

theorem rooted_rooted (path : List String) : rooted (rooted path) = rooted path := by
  cases path <;> rfl

theorem secretPath_nil (h : path.getLast? = some leaf) : secretPath path [] leaf = path := by
  rw [secretPath, List.map_nil, List.append_nil]
  exact List.dropLast_append_getLast? leaf h

/-- Links that are named for the field that they lead to add its segment to the path. -/
theorem secretPath_cons (path : List String) (link : Link) (links : List Link) (leaf : String) :
    secretPath (path ++ [linkSegment link]) links leaf = secretPath path (link :: links) leaf := by
  rw [secretPath, secretPath, List.map_cons, List.append_assoc]
  rfl

/-- The last link to a reference is not named for the field that the reference stands in for. -/
theorem secretPath_last (path : List String) (key name leaf : String) :
    secretPath (path ++ [key]) [] leaf = secretPath path [.property name] leaf := by
  simp [secretPath]

/-- Whether a field is sensitive depends on its path alone. -/
theorem secret?_path (h : (setting.site source path).secret? = some leaf) :
    path.getLast? = some leaf ∧ ∀ other, (setting.site other path).secret? = some leaf := by
  refine ⟨?_, fun _ => h⟩
  rw [Site.secret?] at h
  split at h
  · exact h
  · cases h

/-! ### Secrets in results -/

section
variable (hp : setting.plugins = PropertyPlugin.all) {depth : Nat} {schema : OpenApi.Schema}
include hp

/-- No result of a conversion has a default. Only the keys of references to secrets have one. -/
theorem shapeWithin_default (h : shapeWithin setting depth schema path = some result) :
    result.default = none := by
  cases depth with
  | zero => cases h
  | succ depth =>
    obtain ⟨source, _, _, ⟨_, _, h⟩ | ⟨_, ⟨_, h⟩ | ⟨_, h⟩⟩⟩ := shape_cases hp h
    · exact h.default
    · exact h.default
    · exact h.default

theorem not_isSecret_of_plain (h : Plain (shapeWithin setting depth) path source result) :
    ¬ IsSecret leaf result := by
  intro hs
  obtain ⟨key, hk, hd⟩ := secretReference_key leaf
  rw [← hs, h.properties] at hk
  rcases propertyShapes_lookup hk with hk | ⟨_, _, converted, _, hc, _, rfl⟩
  · cases hk
  · rw [show converted.default = none from shapeWithin_default hp hc] at hd
    cases hd

theorem not_isSecret_of_tagged (h : Tagged (shapeWithin setting depth) path source result) :
    ¬ IsSecret leaf result := by
  intro hs
  obtain ⟨key, hk, hd⟩ := secretReference_key leaf
  obtain ⟨bare, hb, hr⟩ := h.properties
  rw [← hs, hr, Keyed.lookup_insert] at hk
  split at hk
  · cases hk
    cases hd
  · rcases optionShapes_lookup hk with hk | ⟨_, _, _, _, _, hc⟩
    · rw [hb] at hk
      cases hk
    · rw [shapeWithin_default hp hc] at hd
      cases hd

theorem shapeWithin_named (hl : (setting.site source (rooted path)).secret? = some leaf)
    (h : shapeWithin setting depth schema path = some result) : result.id ≠ none := by
  cases depth with
  | zero => cases h
  | succ depth =>
    obtain ⟨other, _, _, ⟨_, _, h⟩ | ⟨hn, _⟩⟩ := shape_cases hp h
    · simp [h.id]
    · rw [(secret?_path hl).2 other] at hn
      cases hn

/-- Below a reference to a secret there is no other one. -/
theorem nil_of_secret_of_named (h : shapeWithin setting depth schema path = some result)
    (hi : result.id ≠ none) (hs : result.Stands links node) (hn : IsSecret leaf node) : links = [] := by
  induction depth generalizing schema path result with
  | zero => cases h
  | succ depth ih =>
    obtain ⟨source, _, _, ⟨leaf', hl, h⟩ | ⟨_, ⟨_, h⟩ | ⟨_, h⟩⟩⟩ := shape_cases hp h
    · cases hs with
      | here => rfl
      | property hl hs => exact absurd hn (h.not_isSecret_property hl hs)
      | items hi =>
        rw [h.items] at hi
        cases hi
      | branch hb hs =>
        obtain ⟨branch, _, hc⟩ := h.sharing hb
        rw [← rooted_rooted] at hl
        exact ih hc (shapeWithin_named hp hl hc) hs
    · exact absurd h.id hi
    · exact absurd h.id hi

end

/-! ### Secrets in logs -/

/-- Whether a log has an entry about the secret at a place, with the path of
the field that it stands in for. -/
def Logged (leaf : String) (path : List String) (links : List Link) (entries : List Entry) : Prop :=
  ∃ origin, .secret links origin ∈ entries ∧
    origin.get? "property" = some (.string (Path.render (secretPath path links leaf)))

/-- An entry keeps the path when it is taken over into another log. -/
theorem Logged.imp {other : List String} {links' : List Link} {entries entries' : List Entry}
    (h : Logged leaf path links entries) (hpath : secretPath path links leaf = secretPath other links' leaf)
    (hmem : ∀ origin, .secret links origin ∈ entries → .secret links' origin ∈ entries') :
    Logged leaf other links' entries' := by
  obtain ⟨origin, he, ho⟩ := h
  exact ⟨origin, hmem origin he, by rw [ho, hpath]⟩

/-- Whether the conversions up to a depth log the secrets of their results. -/
def AllLogged (setting : Setting) (depth : Nat) : Prop :=
  ∀ ⦃schema path result links node leaf⦄, shapeWithin setting depth schema path = some result →
    result.Stands links node → IsSecret leaf node →
    Logged leaf (rooted path) links (entriesWithin setting depth schema path)

section
variable (hp : setting.plugins = PropertyPlugin.all) {depth : Nat} (hall : AllLogged setting depth)
  (hk : keeps (setting.site source (rooted path)) PropertyPlugin.all = true) {name : String}
    {listed : Crd.Schema}
include hp hall hk

/-- A secret below a branch of a union is logged. -/
theorem Tagged.logged (h : Tagged (shapeWithin setting depth) (rooted path) source result)
    (hnone : (setting.site source (rooted path)).secret? = none)
    (ht : tags (shapeWithin setting depth) (rooted path) source = true)
    (hl : result.properties.lookup name = some listed) (hs : listed.Stands links node)
    (hn : IsSecret leaf node) :
    Logged leaf (rooted path) (.property name :: links)
      (sourceEntries (shapeWithin setting depth) (entriesWithin setting depth)
        (rooted path) setting source) := by
  obtain ⟨bare, hb, hr⟩ := h.properties
  rw [hr, Keyed.lookup_insert] at hl
  split at hl
  · cases hl
    exact absurd hn (not_isSecret_of_leaf rfl rfl rfl hs)
  · rcases optionShapes_lookup hl with hl | ⟨branch, reference, hm, href, rfl, hc⟩
    · rw [hb] at hl
      cases hl
    · have hlogged := hall hc hs hn
      rw [rooted_append] at hlogged
      exact hlogged.imp (secretPath_cons _ (.property _) _ _) fun _ =>
        mem_sourceEntries_of_option hp _ _ _ _ hk (by simp [hnone, ht]) hm href hc

/-- A secret at a property or below it is logged. -/
theorem Plain.logged (h : Plain (shapeWithin setting depth) (rooted path) source result)
    (hl : result.properties.lookup name = some listed) (hs : listed.Stands links node)
    (hn : IsSecret leaf node) :
    Logged leaf (rooted path) (.property name :: links)
      (sourceEntries (shapeWithin setting depth) (entriesWithin setting depth)
        (rooted path) setting source) := by
  rw [h.properties] at hl
  rcases propertyShapes_lookup hl with hl | ⟨key, schema, converted, hm, hc, rfl, rfl⟩
  · cases hl
  · obtain ⟨place, hs, hplace⟩ := hs.unnamed
    have hn : IsSecret leaf place := hplace.trans hn
    have hlogged := hall hc hs hn
    rw [rooted_append] at hlogged
    refine hlogged.imp ?_ fun _ => mem_sourceEntries_of_property hp _ _ _ _ hk hm hc
    -- A property that asks for another name is a reference to a secret itself.
    by_cases hi : converted.id = none
    · rw [hi]
      exact secretPath_cons _ (.property key) _ _
    · obtain rfl := nil_of_secret_of_named hp hc hi hs hn
      exact secretPath_last _ _ _ _

end

/-- **Every reference to a secret in the result of a conversion is in its log.** -/
theorem secret_logged (hp : setting.plugins = PropertyPlugin.all) (depth : Nat) :
    AllLogged setting depth := by
  induction depth with
  | zero => exact fun _ _ _ _ _ _ h => nomatch h
  | succ depth ih =>
    intro schema path result links node leaf h hs hn
    obtain ⟨source, hr, hk, hc⟩ := shape_cases hp h
    rw [entriesWithin, hr]
    dsimp only
    cases hs with
    | here =>
      rcases hc with ⟨leaf', hl, hc⟩ | ⟨_, ⟨_, hc⟩ | ⟨_, hc⟩⟩
      · obtain rfl : leaf = leaf' := isSecret_leaf hn hc.properties
        refine ⟨secretOrigin (setting.site source (rooted path)),
          mem_sourceEntries_of_secret hp _ _ _ _ hk (by rw [hl]; rfl), ?_⟩
        rw [secretPath_nil (secret?_path hl).1]
        rfl
      · exact absurd hn (not_isSecret_of_tagged hp hc)
      · exact absurd hn (not_isSecret_of_plain hp hc)
    | property hl hs =>
      rcases hc with ⟨_, _, hc⟩ | ⟨hnone, ⟨ht, hc⟩ | ⟨_, hc⟩⟩
      · exact absurd hn (hc.not_isSecret_property hl hs)
      · exact hc.logged hp ih hk hnone ht hl hs hn
      · exact hc.logged hp ih hk hl hs hn
    | @items _ listed _ _ hi hs =>
      have hi : itemsShape (shapeWithin setting depth) (rooted path) source.items = some listed := by
        rcases hc with ⟨_, _, hc⟩ | ⟨_, ⟨_, hc⟩ | ⟨_, hc⟩⟩
        · rw [hc.items] at hi
          cases hi
        · rw [← hc.items, hi]
        · rw [← hc.items, hi]
      obtain ⟨items, hitems, hc⟩ := Option.bind_eq_some_iff.mp hi
      have hlogged := ih hc hs hn
      rw [rooted_append] at hlogged
      exact hlogged.imp (secretPath_cons _ .items _ _) fun _ =>
        mem_sourceEntries_of_items hp _ _ _ _ hk hitems
    | @branch _ branch _ _ hb hs =>
      have hshare : ∃ other ∈ sharing ((setting.site source (rooted path)).secret?.isNone &&
          tags (shapeWithin setting depth) (rooted path) source) source,
          shapeWithin setting depth other (rooted path) = some branch := by
        rcases hc with ⟨_, hl, hc⟩ | ⟨hnone, ⟨ht, hc⟩ | ⟨ht, hc⟩⟩
        · rw [hl]
          exact hc.sharing hb
        · rw [hnone, ht]
          exact hc.sharing hb
        · rw [hnone, ht]
          exact hc.sharing hb
      obtain ⟨other, hm, hc⟩ := hshare
      have hlogged := ih hc hs hn
      rw [rooted_rooted] at hlogged
      exact hlogged.imp rfl fun _ => mem_sourceEntries_of_sharing hp _ _ _ _ hk hm

/-! ### What is said of secrets -/

/-- Whether a tree says of a place that it refers to a secret and for which field of the API. -/
def Annotated (tree : Tree) (node : Extension.NodeId) (links : List Link) (location : String) : Prop :=
  (tree.said node links).lookup Extension.clusterMapping = some secretMapping ∧
    ∃ origin, (tree.said node links).lookup Extension.apiMapping = some origin ∧
      origin.get? "property" = some (.string location)

/-- Whether a log says of a place that it refers to a secret, and has no later entry about it or about a place
above it. -/
def SaidLast (entries : List Entry) (links : List Link) (location : String) : Prop :=
  ∃ before origin later, entries = before ++ .secret links origin :: later ∧
    origin.get? "property" = some (.string location) ∧ ∀ entry ∈ later, entry.isAbove links = false

theorem saidLast_iff {entries : List Entry} {location : String} : SaidLast entries links location ↔
    ∃ origin, lastAbove links entries = some (.secret links origin) ∧
      origin.get? "property" = some (.string location) := by
  constructor
  · rintro ⟨before, origin, later, he, ho, hl⟩
    exact ⟨origin, lastAbove_eq_some.mpr ⟨by simp [Entry.isAbove, Entry.links], before, later, he, hl⟩, ho⟩
  · rintro ⟨origin, hl, ho⟩
    obtain ⟨_, before, later, he, hl⟩ := lastAbove_eq_some.mp hl
    exact ⟨before, origin, later, he, ho, hl⟩

/-- **A reference to a secret in the result of a conversion is annotated exactly if its annotation is the last
entry of the log about its place or about one above it.** A property on the way to it that is listed once more
afterwards, by a schema that shares the node, takes the annotation back. -/
theorem secret_annotated_iff (hp : setting.plugins = PropertyPlugin.all) {place : Place}
    {schema : OpenApi.Schema} {tree after : Tree} {depth : Nat} (ht : tree.Linked)
    (hm : place.node < tree.size) (hs : place.schema = some schema)
    (hc : convert setting place depth tree = (some result, after)) (hst : result.Stands links node)
    (hn : IsSecret leaf node) :
    Annotated after place.node links (Path.render (secretPath (rooted place.path) links leaf)) ↔
      SaidLast (entriesWithin setting (maxDepth - depth) schema place.path) links
        (Path.render (secretPath (rooted place.path) links leaf)) := by
  have hr : shapeWithin setting (maxDepth - depth) schema place.path = some result := by
    have h := convertWithin_fst setting (maxDepth - depth) place tree
    rw [show convertWithin setting (maxDepth - depth) place tree = (some result, after) from hc, hs] at h
    exact h.symm
  have hw : after.said place.node = replay (entriesWithin setting (maxDepth - depth) schema place.path)
      (tree.said place.node) := by
    have h := (convertWithin_tells setting (maxDepth - depth) place tree ht hm).said
    rw [show convertWithin setting (maxDepth - depth) place tree = (some result, after) from hc, hs] at h
    rw [← notesWithin_eq_replay]
    exact h
  obtain ⟨said, hm, _⟩ := secret_logged hp _ hr hst hn
  have hl : (lastAbove links (entriesWithin setting (maxDepth - depth) schema place.path)).isSome :=
    List.find?_isSome.mpr ⟨_, List.mem_reverse.mpr hm, by simp [Entry.isAbove, Entry.links]⟩
  obtain ⟨last, hl⟩ := Option.isSome_iff_exists.mp hl
  obtain ⟨before, hb⟩ := said_replay (entriesWithin setting (maxDepth - depth) schema place.path)
    (tree.said place.node) links
  rw [saidLast_iff, Annotated, hw, hb, hl]
  cases last with
  | listed other => simp [Entry.noted]
  | secret other origin =>
    by_cases he : other = links
    · simp [Entry.noted, he, Extension.clusterMapping, Extension.apiMapping]
    · simp [Entry.noted, he]

/-- A branch lists a field with a secret in it, and the schema that it belongs to lists the field without. -/
def overlapping : OpenApi.Schema where
  allOf := [{ properties := [("a", { properties := [("password", {})] })] }]
  properties := [("a", { properties := [("name", {})] })]

/-- The field is sensitive. -/
def overlappingSetting : Setting where
  document := {}
  filters := { sensitive := ["$.a.password"] }

theorem overlapping_secret_lost :
    ∃ result after node, convert overlappingSetting ⟨some overlapping, Tree.root, [Path.root]⟩ 0 Tree.empty =
        (some result, after) ∧
      result.Stands [.property "a", .property "passwordSecretRef"] node ∧ IsSecret "password" node ∧
      ¬ Annotated after Tree.root [.property "a", .property "passwordSecretRef"] "$.a.password" := by
  generalize hs : convert overlappingSetting ⟨some overlapping, Tree.root, [Path.root]⟩ 0 Tree.empty = step
  obtain ⟨answer, after⟩ := step
  have ha : ∃ result node, answer = some result ∧
      result.Stands [.property "a", .property "passwordSecretRef"] node ∧ IsSecret "password" node := by
    obtain rfl : (convert overlappingSetting ⟨some overlapping, Tree.root, [Path.root]⟩ 0 Tree.empty).1 =
      answer :=
      congrArg Prod.fst hs
    exact ⟨_, _, rfl, .branch (List.mem_cons_self ..) (.property rfl (.property rfl (.here _))), rfl⟩
  obtain ⟨result, node, rfl, hst, hn⟩ := ha
  refine ⟨result, after, node, rfl, hst, hn, fun h => ?_⟩
  have hl := (secret_annotated_iff rfl Tree.empty_linked Nat.zero_lt_one rfl hs hst hn).mp h
  obtain ⟨origin, hl, _⟩ := saidLast_iff.mp hl
  have hr : lastAbove [.property "a", .property "passwordSecretRef"]
      (entriesWithin overlappingSetting maxDepth overlapping [Path.root]) =
        some (.listed [.property "a"]) := rfl
  cases hr.symm.trans hl

end CrdForge.Conversion
