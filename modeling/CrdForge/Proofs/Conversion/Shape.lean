import CrdForge.Proofs.Conversion.Outcome

/-! Conversions without annotations.

A conversion works on a tree of annotations, but what it answers does not depend on the tree: it is the
`shapeWithin` of the schema and its path (`convertWithin_fst`). The parts of that function follow the parts
of the conversion one by one. -/
namespace CrdForge.Conversion

open Extension (NodeId Tree)

/-- What is made of a schema at a path. -/
abbrev Shape := OpenApi.Schema → List String → Option Crd.Schema

/-- The site of a source, all references followed. -/
def Setting.site (setting : Setting) (source : OpenApi.Schema) (path : List String)
    (node : NodeId := Tree.root) : Site :=
  ⟨setting.document, setting.filters, source, node, path⟩

/-- An empty path stands for the root. -/
def rooted (path : List String) : List String := if path.isEmpty then [Path.root] else path

theorem rooted_append (path : List String) (segment : String) :
    rooted (path ++ [segment]) = path ++ [segment] := by
  cases path <;> rfl

/-! ### Parts of a schema -/

def optionShape (shape : Shape) (path : List String) (schema : Option OpenApi.Schema) : Option Crd.Schema :=
  schema.bind (shape · path)

def branchShapes (shape : Shape) (path : List String) (branches : List OpenApi.Schema) : List Crd.Schema :=
  branches.filterMap (shape · path)

def itemsShape (shape : Shape) (path : List String) (items : Option OpenApi.Schema) : Option Crd.Schema :=
  items.bind (shape · (path ++ [Path.wildcard]))

def additionalShape (shape : Shape) (path : List String) (additional : Option OpenApi.Schema) :
    Option (Additional Crd.Schema) :=
  additional.map fun schema =>
    match shape schema path with
    | some converted => .schema converted
    | none => .flag true

/-- Lists a converted property, under its own name or under the one that its conversion asks for. -/
def Properties.list (found : Properties) (key : String) (schema : Crd.Schema) : Properties where
  properties := Keyed.insert (schema.id.getD key) { schema with id := none } found.properties
  renames := if schema.id.isSome then Keyed.insert key (schema.id.getD key) found.renames else found.renames

/-- A schema that asks for no name is listed as it is. -/
theorem unnamed_eq {schema : Crd.Schema} (h : schema.id = none) : { schema with id := none } = schema := by
  cases schema
  cases h
  rfl

def propertyShapes (shape : Shape) (path : List String) (found : Properties) :
    List (String × OpenApi.Schema) → Properties
  | [] => found
  | (key, schema) :: rest =>
    match shape schema (path ++ [key]) with
    | some converted => propertyShapes shape path (found.list key converted) rest
    | none => propertyShapes shape path found rest

/-- The name of a branch of a union. -/
def optionName (reference : String) : String := Text.camelCase (OpenApi.referenceName reference)

def optionShapes (shape : Shape) (path : List String) (schema : Crd.Schema) :
    List OpenApi.Schema → Crd.Schema
  | [] => schema
  | branch :: rest =>
    match branch.reference with
    | none => optionShapes shape path schema rest
    | some reference =>
      match shape branch (path ++ [optionName reference]) with
      | some converted => optionShapes shape path (schema.insert (optionName reference) converted) rest
      | none => optionShapes shape path schema rest

/-- A union before the properties for its branches are listed. -/
def bareUnion (source : OpenApi.Schema) (schema : Crd.Schema) : Crd.Schema :=
  { schema with
    type := some "object"
    oneOf := []
    preserveUnknown := if source.allowsAdditional then schema.preserveUnknown else none }

def taggedShape (shape : Shape) (path : List String) (source : OpenApi.Schema) (schema : Crd.Schema) :
    Crd.Schema :=
  (optionShapes shape path (bareUnion source schema) source.oneOf).insert "type"
    (discriminator (optionNames source.oneOf))

/-! ### Whole schemas -/

def partShapes (shape : Shape) (path : List String) (source : OpenApi.Schema) :
    Crd.Schema × List (String × String) :=
  let found := propertyShapes shape path {} source.properties
  ({ plainPart source with
      items := itemsShape shape path source.items
      properties := found.properties
      additional := additionalShape shape path source.additionalSchema
      allOf := branchShapes shape path source.allOf
      oneOf := if isUnion source then [] else branchShapes shape path source.oneOf
      anyOf := branchShapes shape path source.anyOf
      not := optionShape shape path source.not },
    found.renames)

/-- Whether a union becomes an object with a property for each branch. -/
def isTagged (source : OpenApi.Schema) (schema : Crd.Schema) : Bool :=
  isUnion source && schema.properties.isEmpty && schema.additional.isNone

def unionShape (shape : Shape) (path : List String) (source : OpenApi.Schema) (schema : Crd.Schema) :
    Crd.Schema :=
  if isTagged source schema then taggedShape shape path source schema
  else if isUnion source then { schema with oneOf := branchShapes shape path source.oneOf }
  else schema

def sourceShape (setting : Setting) (shape : Shape) (path : List String) (source : OpenApi.Schema) :
    Option Crd.Schema :=
  let (parts, renames) := partShapes shape path source
  (outcome (setting.site source path) setting.plugins parts).map fun kept =>
    reconcileRequired renames (unionShape shape path source (settle source kept))

/-- What is made of a schema with no more schemas nested in each other than the second argument says. -/
def shapeWithin (setting : Setting) : Nat → Shape
  | 0, _, _ => none
  | depth + 1, schema, path =>
    (setting.document.resolve schema).bind
      (sourceShape setting (shapeWithin setting depth) (rooted path))

/-! ### Conversions answer with shapes -/

/-- The node at which annotations are written does not matter to what plugins make of a schema. -/
theorem outcome_site (setting : Setting) (source : OpenApi.Schema) (path : List String) (node : NodeId)
    (plugins : List PropertyPlugin) (schema : Crd.Schema) :
    outcome (setting.site source path node) plugins schema =
      outcome (setting.site source path) plugins schema := by
  induction plugins generalizing schema with
  | nil => rfl
  | cons plugin rest ih =>
    have h : plugin.outcome (setting.site source path node) schema =
        plugin.outcome (setting.site source path) schema := by cases plugin <;> rfl
    rw [outcome, outcome, h, funext ih]

/-- The conversion of every place answers with its shape. -/
def Answers (convert : Converter) (shape : Shape) : Prop :=
  ∀ place tree, (convert place tree).1 = place.schema.bind (shape · place.path)

namespace Answers
variable {convert : Converter} {shape : Shape} (h : Answers convert shape)
include h

theorem below (place : Place) (schema : OpenApi.Schema) (node : NodeId) (segment : Option String)
    (tree : Tree) :
    (convert (place.below schema node segment) tree).1 = shape schema (place.path ++ segment.toList) := by
  rw [h]
  rfl

theorem option (place : Place) (schema : Option OpenApi.Schema) (tree : Tree) :
    (convertOption convert place schema tree).1 = optionShape shape place.path schema := by
  cases schema with
  | none => rfl
  | some schema => simp [convertOption, optionShape, h.below]

theorem branches (place : Place) (branches : List OpenApi.Schema) (tree : Tree) :
    (convertBranches convert place branches tree).1 = branchShapes shape place.path branches := by
  induction branches generalizing tree with
  | nil => rfl
  | cons branch rest ih =>
    simp only [convertBranches, bind_apply, pure_apply, ih, h.below, Option.toList_none, List.append_nil]
    simp only [branchShapes, List.filterMap_cons]
    cases shape branch place.path <;> rfl

theorem items (place : Place) (items : Option OpenApi.Schema) (tree : Tree) :
    (convertItems convert place items tree).1 = itemsShape shape place.path items := by
  cases items with
  | none => rfl
  | some items => simp [convertItems, itemsShape, h.below]

theorem additional (place : Place) (additional : Option OpenApi.Schema) (tree : Tree) :
    (convertAdditional convert place additional tree).1 =
      additionalShape shape place.path additional := by
  cases additional with
  | none => rfl
  | some additional =>
    simp only [convertAdditional, bind_apply, h.below, additionalShape, Option.map_some,
      Option.toList_none, List.append_nil]
    cases shape additional place.path <;> rfl

theorem properties (place : Place) (found : Properties) (properties : List (String × OpenApi.Schema))
    (tree : Tree) :
    (convertProperties convert place found properties tree).1 =
      propertyShapes shape place.path found properties := by
  induction properties generalizing found tree with
  | nil => rfl
  | cons property rest ih =>
    obtain ⟨key, schema⟩ := property
    simp only [convertProperties, bind_apply, h.below, propertyShapes, Option.toList_some]
    cases shape schema (place.path ++ [key]) with
    | none => simp [ih]
    | some converted =>
      simp only [bind_apply, ih]
      rfl

theorem options (place : Place) (schema : Crd.Schema) (branches : List OpenApi.Schema) (tree : Tree) :
    (convertOptions convert place schema branches tree).1 =
      optionShapes shape place.path schema branches := by
  induction branches generalizing schema tree with
  | nil => rfl
  | cons branch rest ih =>
    simp only [convertOptions, optionShapes]
    cases branch.reference with
    | none => exact ih _ _
    | some reference =>
      simp only [bind_apply, h.below, Option.toList_some, optionName]
      cases shape branch (place.path ++ [Text.camelCase (OpenApi.referenceName reference)]) with
      | none => simp [ih]
      | some converted => simp [ih]

theorem union (place : Place) (source : OpenApi.Schema) (schema : Crd.Schema) (tree : Tree) :
    (convertUnion convert place source schema tree).1 = unionShape shape place.path source schema := by
  by_cases hu : isUnion source = true
  · by_cases ht : (schema.properties.isEmpty && schema.additional.isNone) = true
    · have hi : isTagged source schema = true := by simp [isTagged, hu, ht]
      simp only [convertUnion, unionShape, hu, ht, hi, Bool.not_true, Bool.false_eq_true, if_true, if_false]
      simp only [taggedUnion, taggedShape, bareUnion, bind_apply, pure_apply, h.options]
    · have hi : isTagged source schema = false := by
        rw [isTagged, hu, Bool.true_and]
        exact Bool.eq_false_iff.mpr ht
      simp only [convertUnion, unionShape, hu, ht, hi, Bool.not_true, Bool.false_eq_true, if_true, if_false,
        bind_apply, pure_apply, h.branches]
  · have hi : isTagged source schema = false := by simp [isTagged, hu]
    simp [convertUnion, unionShape, hu, hi]

theorem parts (place : Place) (source : OpenApi.Schema) (tree : Tree) :
    (convertParts convert place source tree).1 = partShapes shape place.path source := by
  by_cases hu : isUnion source = true
  · simp only [convertParts, partShapes, hu, if_true, bind_apply, pure_apply, h.items, h.branches,
      h.properties, h.option, h.additional]
  · simp only [convertParts, partShapes, hu, if_false, bind_apply, pure_apply, h.items, h.branches,
      h.properties, h.option, h.additional, Bool.false_eq_true]

theorem source (setting : Setting) (place : Place) (source : OpenApi.Schema) (tree : Tree) :
    (convertSource setting convert place source tree).1 =
      sourceShape setting shape place.path source := by
  have hp := h.parts place source tree
  simp only [convertSource, sourceShape, bind_apply, ← hp]
  generalize convertParts convert place source tree = parts
  obtain ⟨⟨schema, renames⟩, tree⟩ := parts
  simp only [applyAll_eq]
  rw [show (⟨setting.document, setting.filters, source, place.node, place.path⟩ : Site) =
    setting.site source place.path place.node from rfl, outcome_site]
  cases outcome (setting.site source place.path) setting.plugins schema with
  | none => rfl
  | some kept => simp [h.union]

end Answers

/-- **What a conversion answers does not depend on the annotations.** -/
theorem convertWithin_fst (setting : Setting) (depth : Nat) :
    Answers (convertWithin setting depth) (shapeWithin setting depth) := by
  induction depth with
  | zero =>
    intro place tree
    cases place.schema <;> rfl
  | succ depth ih =>
    intro place tree
    simp only [convertWithin, shapeWithin]
    cases place.schema with
    | none => rfl
    | some schema =>
      simp only [Option.bind_some]
      cases setting.document.resolve schema with
      | none => rfl
      | some source => exact ih.source setting _ source tree

end CrdForge.Conversion
