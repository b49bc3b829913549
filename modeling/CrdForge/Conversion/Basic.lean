import CrdForge.Extension.Tree
import CrdForge.Config.Basic
import CrdForge.Crd.Schema
import CrdForge.OpenApi.Document
import CrdForge.Path

/-! What conversions of API schemas to resource schemas work with. -/
namespace CrdForge.Conversion

open Extension (NodeId Tree)

/-- Conversions make and annotate nodes of a tree beside the schema. -/
abbrev Step (α : Type) := StateM Tree α

/-- A node of the API's schema, all references followed, and where it stands. -/
structure Site where
  document : OpenApi.Document
  filters : Config.Filters
  source : OpenApi.Schema
  /-- The node that takes the annotations. -/
  node : NodeId
  path : List String

/-- The text of the path. -/
def Site.location (site : Site) : String := Path.render site.path

/-- Whether a property of the node is read-only in the API. -/
def Site.hasReadOnly (site : Site) (property : String) : Bool :=
  ((site.source.properties.lookup property).bind site.document.resolve).any (·.readOnly)

end CrdForge.Conversion
