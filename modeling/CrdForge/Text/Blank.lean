import CrdForge.Text.CodeRanges

/-! White space: the twenty-five characters of that property, and texts made of nothing else. -/
namespace CrdForge.Text

/-- The code points of white space. -/
def blank : CodeRanges where
  bounds := #[
    (0x9, 0xd), (0x20, 0x20), (0x85, 0x85), (0xa0, 0xa0), (0x1680, 0x1680), (0x2000, 0x200a),
    (0x2028, 0x2029), (0x202f, 0x202f), (0x205f, 0x205f), (0x3000, 0x3000)]

/-- Whether the text holds nothing but white space. -/
def isBlank (text : String) : Bool := text.toList.all blank.contains

end CrdForge.Text
