import ArtCanvas.Artwork.Document
import ArtCanvas.Report.Tree

/-!
# Showing art documents

Documents as trees, in the form in which they are read. References and outlines that are missing are
left out.
-/

namespace ArtCanvas

/-- Shows a box. -/
def Box.toTree (b : Box Float) : Tree :=
  .record [("left", .float b.left), ("top", .float b.top), ("right", .float b.right),
    ("bottom", .float b.bottom)]

/-- The name of a kind of node. -/
def NodeKind.name : NodeKind → String
  | .plain => "plain"
  | .symbol => "symbol"
  | .pluginGroup => "plugin_group"

/-- Shows a colour of a gradient. -/
def GradientStop.toTree (s : GradientStop) : Tree :=
  .record [("offset", .float s.offset), ("color", s.color.toTree)]

/-- Shows a paint. -/
def Paint.toTree : Paint → Tree
  | .none => .record [("kind", .text "none")]
  | .solid color => .record [("kind", .text "solid"), ("color", color.toTree)]
  | .gradient stops =>
    .record [("kind", .text "gradient"), ("stops", .list (stops.map GradientStop.toTree))]
  | .pattern index => .record [("kind", .text "pattern"), ("pattern", .nat index)]

/-- Shows a node. -/
def ArtNode.toTree (n : ArtNode) : Tree :=
  .record ([("kind", .text n.kind.name), ("bounds", n.bounds.toTree), ("hidden", .bool n.hidden),
      ("opacity", .float n.opacity), ("fill", n.fill.toTree), ("stroke", n.stroke.toTree),
      ("stroke_width", .float n.strokeWidth)]
    ++ Tree.fieldIfSome "first_child" .nat n.firstChild
    ++ Tree.fieldIfSome "next_sibling" .nat n.nextSibling
    ++ Tree.fieldIfSome "symbol" .nat n.symbol
    ++ Tree.fieldIfSome "result" .nat n.result
    ++ Tree.fieldIfSome "path" .text n.path)

/-- Shows a layer. -/
def ArtLayer.toTree (l : ArtLayer) : Tree :=
  .record ([("name", .text l.name), ("visible", .bool l.visible)]
    ++ Tree.fieldIfSome "art" .nat l.art)

/-- Shows a pattern. -/
def ArtPattern.toTree (p : ArtPattern) : Tree :=
  .record (("name", .text p.name) :: Tree.fieldIfSome "content" .nat p.content)

/-- Shows a document. -/
def ArtDocument.toTree (doc : ArtDocument) : Tree :=
  .record [("layers", .list (doc.layers.toList.map ArtLayer.toTree)),
    ("nodes", .list (doc.nodes.toList.map ArtNode.toTree)),
    ("patterns", .list (doc.patterns.toList.map ArtPattern.toTree))]

end ArtCanvas
