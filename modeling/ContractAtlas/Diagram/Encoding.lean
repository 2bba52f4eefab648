import ContractAtlas.Diagram.Basic

/-!
# Diagrams as JSON

A drawing program reads nodes with a label, a position and a style, and edges with
their two ends.  Coordinates may be written as integers or as floating-point numbers,
so their form is an argument.
-/

namespace ContractAtlas

/-- The style of a node's box. -/
def BoxStyle.encode (style : BoxStyle) : Json :=
  .record <| [
    ("background", .ofString style.palette.background),
    ("border", .ofString s!"{style.border}px solid {style.palette.stroke}"),
    ("padding", .int 10),
    ("borderRadius", .ofString "8px"),
    ("width", .int style.width),
    ("whiteSpace", .ofString "pre-wrap")] ++
    if style.monospace then [("fontFamily", .ofString "monospace")] else []

def Node.encode (coordinate : Int → Json) (node : Node) : Json :=
  .record [
    ("id", .ofString node.id.text),
    ("type", .ofString "default"),
    ("data", .record [
      ("label", .ofString node.label),
      ("category", .ofOption (fun category => .ofString category.name) node.category)]),
    ("position", .record [("x", coordinate node.x), ("y", coordinate node.y)]),
    ("style", node.style.encode)]

def Edge.encode (edge : Edge) : Json :=
  .record [
    ("id", .ofString edge.id),
    ("source", .ofString edge.source.text),
    ("target", .ofString edge.target.text),
    ("label", .ofOption .ofString edge.label),
    ("animated", .bool edge.animated),
    ("style", .record ((edge.stroke.map fun stroke => ("stroke", .ofString stroke)).toList))]

def Diagram.encode (coordinate : Int → Json) (diagram : Diagram) : Json :=
  .record [
    ("mode", .ofString diagram.kind.name),
    ("nodes", .arr (diagram.nodes.map (·.encode coordinate))),
    ("edges", .arr (diagram.edges.map Edge.encode))]

/-- A coordinate as a floating-point number. -/
def floatingCoordinate (value : Int) : Json :=
  .float (.ofInt value)

end ContractAtlas
