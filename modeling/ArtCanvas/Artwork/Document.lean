import ArtCanvas.Color
import ArtCanvas.Geometry.Box

/-!
# Art documents

A document lists layers, nodes and patterns. They refer to each other by position: a layer to the
first node of its art, a node to its first child and to its next sibling, a symbol to the pattern it
places, and a plugin group to the node that holds its result. The first layer is the topmost one.
-/

namespace ArtCanvas

/-- What a node is. -/
inductive NodeKind where
  /-- A path or a group. -/
  | plain
  /-- A placed copy of a pattern. -/
  | symbol
  /-- A group whose visible art was made by a plugin and is kept apart. -/
  | pluginGroup
  deriving DecidableEq, Repr, Inhabited

/-- A colour at one place of a gradient. -/
structure GradientStop where
  /-- The place, from 0 to 1. -/
  offset : Float
  /-- The colour. -/
  color : Color
  deriving Repr, Inhabited

/-- What a fill or a stroke is painted with. -/
inductive Paint where
  /-- Nothing. -/
  | none
  /-- One colour. -/
  | solid (color : Color)
  /-- Colours that run into each other. -/
  | gradient (stops : List GradientStop)
  /-- Copies of a pattern. -/
  | pattern (index : Nat)
  deriving Repr, Inhabited

/-- The two paints of a node. -/
inductive PaintTarget where
  | fill
  | stroke
  deriving DecidableEq, Repr

theorem PaintTarget.exists_iff {p : PaintTarget → Prop} :
    (∃ target, p target) ↔ p .fill ∨ p .stroke := by
  constructor
  · rintro ⟨target, h⟩
    cases target with
    | fill => exact Or.inl h
    | stroke => exact Or.inr h
  · rintro (h | h)
    · exact ⟨.fill, h⟩
    · exact ⟨.stroke, h⟩

/-- A node of a document. -/
structure ArtNode where
  /-- What the node is. -/
  kind : NodeKind := .plain
  /-- The box of the node. -/
  bounds : Box Float
  /-- Whether the node and what is below it are left out. -/
  hidden : Bool := false
  /-- The opacity, from 0 to 1. -/
  opacity : Float := 1.0
  /-- The paint inside the outline. -/
  fill : Paint := .none
  /-- The paint along the outline. -/
  stroke : Paint := .none
  /-- The width of the painted outline. -/
  strokeWidth : Float := 1.0
  /-- The first node below this one. -/
  firstChild : Option Nat := none
  /-- The node that follows beside this one. -/
  nextSibling : Option Nat := none
  /-- The pattern that a symbol places. -/
  symbol : Option Nat := none
  /-- The node whose children are the art of a plugin group. -/
  result : Option Nat := none
  /-- The outline, as path data. -/
  path : Option String := none
  deriving Repr, Inhabited

/-- A layer of a document. -/
structure ArtLayer where
  /-- The name, with any options. -/
  name : String
  /-- Whether the layer is shown. -/
  visible : Bool := true
  /-- The first node of the art. -/
  art : Option Nat := none
  deriving Repr, Inhabited

/-- A pattern of a document: art that symbols and paints copy. -/
structure ArtPattern where
  /-- The name. -/
  name : String
  /-- The node with the art. -/
  content : Option Nat := none
  deriving Repr, Inhabited

/-- A layered document. -/
structure ArtDocument where
  /-- The layers, the topmost first. -/
  layers : Array ArtLayer := #[]
  /-- The nodes of all art. -/
  nodes : Array ArtNode := #[]
  /-- The patterns. -/
  patterns : Array ArtPattern := #[]
  deriving Repr, Inhabited

namespace ArtNode

/-- The paint of a node. -/
def paint (n : ArtNode) : PaintTarget → Paint
  | .fill => n.fill
  | .stroke => n.stroke

/-- Path data for the edges of a box. -/
def boxPath (b : Box Float) : String :=
  let at' (x y : Float) : String := Decimal.plain x ++ " " ++ Decimal.plain y
  "M" ++ at' b.left b.top ++ " L" ++ at' b.right b.top ++ " L" ++ at' b.right b.bottom
    ++ " L" ++ at' b.left b.bottom ++ " Z"

/-- A plain node whose outline is its box. -/
def rect (b : Box Float) : ArtNode := { bounds := b, path := some (boxPath b) }

end ArtNode

end ArtCanvas
