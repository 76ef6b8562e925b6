import ArtCanvas.Artwork.Report

/-!
# Layers as they are scanned

Scanning a layer measures its art: a box around it, and the features for which drawing code needs
local variables.
-/

namespace ArtCanvas

/-- What art needs from the code that paints it. -/
structure Features where
  /-- Some node is not fully visible. -/
  alpha : Bool := false
  /-- Some paint is a gradient. -/
  gradients : Bool := false
  /-- Some paint is a pattern. -/
  patterns : Bool := false
  deriving DecidableEq, Repr, Inhabited

namespace Features

/-- What either of two parts needs. -/
def merge (f g : Features) : Features :=
  ⟨f.alpha || g.alpha, f.gradients || g.gradients, f.patterns || g.patterns⟩

/-- Features as fields of a report. -/
def toFields (f : Features) : List (String × Tree) :=
  [("has_alpha", .bool f.alpha), ("has_gradients", .bool f.gradients),
    ("has_patterns", .bool f.patterns)]

@[simp]
theorem merge_empty (f : Features) : f.merge {} = f := by
  simp [merge]

@[simp]
theorem empty_merge (f : Features) : merge {} f = f := by
  simp [merge]

theorem merge_assoc (f g h : Features) : (f.merge g).merge h = f.merge (g.merge h) := by
  simp [merge, Bool.or_assoc]

end Features

/-- What is known of a piece of art: a box around it, and its features. -/
structure Measure where
  /-- The box around all nodes. -/
  bounds : Box Float := Box.empty
  /-- What the nodes need. -/
  features : Features := {}
  deriving Repr, Inhabited

/-- A visible layer after it is scanned. -/
structure Layer where
  /-- The name, with any options. -/
  name : String
  /-- The box around the art. -/
  bounds : Box Float
  /-- The first node of the art. -/
  art : Option Nat
  /-- Whether the page is cut to this layer. -/
  crop : Bool
  /-- What the art needs. -/
  features : Features
  deriving Repr, Inhabited

namespace Layer

/-- The layer with the given measured art. -/
def ofMeasure (name : String) (art : Option Nat) (m : Measure) : Layer :=
  { name, bounds := m.bounds, art, crop := false, features := m.features }

/-- Shows a layer. -/
def toTree (l : Layer) : Tree :=
  .record ([("name", .text l.name), ("bounds", l.bounds.toTree), ("crop", .bool l.crop)]
    ++ l.features.toFields)

/-- The page that layers ask for: the first cropping layer that has art decides, and without one the
page holds all layers. -/
def pageBounds (layers : List Layer) : Box Float :=
  match layers.find? fun l => l.crop && !l.bounds.isEmpty with
  | some l => l.bounds
  | none => layers.foldl (fun b l => b.union l.bounds) Box.empty

end Layer

end ArtCanvas
