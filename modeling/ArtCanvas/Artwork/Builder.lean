import ArtCanvas.Artwork.Validity

/-!
# Building documents

A builder adds nodes, groups, patterns and layers one by one. What a group or a layer contains is
given as a list of nodes that exist already, and the builder links them as siblings. Conflicts are
left to the check at the end.
-/

namespace ArtCanvas

/-- A document under construction. -/
structure ArtBuilder where
  /-- What has been added so far. -/
  doc : ArtDocument := {}
  deriving Inhabited

namespace ArtBuilder

/-- Makes `next` the sibling after `node`, if that node exists. -/
def setNext (nodes : Array ArtNode) (node next : Nat) : Array ArtNode :=
  nodes.modify node fun n => { n with nextSibling := some next }

/-- Links a list of nodes as siblings. -/
def linkSiblings (nodes : Array ArtNode) : List Nat → Array ArtNode
  | node :: next :: rest => linkSiblings (setNext nodes node next) (next :: rest)
  | _ => nodes

/-- Links a list of nodes as siblings and gives the first one. -/
def link (b : ArtBuilder) (nodes : List Nat) : Option Nat × ArtBuilder :=
  (nodes.head?, { b with doc := { b.doc with nodes := linkSiblings b.doc.nodes nodes } })

/-- Adds a node and gives its position. -/
def node (b : ArtBuilder) (n : ArtNode) : Nat × ArtBuilder :=
  (b.doc.nodes.size, { b with doc := { b.doc with nodes := b.doc.nodes.push n } })

/-- Adds a node with children below it. -/
def group (b : ArtBuilder) (n : ArtNode) (children : List Nat) : Nat × ArtBuilder :=
  let (firstChild, b) := b.link children
  b.node { n with firstChild }

/-- Adds a placed copy of a pattern. -/
def symbol (b : ArtBuilder) (n : ArtNode) (pattern : Nat) : Nat × ArtBuilder :=
  b.node { n with kind := .symbol, symbol := some pattern }

/-- Adds a plugin group with a result and the children that it was made from. -/
def pluginGroup (b : ArtBuilder) (n : ArtNode) (result : Nat) (children : List Nat) :
    Nat × ArtBuilder :=
  let (firstChild, b) := b.link children
  b.node { n with kind := .pluginGroup, result := some result, firstChild }

/-- Adds a pattern and gives its position. -/
def pattern (b : ArtBuilder) (name : String) (content : Option Nat) : Nat × ArtBuilder :=
  (b.doc.patterns.size,
    { b with doc := { b.doc with patterns := b.doc.patterns.push { name, content } } })

/-- Adds a layer below all others and gives its position. -/
def layer (b : ArtBuilder) (name : String) (visible : Bool) (nodes : List Nat) :
    Nat × ArtBuilder :=
  let (art, b) := b.link nodes
  (b.doc.layers.size,
    { b with doc := { b.doc with layers := b.doc.layers.push { name, visible, art } } })

/-- The finished document, if it passes the check. -/
def build [CurveLibrary] (b : ArtBuilder) : Except Failure ArtDocument := b.doc.validated

end ArtBuilder

end ArtCanvas
