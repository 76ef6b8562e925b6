import ArtCanvas.Artwork.Reading
import ArtCanvas.Geometry.Path.Basic

/-!
# Sound documents

A document is checked before it is used: every reference leads somewhere, no node is referred to
twice by the links that build trees, and all numbers are in range. `ArtDocument.check` reports the
first fault.
-/

namespace ArtCanvas

/-- What holds a link to a node. -/
inductive Holder where
  /-- A layer, with its position and name, that links to its art. -/
  | layer (index : Nat) (name : String)
  /-- A pattern, with its position and name, that links to its content. -/
  | pattern (index : Nat) (name : String)
  /-- A node that links to its first child. -/
  | firstChild (node : Nat)
  /-- A node that links to its next sibling. -/
  | nextSibling (node : Nat)
  /-- A plugin group that links to its result. -/
  | result (node : Nat)
  deriving DecidableEq, Repr

/-- A link that builds the trees of a document. -/
structure Link where
  /-- What holds the link. -/
  holder : Holder
  /-- The node that the link leads to. -/
  target : Nat
  deriving DecidableEq, Repr

/-- What is wrong with a document. -/
inductive DocumentFault where
  /-- A link leads to a node that does not exist; `count` nodes do. -/
  | missingNode (link : Link) (count : Nat)
  /-- A second link leads to the same node. -/
  | sharedNode (link : Link)
  /-- A node is its own child or sibling. -/
  | selfReference (node : Nat)
  /-- The box of a node has an edge at infinity. -/
  | boundsNotFinite (node : Nat)
  /-- An opacity is not from 0 to 1. -/
  | opacityOutOfRange (node : Nat)
  /-- A stroke has no width that can be painted. -/
  | badStrokeWidth (node : Nat)
  /-- A symbol places no pattern. -/
  | symbolWithoutPattern (node : Nat)
  /-- A plugin group has no result. -/
  | pluginWithoutResult (node : Nat)
  /-- A node names a pattern that does not exist. -/
  | missingPattern (node pattern : Nat)
  /-- A colour of a gradient is not placed from 0 to 1. -/
  | gradientOutOfRange (node : Nat)
  /-- An outline cannot be read. -/
  | badPath (node : Nat) (error : String)
  deriving DecidableEq, Repr

/-- How a holder is called in messages. -/
def Holder.text : Holder → String
  | .layer index name => "layer " ++ toString index ++ " '" ++ name ++ "'"
  | .pattern index name => "pattern " ++ toString index ++ " '" ++ name ++ "'"
  | .firstChild node => s!"node {node} first_child"
  | .nextSibling node => s!"node {node} next_sibling"
  | .result node => s!"node {node} result"

/-- The text of a fault. -/
def DocumentFault.message : DocumentFault → String
  | .missingNode link count =>
    link.holder.text ++ s!" references missing node {link.target} (document has {count} nodes)"
  | .sharedNode link =>
    s!"node {link.target} is referenced more than once (" ++ link.holder.text ++ ")"
  | .selfReference node => s!"node {node} references itself"
  | .boundsNotFinite node => s!"node {node} bounds must be finite"
  | .opacityOutOfRange node => s!"node {node} opacity must be in [0, 1]"
  | .badStrokeWidth node => s!"node {node} stroke_width must be finite and >= 0"
  | .symbolWithoutPattern node => s!"symbol node {node} must name a pattern"
  | .pluginWithoutResult node => s!"plugin_group node {node} must name a result node"
  | .missingPattern node pattern => s!"node {node} references missing pattern {pattern}"
  | .gradientOutOfRange node => s!"node {node} gradient stop offsets must be in [0, 1]"
  | .badPath node error => s!"node {node} path data is invalid: " ++ error

/-- Whether `x` is a number from 0 to 1. -/
def isFraction (x : Float) : Bool := x.isFinite && 0.0 ≤ x && x ≤ 1.0

namespace ArtNode

/-- The links that the node at position `index` holds. -/
def links (index : Nat) (n : ArtNode) : List Link :=
  (n.firstChild.map fun target => ⟨.firstChild index, target⟩).toList
    ++ (n.nextSibling.map fun target => ⟨.nextSibling index, target⟩).toList
    ++ (n.result.map fun target => ⟨.result index, target⟩).toList

/-- Whether the node at position `index` is its own child or sibling. -/
def isSelfReferring (index : Nat) (n : ArtNode) : Bool :=
  n.firstChild == some index || n.nextSibling == some index

end ArtNode

/-- Fails with `fault` unless `ok` holds. -/
def require (ok : Bool) (fault : DocumentFault) : Except DocumentFault Unit :=
  if ok then .ok () else .error fault

namespace ArtDocument

/-- The links from layers and patterns into the trees. -/
def rootLinks (doc : ArtDocument) : List Link :=
  doc.layers.toList.zipIdx.filterMap
      (fun (layer, i) => layer.art.map fun target => ⟨.layer i layer.name, target⟩)
    ++ doc.patterns.toList.zipIdx.filterMap
      (fun (pattern, i) => pattern.content.map fun target => ⟨.pattern i pattern.name, target⟩)

/-- Marks the target of a link, which has to exist and must not be marked yet. -/
def follow (marked : Array Bool) (link : Link) : Except DocumentFault (Array Bool) :=
  match marked[link.target]? with
  | none => .error (.missingNode link marked.size)
  | some true => .error (.sharedNode link)
  | some false => .ok (marked.setIfInBounds link.target true)

/-- Checks the links of one node, given the nodes that are marked already. -/
def followNode (marked : Array Bool) (node : ArtNode × Nat) :
    Except DocumentFault (Array Bool) :=
  if node.1.isSelfReferring node.2 then .error (.selfReference node.2)
  else (node.1.links node.2).foldlM follow marked

/-- Checks all links: each leads to a node, and no two to the same one. The result marks the nodes
that some link leads to. -/
def checkLinks (doc : ArtDocument) : Except DocumentFault (Array Bool) := do
  let marked ← doc.rootLinks.foldlM follow (Array.replicate doc.nodes.size false)
  doc.nodes.toList.zipIdx.foldlM followNode marked

/-- Checks that a pattern exists. -/
def checkPattern (doc : ArtDocument) (node pattern : Nat) : Except DocumentFault Unit :=
  require (pattern < doc.patterns.size) (.missingPattern node pattern)

/-- Checks a paint of a node. -/
def checkPaint (doc : ArtDocument) (node : Nat) : Paint → Except DocumentFault Unit
  | .pattern pattern => doc.checkPattern node pattern
  | .gradient stops =>
    require (stops.all fun stop => isFraction stop.offset) (.gradientOutOfRange node)
  | .none | .solid _ => .ok ()

/-- Checks that a symbol has a pattern and a plugin group a result. -/
def checkKind (node : Nat) (n : ArtNode) : Except DocumentFault Unit :=
  match n.kind with
  | .symbol => require n.symbol.isSome (.symbolWithoutPattern node)
  | .pluginGroup => require n.result.isSome (.pluginWithoutResult node)
  | .plain => .ok ()

variable [CurveLibrary]

/-- Checks that the outline of a node can be read. -/
def checkPath (node : Nat) (n : ArtNode) : Except DocumentFault Unit :=
  match n.path with
  | none => .ok ()
  | some text =>
    match CurveLibrary.parse text with
    | .ok _ => .ok ()
    | .error error => .error (.badPath node error)

/-- Checks all but the links of the node at position `node`. -/
def checkNode (doc : ArtDocument) (n : ArtNode) (node : Nat) : Except DocumentFault Unit := do
  require n.bounds.isFinite (.boundsNotFinite node)
  require (isFraction n.opacity) (.opacityOutOfRange node)
  require (n.strokeWidth.isFinite && 0.0 ≤ n.strokeWidth) (.badStrokeWidth node)
  checkKind node n
  match n.symbol with
  | some pattern => doc.checkPattern node pattern
  | none => .ok ()
  doc.checkPaint node n.fill
  doc.checkPaint node n.stroke
  checkPath node n

/-- Checks a document: the links first, then each node. -/
def check (doc : ArtDocument) : Except DocumentFault Unit := do
  let _ ← doc.checkLinks
  doc.nodes.toList.zipIdx.forM fun (n, i) => doc.checkNode n i

/-- A document that passes the check. -/
def Valid (doc : ArtDocument) : Prop := doc.check = .ok ()

/-- Whether a document is valid is found out by checking it. -/
instance (doc : ArtDocument) : Decidable doc.Valid :=
  match h : doc.check with
  | .ok () => isTrue h
  | .error _ => isFalse fun valid => nomatch h.symm.trans valid

/-- The document, if it passes the check. -/
def validated (doc : ArtDocument) : Except Failure ArtDocument :=
  match doc.check with
  | .ok () => .ok doc
  | .error fault => .error (.invalid fault.message)

/-- Reads a JSON text as a document and checks it. -/
def parse (text : String) : Except Failure ArtDocument :=
  match Json.parse? text with
  | none => .error (.malformed "not a JSON text")
  | some j => do (← ofJson j).validated

end ArtDocument

end ArtCanvas
