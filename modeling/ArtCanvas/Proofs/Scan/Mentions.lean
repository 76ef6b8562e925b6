import ArtCanvas.Proofs.Pattern.Canvases
import ArtCanvas.Proofs.Scan.Registering

/-!
# The calls for patterns that a scan makes

A scan calls for a pattern whenever it comes to a node that uses one, again and again for the same
pattern. It looks into the art of a pattern at the first call only, before it goes on. What it
measures and warns of has no part in this, so the calls can be read off the art alone.

* `Artwork.mentions`: the calls of a scan, in order.
* `Artwork.allots_scan`: the patterns are placed and their canvases numbered by these calls.
-/

namespace ArtCanvas

namespace Artwork

variable (art : Artwork)

section Step

/- The calls for art one level below, after the calls that were made before. -/
variable (deeper : Option Nat → List Mention → List Mention)

/-- Mentions a pattern, and what its art mentions if it was not mentioned before. -/
def mentionPattern (handle : Nat) (role : PatternRole) (mentions : List Mention) : List Mention :=
  if handle ∈ Mention.used mentions then mentions ++ [⟨handle, role⟩]
  else deeper (art.patternContent handle) (mentions ++ [⟨handle, role⟩])

/-- The pattern of a symbol, or what the result of a plugin group mentions. -/
def mentionKind (node : Nat) (mentions : List Mention) : List Mention :=
  match art.kind node with
  | .plain => mentions
  | .symbol =>
    match art.symbolPattern node with
    | some pattern => art.mentionPattern deeper pattern .symbol mentions
    | none => mentions
  | .pluginGroup =>
    match art.pluginResult node with
    | some result => deeper (art.firstChild result) mentions
    | none => mentions

/-- The pattern of a paint. -/
def mentionPaint (node : Nat) (target : PaintTarget) (mentions : List Mention) : List Mention :=
  match art.paint node target with
  | .pattern pattern => art.mentionPattern deeper pattern .paint mentions
  | .none | .solid | .gradient => mentions

/-- What a node and the art below it mention. -/
def mentionNode (node : Nat) (mentions : List Mention) : List Mention :=
  let mentions := art.mentionKind deeper node mentions
  let mentions := art.mentionPaint deeper node .fill mentions
  let mentions := art.mentionPaint deeper node .stroke mentions
  deeper (art.firstChild node) mentions

end Step

/-- What a node and its siblings mention, with `levels` levels left. -/
def mentionSiblings : Nat → Option Nat → List Mention → List Mention
  | _, none, mentions => mentions
  | 0, some _, mentions => mentions
  | levels + 1, some first, mentions =>
    (art.siblings (some first)).foldl
      (fun mentions node =>
        if art.isHidden node then mentions
        else art.mentionNode (mentionSiblings levels) node mentions) mentions

/-- What the visible layers mention, the lowest first. -/
def mentions (maxDepth : Nat) : List Mention :=
  art.visibleLayers.foldl
    (fun mentions layer => art.mentionSiblings maxDepth (art.firstArt layer) mentions) []

section Step

variable {deeper : Option Nat → ScanState → ScanState}
  {deeper' : Option Nat → List Mention → List Mention}
  (hdeeper : ∀ first s mentions, s.patterns.Allots mentions →
    (deeper first s).patterns.Allots (deeper' first mentions))

include hdeeper

theorem allots_usePattern {s : ScanState} {mentions : List Mention}
    (h : s.patterns.Allots mentions) (node handle : Nat) (role : PatternRole) :
    (art.usePattern deeper node handle role s).patterns.Allots
      (art.mentionPattern deeper' handle role mentions) := by
  have hadd := h.add handle role (art.patternSource handle)
  unfold mentionPattern
  by_cases hmem : handle ∈ s.patterns.handles
  · rw [usePattern_of_mem role hmem, if_pos (h.handles ▸ hmem)]
    exact hadd
  · rw [usePattern_of_not_mem role hmem, if_neg (h.handles ▸ hmem)]
    exact (hdeeper _ _ _ hadd).setFeatures handle _

theorem allots_scanKind {s : ScanState} {mentions : List Mention}
    (h : s.patterns.Allots mentions) (node : Nat) :
    (art.scanKind deeper node s).patterns.Allots (art.mentionKind deeper' node mentions) := by
  unfold scanKind mentionKind
  cases art.kind node with
  | plain => exact h
  | symbol =>
    cases art.symbolPattern node with
    | none => exact h
    | some handle => exact art.allots_usePattern hdeeper h node handle .symbol
  | pluginGroup =>
    cases art.pluginResult node with
    | none => exact h
    | some result => exact hdeeper _ s mentions h

theorem allots_scanPaint {s : ScanState} {mentions : List Mention}
    (h : s.patterns.Allots mentions) (node : Nat) (target : PaintTarget) :
    (art.scanPaint deeper node target s).patterns.Allots
      (art.mentionPaint deeper' node target mentions) := by
  unfold scanPaint mentionPaint
  cases art.paint node target with
  | none | solid | gradient => exact h
  | pattern handle => exact art.allots_usePattern hdeeper h node handle .paint

theorem allots_scanNode {s : ScanState} {mentions : List Mention}
    (h : s.patterns.Allots mentions) (node : Nat) :
    (art.scanNode deeper node s).patterns.Allots (art.mentionNode deeper' node mentions) := by
  have hvisit : (s.visit node (art.bounds node)).patterns.Allots mentions := h
  rw [scanNode, mentionNode]
  -- one step after the other
  have hkind : (art.scanKind deeper node (s.visit node (art.bounds node))).patterns.Allots
    (art.mentionKind deeper' node mentions) := art.allots_scanKind hdeeper hvisit node
  generalize art.scanKind deeper node (s.visit node (art.bounds node)) = s₁ at hkind
  have hopacity : (art.scanOpacity node s₁).patterns.Allots
      (art.mentionKind deeper' node mentions) := by
    unfold scanOpacity
    split
    · exact hkind
    · exact hkind
  have hfill := art.allots_scanPaint hdeeper hopacity node .fill
  exact hdeeper _ _ _ (art.allots_scanPaint hdeeper hfill node .stroke)

end Step

theorem allots_scanSiblings (maxDepth levels : Nat) {s : ScanState} {mentions : List Mention}
    (h : s.patterns.Allots mentions) (first : Option Nat) :
    (art.scanSiblings maxDepth levels first s).patterns.Allots
      (art.mentionSiblings levels first mentions) := by
  induction levels generalizing first s mentions with
  | zero => cases first <;> exact h
  | succ levels ih =>
    cases first with
    | none => exact h
    | some first =>
      rw [scanSiblings, mentionSiblings]
      -- one sibling after the other, each of them apart from what comes behind it
      induction art.siblings (some first) generalizing s mentions with
      | nil => exact h
      | cons node nodes ihNodes =>
        refine ihNodes ?_
        dsimp only
        cases art.isHidden node with
        | true => exact h
        | false => exact art.allots_scanNode (fun first s mentions hs => ih hs first) h node

theorem allots_scanLayers (maxDepth : Nat) (layers : List Nat) {s : ScanState}
    {mentions : List Mention} (h : s.patterns.Allots mentions) :
    (art.scanLayers maxDepth layers s).2.patterns.Allots
      (layers.foldl (fun mentions layer =>
        art.mentionSiblings maxDepth (art.firstArt layer) mentions) mentions) := by
  induction layers generalizing s mentions with
  | nil => exact h
  | cons layer layers ih =>
    have hstart : ({ s with measure := {} } : ScanState).patterns.Allots mentions := h
    exact ih (art.allots_scanSiblings maxDepth maxDepth hstart (art.firstArt layer))

/-- A scan places the patterns and numbers their canvases as its calls say. -/
theorem allots_scan (maxDepth : Nat) :
    (art.scan maxDepth).2.patterns.Allots (art.mentions maxDepth) :=
  art.allots_scanLayers maxDepth art.visibleLayers PatternTable.allots_empty

end Artwork

end ArtCanvas
