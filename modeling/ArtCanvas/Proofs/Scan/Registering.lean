import ArtCanvas.Compile.Scan
import ArtCanvas.Proofs.Pattern.Table

/-!
# Patterns that a scan comes to

A scan that comes to a pattern notes the use in the table. If the pattern was not there before, the
scan goes around its art at once, with the pattern in the table already, and sets its features
after that.

* `Artwork.usePattern_of_mem`: a pattern of the table.
* `Artwork.enterPattern`, `Artwork.leavePattern`: what is done before and after the art of a new
  pattern, and `Artwork.usePattern_of_not_mem`: a new pattern.
-/

namespace ArtCanvas.Artwork

variable {art : Artwork} {deeper : Option Nat → ScanState → ScanState} {node handle : Nat}
  {s : ScanState}

/-- The use of a pattern that is in the table is noted there. -/
theorem usePattern_of_mem (role : PatternRole) (hmem : handle ∈ s.patterns.handles) :
    art.usePattern deeper node handle role s =
      { s with patterns := (s.patterns.add handle role (art.patternSource handle)).2 } := by
  have hnew := (PatternTable.add_of_mem role (art.patternSource handle) hmem).1
  unfold usePattern
  generalize s.patterns.add handle role (art.patternSource handle) = added at hnew ⊢
  obtain ⟨new, patterns⟩ := added
  cases hnew
  rfl

/-- The state in which the art of a new pattern is scanned: the pattern is in the table already. -/
def enterPattern (art : Artwork) (use : PatternUse) (role : PatternRole) (s : ScanState) :
    ScanState :=
  { s with
    patterns := (s.patterns.add use.handle role (art.patternSource use.handle)).2
    firstUses := s.firstUses ++ [use]
    measure := {} }

/-- The state after the art of a new pattern was scanned: the pattern has the features of it, and
what was measured before is measured on. -/
def leavePattern (handle : Nat) (s inner : ScanState) : ScanState :=
  { inner with
    measure := s.measure
    patterns := inner.patterns.setFeatures handle inner.measure.features }

/-- The art of a pattern that is not in the table is scanned in between. -/
theorem usePattern_of_not_mem (role : PatternRole) (hmem : handle ∉ s.patterns.handles) :
    art.usePattern deeper node handle role s = leavePattern handle s
      (deeper (art.patternContent handle) (art.enterPattern { handle, node } role s)) := by
  have hnew := (PatternTable.add_of_not_mem role (art.patternSource handle) hmem).1
  unfold usePattern enterPattern
  generalize s.patterns.add handle role (art.patternSource handle) = added at hnew ⊢
  obtain ⟨new, patterns⟩ := added
  cases hnew
  rfl

section Parts

variable {use : PatternUse} {role : PatternRole}

theorem handles_enterPattern (hmem : use.handle ∉ s.patterns.handles) :
    (art.enterPattern use role s).patterns.handles = s.patterns.handles ++ [use.handle] :=
  (PatternTable.add_of_not_mem role (art.patternSource use.handle) hmem).2.1

theorem featuresOf_enterPattern (hmem : use.handle ∉ s.patterns.handles) {other : Nat}
    (hne : other ≠ use.handle) :
    (art.enterPattern use role s).patterns.featuresOf other = s.patterns.featuresOf other :=
  (PatternTable.add_of_not_mem role (art.patternSource use.handle) hmem).2.2 other hne

@[simp]
theorem handles_leavePattern (handle : Nat) (s inner : ScanState) :
    (leavePattern handle s inner).patterns.handles = inner.patterns.handles :=
  PatternTable.handles_setFeatures _ _ _

theorem featuresOf_leavePattern_self {s inner : ScanState}
    (hmem : handle ∈ inner.patterns.handles) :
    (leavePattern handle s inner).patterns.featuresOf handle = inner.measure.features :=
  PatternTable.featuresOf_setFeatures_self _ hmem

theorem featuresOf_leavePattern {s inner : ScanState} {other : Nat} (hne : other ≠ handle) :
    (leavePattern handle s inner).patterns.featuresOf other = inner.patterns.featuresOf other :=
  PatternTable.featuresOf_setFeatures_of_ne _ _ hne

end Parts

end ArtCanvas.Artwork
