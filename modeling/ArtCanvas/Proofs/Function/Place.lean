import ArtCanvas.Proofs.Geometry.Maps
import ArtCanvas.Function.Draw

/-!
# Art stays on the page

A frame moves the origin before a draw function paints, and the function paints art that is moved
the other way. Over exact numbers the two cancel: art that follows no path lies where the document
has it, whatever its origin is, and art that follows a path has its anchor point on the path.

* `Placement.anchorOffset_eq`: the offset of an anchor is where the page has the anchor point.
* `Placement.apply_localTransform_of_anchor`: the map for the art is the page, moved by the offset.
* `DrawFunction.art_on_page`: what this comes to for draw functions.
-/

namespace ArtCanvas

namespace Placement

/-- A placement with its numbers read as others. -/
def map {α β : Type} (read : α → β) (p : Placement α) : Placement β :=
  { bounds := p.bounds.map read
    originSet := p.originSet
    originH := read p.originH
    originV := read p.originV
    follows := p.follows }

variable {α : Type} [ExactScalar α] (p : Placement α) (document : Box α)

/-- The point of the art that lies the fractions `h` and `v` of its size from its corner. -/
def anchorPoint (h v : α) : Point α :=
  ⟨p.bounds.left + h * p.bounds.width, p.bounds.top - v * p.bounds.height⟩

/-- The offset of an anchor is where the page has the anchor point. -/
theorem anchorOffset_eq (h v : α) :
    p.anchorOffset document h v = document.page.apply (p.anchorPoint h v) := by
  rw [Box.apply_page]
  ext
  · simp only [anchorOffset, anchorPoint]
    ring
  · simp only [anchorOffset, anchorPoint]
    ring

variable {p} {h v : α}

/-- With an anchor, the map for the art is the page, moved by the offset of the anchor. -/
theorem apply_localTransform_of_anchor (hanchor : p.anchor = some (h, v)) (q : Point α) :
    (p.localTransform document).apply q + p.anchorOffset document h v =
      document.page.apply q := by
  rw [localTransform, hanchor]
  dsimp only
  rw [Affine.mul_eq_comp, Affine.apply_comp, Affine.apply_translate]
  ext
  · exact neg_add_cancel_right _ _
  · exact neg_add_cancel_right _ _

/-- The anchor point is at the origin of the art. -/
theorem apply_localTransform_anchorPoint (hanchor : p.anchor = some (h, v)) :
    (p.localTransform document).apply (p.anchorPoint h v) = ⟨0, 0⟩ := by
  have hsum := apply_localTransform_of_anchor document hanchor (p.anchorPoint h v)
  rw [anchorOffset_eq] at hsum
  ext
  · exact right_eq_add.mp (congrArg Point.x hsum).symm
  · exact right_eq_add.mp (congrArg Point.y hsum).symm

/-- Art that follows a path has an anchor: the chosen origin, or its centre. -/
theorem anchor_of_follows (hfollows : p.follows = true) :
    p.anchor = some (if p.originSet then p.originH else 1 / 2,
      if p.originSet then p.originV else 1 / 2) := by
  unfold anchor
  split_ifs
  · rfl
  · rw [ExactScalar.half_eq]

/-- Art that follows no path is moved back to where its own map took it from. -/
theorem reposition_elim_apply_localTransform (hfollows : p.follows = false) (q : Point α) :
    (p.reposition document).elim ((p.localTransform document).apply q)
      ((p.localTransform document).apply q + ·) = document.page.apply q := by
  unfold reposition
  by_cases hset : p.originSet = true
  · have hanchor : p.anchor = some (p.originH, p.originV) := if_pos hset
    rw [if_pos hset]
    exact apply_localTransform_of_anchor document hanchor q
  · have hanchor : p.anchor = none := by
      rw [anchor, if_neg hset, hfollows]
      rfl
    rw [if_neg hset, localTransform, hanchor]
    rfl

end Placement

namespace DrawFunction

variable {α : Type} [ExactScalar α]

/-- Art stays on the page. A draw function that follows no path is painted where the page has its
art: the displacement that frames give it undoes that of its own map, whether or not an origin was
chosen. One that follows a path is painted with its anchor point at the origin of the frame, and
where the path is at the place that the page has for the anchor point, the art is where the page has
it too. Numbers are exact: those of the function are given by `read`. -/
theorem art_on_page (read : Float → α) (f : DrawFunction) (document : Box α) :
    let p := f.placement.map read
    let paint (q : Point α) : Point α := (p.localTransform document).apply q
    let onPage (q : Point α) : Point α := ⟨q.x - document.left, document.top - q.y⟩
    (f.animation = none →
      ∀ q, (p.reposition document).elim (paint q) (paint q + ·) = onPage q) ∧
    (f.animation.isSome →
      let h := if f.originSet then read f.originH else 1 / 2
      let v := if f.originSet then read f.originV else 1 / 2
      let b := f.header.bounds.map read
      let anchor : Point α := ⟨b.left + h * b.width, b.top - v * b.height⟩
      paint anchor = ⟨0, 0⟩ ∧ ∀ q, paint q + onPage anchor = onPage q) := by
  intro p paint onPage
  -- points of the page are what the map of the page gives
  have honPage : ∀ q, document.page.apply q = onPage q := fun q => Box.apply_page document q
  refine ⟨fun hnone q => ?_, fun hsome => ?_⟩
  · have hfollows : p.follows = false := by
      change f.animation.isSome = false
      rw [hnone]
      rfl
    exact (Placement.reposition_elim_apply_localTransform document hfollows q).trans (honPage q)
  · intro h v b anchor
    have hanchor : p.anchor = some (h, v) := Placement.anchor_of_follows hsome
    refine ⟨Placement.apply_localTransform_anchorPoint document hanchor, fun q => ?_⟩
    -- the anchor goes to the origin, and the offset brings it back
    have hoffset : p.anchorOffset document h v = onPage anchor :=
      (p.anchorOffset_eq document h v).trans (honPage anchor)
    rw [← hoffset, ← honPage]
    exact Placement.apply_localTransform_of_anchor document hanchor q

end DrawFunction

end ArtCanvas
