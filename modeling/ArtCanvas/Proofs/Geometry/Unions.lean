import ArtCanvas.Geometry.Box
import Mathlib.Data.Prod.Lex
import Mathlib.Order.Lattice

/-!
# Boxes around boxes

A union takes the smaller of two left edges and the larger of two right edges, whether or not the
edges of a box are in order. So a union of empty boxes can have points: it has some as soon as one
left edge lies before one right edge, be it that of another box, and likewise from below to above.

The edges are binary numbers, whose comparison is no linear order: nothing compares with what is
not a number.

* `Scalar.rank?`: the place of a number in a linear order.
* `Scalar.lesser_le_iff`, `Scalar.le_greater_iff`: what is below, or above, one of two numbers.
* `Span`: a box along one axis.
* `Span.occupied_around_iff`: when the union of spans has points.
* `Box.Reach`, `Box.occupied_around_iff`: the same for boxes.
-/

namespace ArtCanvas

namespace Scalar

open Float.Model (UnpackedFloat)

/-- Places of numbers: first infinities and signs, then exponents, then mantissas. -/
abbrev Rank := ℤ ×ₗ ℤ ×ₗ ℤ

/-- The place of what bits stand for, if that is a number. Zeros of both signs have one place. -/
def rankOf? : UnpackedFloat → Option Rank
  | .notANumber => none
  | .infinity .negative => some (toLex (-2, toLex (0, 0)))
  | .finite .negative mantissa exponent _ => some (toLex (-1, toLex (-exponent, -mantissa)))
  | .zero _ => some (toLex (0, toLex (0, 0)))
  | .finite .positive mantissa exponent _ => some (toLex (1, toLex (exponent, mantissa)))
  | .infinity .positive => some (toLex (2, toLex (0, 0)))

/-- The place of a number. -/
def rank? (x : Float) : Option Rank := rankOf? x.toModel.unpack

theorem compare_natCast (m n : ℕ) : compare (m : ℤ) n = compare m n := by
  simp only [compare, compareOfLessAndEq, Int.ofNat_lt, Int.natCast_inj]

theorem compare_neg (a b : ℤ) : compare (-a) (-b) = (compare a b).swap := by
  rw [Int.compare_swap, Int.compare_eq_ite_lt, Int.compare_eq_ite_lt]
  simp only [Int.neg_lt_neg_iff]

/-- Numbers compare as their places do, and other values with nothing. -/
theorem compare_eq (a b : UnpackedFloat) :
    a.compare b = (rankOf? a).bind fun r => (rankOf? b).map fun r' => compare r r' := by
  rcases a with (_ | _) | _ | _ | ⟨_ | _, m, e, _⟩ <;>
    rcases b with (_ | _) | _ | _ | ⟨_ | _, m', e', _⟩ <;>
    -- only numbers of one sign are not told apart by signs and infinities
    try rfl
  · change some ((compare e e').then (compare m m')).swap =
      some ((compare (-e) (-e')).then (compare (-m : ℤ) (-m')))
    rw [compare_neg, compare_neg, compare_natCast, Ordering.swap_then]
  · change some ((compare e e').then (compare m m')) =
      some ((compare e e').then (compare (m : ℤ) m'))
    rw [compare_natCast]

/-- Floats are compared by their ranks; one without a rank is not below anything. -/
theorem le_iff {x y : Float} : x ≤ y ↔ ∃ r ∈ rank? x, ∃ r' ∈ rank? y, r ≤ r' := by
  have hcompare : x ≤ y ↔ (x.toModel.unpack.compare y.toModel.unpack).any Ordering.isLE = true :=
    decide_eq_true_iff
  rw [hcompare, compare_eq, rank?, rank?]
  cases rankOf? x.toModel.unpack <;> cases rankOf? y.toModel.unpack <;>
    simp [← Ordering.ne_gt_iff_isLE, compare_le_iff_le]

/-- The strict comparison goes by the ranks as well. -/
theorem lt_iff {x y : Float} : x < y ↔ ∃ r ∈ rank? x, ∃ r' ∈ rank? y, r < r' := by
  have hcompare : x < y ↔ (x.toModel.unpack.compare y.toModel.unpack == some .lt) = true :=
    decide_eq_true_iff
  rw [hcompare, compare_eq, rank?, rank?]
  cases rankOf? x.toModel.unpack <;> cases rankOf? y.toModel.unpack <;>
    simp [compare_lt_iff_lt]

/-- A value is not the same as one below it, also where zeros of both signs count as the same. -/
theorem beq_eq_false_of_lt {x y : Float} (h : x < y) : (y == x) = false := by
  have hcompare : (y == x) = (y.toModel.unpack.compare x.toModel.unpack == some .eq) := rfl
  obtain ⟨r, hr, s, hs, hrs⟩ := lt_iff.mp h
  rw [rank?] at hr hs
  rw [hcompare, compare_eq, hr, hs]
  simp [compare_eq_iff_eq, hrs.ne']

/-- Whether a value is a number: nothing compares with what is none, not even that itself. -/
def IsNumber (x : Float) : Prop := x ≤ x

variable {x y z : Float}

/-- Numbers are the floats that have a rank. -/
theorem isNumber_iff : IsNumber x ↔ ∃ r, rank? x = some r := by
  rw [IsNumber, le_iff]
  cases rank? x <;> simp

/-- Only numbers are below something. -/
theorem isNumber_left (h : x ≤ y) : IsNumber x := by
  obtain ⟨r, hr, -⟩ := le_iff.mp h
  exact isNumber_iff.mpr ⟨r, hr⟩

/-- Only numbers are above something. -/
theorem isNumber_right (h : x ≤ y) : IsNumber y := by
  obtain ⟨-, -, r, hr, -⟩ := le_iff.mp h
  exact isNumber_iff.mpr ⟨r, hr⟩

/-- The order of floats is transitive, although not all floats take part in it. -/
theorem le_trans (h : x ≤ y) (h' : y ≤ z) : x ≤ z := by
  obtain ⟨r, hr, s, hs, hrs⟩ := le_iff.mp h
  obtain ⟨s', hs', t, ht, hst⟩ := le_iff.mp h'
  obtain rfl := Option.mem_unique hs hs'
  exact le_iff.mpr ⟨r, hr, t, ht, hrs.trans hst⟩

/-- What is below is not above. -/
theorem le_of_lt (h : x < y) : x ≤ y := by
  obtain ⟨r, hr, s, hs, hrs⟩ := lt_iff.mp h
  exact le_iff.mpr ⟨r, hr, s, hs, hrs.le⟩

/-- Two numbers are always comparable. -/
theorem le_of_not_lt (hx : IsNumber x) (hy : IsNumber y) (h : ¬ x < y) : y ≤ x := by
  obtain ⟨r, hr⟩ := isNumber_iff.mp hx
  obtain ⟨s, hs⟩ := isNumber_iff.mp hy
  refine le_iff.mpr ⟨s, hs, r, hr, not_lt.mp fun hrs => h ?_⟩
  exact lt_iff.mpr ⟨r, hr, s, hs, hrs⟩

/-- The smaller of two values is at most `z` if one of them is. -/
theorem lesser_le_iff : lesser x y ≤ z ↔ x ≤ z ∨ y ≤ z := by
  unfold lesser
  split
  next hy =>
    split
    next hlt => exact ⟨.inl, fun h => h.elim id (le_trans (le_of_lt hlt))⟩
    next hlt =>
      -- the second is taken, and if the first is a number it is no smaller
      refine ⟨.inr, fun h => h.elim (fun hxz => ?_) id⟩
      exact le_trans (le_of_not_lt (isNumber_left hxz) hy hlt) hxz
  next hy =>
    -- the second is no number, so nothing is known of it
    exact ⟨.inl, fun h => h.elim id fun hyz => absurd (isNumber_left hyz) hy⟩

/-- The larger of two values is at least `z` if one of them is. -/
theorem le_greater_iff : z ≤ greater x y ↔ z ≤ x ∨ z ≤ y := by
  unfold greater
  split
  next hy =>
    split
    next hlt => exact ⟨.inl, fun h => h.elim id fun hzy => le_trans hzy (le_of_lt hlt)⟩
    next hlt =>
      refine ⟨.inr, fun h => h.elim (fun hzx => ?_) id⟩
      exact le_trans hzx (le_of_not_lt hy (isNumber_right hzx) hlt)
  next hy => exact ⟨.inl, fun h => h.elim id fun hzy => absurd (isNumber_right hzy) hy⟩

/-- The lesser of a number and anything is a number. -/
theorem IsNumber.lesser (hx : IsNumber x) : IsNumber (lesser x y) := by
  unfold Scalar.lesser
  split
  next hy =>
    split
    · exact hx
    · exact hy
  · exact hx

/-- The greater of a number and anything is a number. -/
theorem IsNumber.greater (hx : IsNumber x) : IsNumber (greater x y) := by
  unfold Scalar.greater
  split
  next hy =>
    split
    · exact hx
    · exact hy
  · exact hx

/-- All ranks lie between those of the two infinities. -/
theorem rankOf?_le {a : UnpackedFloat} {r : Rank} (h : rankOf? a = some r) :
    toLex (-2, toLex (0, 0)) ≤ r ∧ r ≤ toLex (2, toLex (0, 0)) := by
  rcases a with (_ | _) | _ | _ | ⟨_ | _, _, _, _⟩ <;> cases h <;>
    simp [Prod.Lex.toLex_le_toLex]

end Scalar

/-- A box along one axis. -/
structure Span where
  /-- Where the span begins. -/
  low : Float
  /-- Where the span ends. -/
  high : Float

namespace Span

/-- Whether the span begins no later than it ends. -/
def Occupied (s : Span) : Prop := s.low ≤ s.high

/-- The smallest span around two spans. -/
def union (s t : Span) : Span := ⟨Scalar.lesser s.low t.low, Scalar.greater s.high t.high⟩

/-- The union of no spans. -/
def empty : Span := ⟨Box.empty.left, Box.empty.right⟩

/-- The span around all of some spans, which are added one after the other. -/
def around (spans : List Span) : Span := spans.foldl union empty

/-- Whether both ends are numbers. -/
structure IsNumeric (s : Span) : Prop where
  low : Scalar.IsNumber s.low
  high : Scalar.IsNumber s.high

/-- The empty span runs between numbers, the infinities. -/
theorem isNumeric_empty : empty.IsNumeric where
  low := Scalar.isNumber_iff.mpr ⟨_, rfl⟩
  high := Scalar.isNumber_iff.mpr ⟨_, rfl⟩

/-- The empty span holds nothing. -/
theorem not_occupied_empty : ¬ empty.Occupied := by
  unfold Occupied
  decide +kernel

/-- Beginning later than all numbers and ending before them, the empty span adds no point. -/
theorem IsNumeric.le_empty {s : Span} (h : s.IsNumeric) :
    s.low ≤ empty.low ∧ empty.high ≤ s.high := by
  obtain ⟨r, hr⟩ := Scalar.isNumber_iff.mp h.low
  obtain ⟨r', hr'⟩ := Scalar.isNumber_iff.mp h.high
  exact ⟨Scalar.le_iff.mpr ⟨r, hr, _, rfl, (Scalar.rankOf?_le hr).2⟩,
    Scalar.le_iff.mpr ⟨_, rfl, r', hr', (Scalar.rankOf?_le hr').1⟩⟩

/-- The lower end of a union is that of one of its parts. -/
theorem low_foldl_le_iff {spans : List Span} {s : Span} {y : Float} :
    (spans.foldl union s).low ≤ y ↔ s.low ≤ y ∨ ∃ t ∈ spans, t.low ≤ y := by
  induction spans generalizing s with
  | nil => simp
  | cons t spans ih =>
    rw [List.foldl_cons, ih, union, Scalar.lesser_le_iff, or_assoc]
    simp only [List.mem_cons, exists_eq_or_imp]

/-- So is the upper end. -/
theorem le_high_foldl_iff {spans : List Span} {s : Span} {y : Float} :
    y ≤ (spans.foldl union s).high ↔ y ≤ s.high ∨ ∃ t ∈ spans, y ≤ t.high := by
  induction spans generalizing s with
  | nil => simp
  | cons t spans ih =>
    rw [List.foldl_cons, ih, union, Scalar.le_greater_iff, or_assoc]
    simp only [List.mem_cons, exists_eq_or_imp]

/-- A union is numeric as soon as one of its parts is. -/
theorem isNumeric_around (spans : List Span) : (around spans).IsNumeric :=
  List.foldlRecOn spans union isNumeric_empty fun _ h _ _ => ⟨h.low.lesser, h.high.greater⟩

/-- The union of spans has points if one of them begins no later than one of them ends, be it the
same one or another. -/
theorem occupied_around_iff {spans : List Span} (h : ∀ s ∈ spans, s.IsNumeric) :
    (around spans).Occupied ↔ ∃ s ∈ spans, ∃ t ∈ spans, s.low ≤ t.high := by
  have hlow : ∀ y, (around spans).low ≤ y ↔ empty.low ≤ y ∨ ∃ s ∈ spans, s.low ≤ y :=
    fun y => low_foldl_le_iff
  have hhigh : ∀ y, y ≤ (around spans).high ↔ y ≤ empty.high ∨ ∃ t ∈ spans, y ≤ t.high :=
    fun y => le_high_foldl_iff
  rw [Occupied, hlow]
  simp only [hhigh]
  constructor
  · rintro ((hempty | ⟨t, ht, hle⟩) | ⟨s, hs, hle | ⟨t, ht, hle⟩⟩)
    · exact absurd hempty not_occupied_empty
    · -- a span that ends after all numbers begins before its own end
      exact ⟨t, ht, t, ht, Scalar.le_trans (h t ht).le_empty.1 hle⟩
    · exact ⟨s, hs, s, hs, Scalar.le_trans hle (h s hs).le_empty.2⟩
    · exact ⟨s, hs, t, ht, hle⟩
  · rintro ⟨s, hs, t, ht, hle⟩
    exact .inr ⟨s, hs, .inr ⟨t, ht, hle⟩⟩

end Span

namespace Box

/-- The box from left to right. -/
def across (b : Box Float) : Span := ⟨b.left, b.right⟩

/-- The box from below to above. -/
def upright (b : Box Float) : Span := ⟨b.bottom, b.top⟩

/-- Whether all four edges are numbers. -/
structure IsNumeric (b : Box Float) : Prop where
  across : b.across.IsNumeric
  upright : b.upright.IsNumeric

/-- A box that holds something has numbers for edges. -/
theorem Occupied.isNumeric {b : Box Float} (h : b.Occupied) : b.IsNumeric where
  across := ⟨Scalar.isNumber_left h.1, Scalar.isNumber_right h.1⟩
  upright := ⟨Scalar.isNumber_left h.2, Scalar.isNumber_right h.2⟩

/-- The box around all of some boxes, which are added one after the other. -/
def around (boxes : List (Box Float)) : Box Float := boxes.foldl union empty

/-- The horizontal span of a union is the union of the horizontal spans. -/
theorem across_around (boxes : List (Box Float)) :
    (around boxes).across = Span.around (boxes.map across) := by
  rw [Span.around, List.foldl_map]
  exact (List.foldl_hom across fun _ _ => rfl).symm

/-- The vertical span of a union is the union of the vertical spans. -/
theorem upright_around (boxes : List (Box Float)) :
    (around boxes).upright = Span.around (boxes.map upright) := by
  rw [Span.around, List.foldl_map]
  exact (List.foldl_hom upright fun _ _ => rfl).symm

theorem isNumeric_around (boxes : List (Box Float)) : (around boxes).IsNumeric where
  across := across_around boxes ▸ Span.isNumeric_around _
  upright := upright_around boxes ▸ Span.isNumeric_around _

/-- A box is empty if it holds nothing. -/
theorem isEmpty_iff {b : Box Float} : b.isEmpty = true ↔ ¬ b.Occupied := by
  simp [isEmpty]

/-- Whether boxes together have points: along both axes, one of them begins no later than one of
them ends, be it the same box or another one. -/
def Reach (boxes : List (Box Float)) : Prop :=
  (∃ b ∈ boxes, ∃ c ∈ boxes, b.left ≤ c.right) ∧ ∃ b ∈ boxes, ∃ c ∈ boxes, b.bottom ≤ c.top

/-- A box that holds something makes the union reach as far. -/
theorem Reach.of_occupied {boxes : List (Box Float)} {b : Box Float} (hb : b ∈ boxes)
    (h : b.Occupied) : Reach boxes :=
  ⟨⟨b, hb, b, hb, h.1⟩, b, hb, b, hb, h.2⟩

/-- The union of boxes has points if the boxes reach. -/
theorem occupied_around_iff {boxes : List (Box Float)} (h : ∀ b ∈ boxes, b.IsNumeric) :
    (around boxes).Occupied ↔ Reach boxes := by
  have hacross : ∀ s ∈ boxes.map across, s.IsNumeric :=
    List.forall_mem_map.mpr fun b hb => (h b hb).across
  have hupright : ∀ s ∈ boxes.map upright, s.IsNumeric :=
    List.forall_mem_map.mpr fun b hb => (h b hb).upright
  change (around boxes).across.Occupied ∧ (around boxes).upright.Occupied ↔ _
  rw [across_around, upright_around, Span.occupied_around_iff hacross,
    Span.occupied_around_iff hupright]
  simp only [List.mem_map, exists_exists_and_eq_and]
  rfl

/-- Boxes that all are the empty one do not reach. -/
theorem not_reach_of_eq_empty {boxes : List (Box Float)} (h : ∀ b ∈ boxes, b = empty) :
    ¬ Reach boxes := by
  rintro ⟨⟨b, hb, c, hc, hle⟩, -⟩
  rw [h b hb, h c hc] at hle
  exact Span.not_occupied_empty hle

end Box

end ArtCanvas
