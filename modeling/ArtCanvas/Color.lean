import ArtCanvas.Decimal.Fixed
import ArtCanvas.Json.Decode
import ArtCanvas.Report.Tree

/-!
# Colours

A paint's colour has four channels of eight bits. Scripts write it in the notation of style sheets.
-/

namespace ArtCanvas

/-- A colour with opacity, not multiplied by it. -/
structure Color where
  /-- The red channel. -/
  r : UInt8
  /-- The green channel. -/
  g : UInt8
  /-- The blue channel. -/
  b : UInt8
  /-- The opacity. -/
  a : UInt8
  deriving DecidableEq, Repr, Inhabited

namespace Color

/-- A colour that hides what is below it. -/
def solid (r g b : UInt8) : Color := ⟨r, g, b, 255⟩

/-- Black without transparency. -/
def black : Color := solid 0 0 0

/-- The colour in the notation of style sheets. Opacity is written with three decimals, and left out
where it is full. -/
def css (c : Color) : String :=
  let channels := s!"{c.r.toNat}, {c.g.toNat}, {c.b.toNat}"
  if c.a = 255 then "rgb(" ++ channels ++ ")"
  else "rgba(" ++ channels ++ ", " ++ Decimal.fixed 3 (c.a.toNat.toFloat / 255.0) ++ ")"

/-- Reads one channel. -/
def channel? (j : Json) : Option UInt8 := (j.natUpTo? 255).map UInt8.ofNat

/-- Reads a colour. -/
def ofJson? (j : Json) : Option Color := do
  match ← j.record? ["r", "g", "b", "a"] with
  | [r, g, b, a] =>
    return ⟨← Json.required channel? r, ← Json.required channel? g, ← Json.required channel? b,
      ← Json.required channel? a⟩
  | _ => none

/-- Shows a colour. -/
def toTree (c : Color) : Tree :=
  .record [("r", .nat c.r.toNat), ("g", .nat c.g.toNat), ("b", .nat c.b.toNat),
    ("a", .nat c.a.toNat)]

end Color

end ArtCanvas
