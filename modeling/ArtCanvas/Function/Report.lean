import ArtCanvas.Function.Table

/-!
# Showing functions

Functions, clocks and triggers as trees.
-/

namespace ArtCanvas

/-- The name of an easing curve in reports. -/
def Easing.reportName (e : Easing) : String := e.name.capitalize

/-- Shows a clock. -/
def Clock.toTree (c : Clock Float) : Tree :=
  .record [("kind", .text c.kind.name), ("duration", .float c.duration), ("delay", .float c.delay),
    ("direction", .text c.direction.name), ("reverses", .bool c.reverses),
    ("iterations", .nat c.iterations), ("timing", .text c.easing.reportName),
    ("range", .float c.range), ("multiplier", .float c.multiplier), ("offset", .float c.offset)]

/-- Shows a trigger. -/
def Trigger.toTree (t : Trigger) : Tree :=
  .record [("target", .text t.target.name), ("action", .text t.action.name),
    ("source_function", .text t.sourceFunction), ("source_clock", .text t.sourceClock.name),
    ("event", .text t.event.name), ("source", Tree.ofOption .nat t.source)]

/-- Shows a point. -/
def Point.toTree (p : Point Float) : Tree := .record [("x", .float p.x), ("y", .float p.y)]

/-- Shows a curve. -/
def Cubic.toTree (c : Cubic) : Tree :=
  .record [("p0", c.p0.toTree), ("p1", c.p1.toTree), ("p2", c.p2.toTree), ("p3", c.p3.toTree)]

/-- The fields that every function shows. -/
def FunctionHeader.toFields (h : FunctionHeader) : List (String × Tree) :=
  [("name", .text h.name), ("requested_name", .text h.requested), ("bounds", h.bounds.toTree),
    ("canvas", .nat h.canvas)]

/-- The fields of a draw function. -/
def DrawFunction.toFields (f : DrawFunction) : List (String × Tree) :=
  f.header.toFields ++ ("layers", .list (f.layers.map .nat)) :: f.features.toFields
    ++ [("translate_origin", .bool f.originSet), ("translate_origin_h", .float f.originH),
      ("translate_origin_v", .float f.originV),
      ("rasterize_file_name", Tree.ofOption .text f.imageFile), ("crop", .bool f.crop),
      ("animation_function_name", Tree.ofOption .text f.animationName),
      ("animation_function", Tree.ofOption .nat f.animation),
      ("follow_orientation", Tree.ofOption .float f.orientation),
      ("rotate_clock", f.rotateClock.toTree), ("scale_clock", f.scaleClock.toTree),
      ("alpha_clock", f.alphaClock.toTree),
      ("triggers", .list (f.triggers.map Trigger.toTree))]

/-- The fields of an animation function. -/
def MotionFunction.toFields (f : MotionFunction) : List (String × Tree) :=
  f.header.toFields
    ++ [("layer", Tree.ofOption .nat f.layer), ("segments", .list (f.segments.map Cubic.toTree)),
      ("segment_lengths", .list (f.lengths.map .float)), ("path_clock", f.pathClock.toTree),
      ("triggers", .list (f.triggers.map Trigger.toTree))]

/-- The name of a kind of function. -/
def FunctionKind.name : FunctionKind → String
  | .draw => "draw"
  | .animation => "animation"

/-- Shows a function. -/
def ArtFunction.toTree (f : ArtFunction) : Tree :=
  .record (("kind", .text f.kind.name) ::
    match f with
    | .draw f => f.toFields
    | .animation f => f.toFields)

/-- Shows all functions. -/
def FunctionTable.toTree (t : FunctionTable) : Tree :=
  .record [("functions", .list (t.functions.map ArtFunction.toTree)),
    ("has_draw_functions", .bool t.hasDraw)]

end ArtCanvas
