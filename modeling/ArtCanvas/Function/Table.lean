import ArtCanvas.Compile.Warning
import ArtCanvas.Function.DrawSetting
import ArtCanvas.Function.Motion

/-!
# The functions of a document

Functions are kept in the order in which layers ask for them, and a function is known by its
position. A layer that is drawn joins the last draw function if that has the same name, so layers
that are neighbours can be painted by one function without changing the order of painting.
-/

namespace ArtCanvas

/-- A function of a compiled document. -/
inductive ArtFunction where
  /-- A function that paints layers. -/
  | draw (f : DrawFunction)
  /-- A function that is followed. -/
  | animation (f : MotionFunction)
  deriving Repr

namespace ArtFunction

/-- The kind of the function. -/
def kind : ArtFunction → FunctionKind
  | .draw _ => .draw
  | .animation _ => .animation

/-- Names and bounds. -/
def header : ArtFunction → FunctionHeader
  | .draw f => f.header
  | .animation f => f.header

/-- The name. -/
def name (f : ArtFunction) : String := f.header.name

/-- The name that layers ask for. -/
def requested (f : ArtFunction) : String := f.header.requested

/-- The function with another header. -/
def setHeader (header : FunctionHeader) : ArtFunction → ArtFunction
  | .draw f => .draw { f with header }
  | .animation f => .animation { f with header }

/-- The draw function, if it is one. -/
def asDraw? : ArtFunction → Option DrawFunction
  | .draw f => some f
  | .animation _ => none

/-- The animation function, if it is one. -/
def asAnimation? : ArtFunction → Option MotionFunction
  | .draw _ => none
  | .animation f => some f

/-- The triggers. -/
def triggers : ArtFunction → List Trigger
  | .draw f => f.triggers
  | .animation f => f.triggers

/-- The function with other triggers. -/
def setTriggers (triggers : List Trigger) : ArtFunction → ArtFunction
  | .draw f => .draw { f with triggers }
  | .animation f => .animation { f with triggers }

/-- The clocks. -/
def clocks : ArtFunction → List (Clock Float)
  | .draw f => f.clocks
  | .animation f => [f.pathClock]

/-- Whether the function has a clock of a kind. -/
def owns : ArtFunction → ClockKind → Bool
  | .draw _, kind => kind != .path
  | .animation _, kind => kind == .path

/-- Whether the function paints layers. -/
def isDraw (f : ArtFunction) : Bool := f.kind == .draw

/-- Whether the function paints layers and is known by `name`, as its own name or as the one that
layers ask for. -/
def drawsFor (name : String) (f : ArtFunction) : Bool :=
  f.isDraw && (f.name == name || f.requested == name)

end ArtFunction

/-- The position of the last element with a property. -/
def lastIdx? {α : Type} (p : α → Bool) : List α → Option Nat
  | [] => none
  | a :: as =>
    match lastIdx? p as with
    | some i => some (i + 1)
    | none => if p a then some 0 else none

/-- All functions of a document. -/
structure FunctionTable where
  /-- The functions. -/
  functions : List ArtFunction := []
  /-- Whether a draw function was ever asked for. -/
  hasDraw : Bool := false
  deriving Repr

namespace FunctionTable

/-- The names of all functions. -/
def names (t : FunctionTable) : List String := t.functions.map ArtFunction.name

/-- The draw functions with their positions. -/
def draws (t : FunctionTable) : List (Nat × DrawFunction) :=
  t.functions.zipIdx.filterMap fun (f, i) => f.asDraw?.map fun f => (i, f)

/-- The animation functions with their positions. -/
def animations (t : FunctionTable) : List (Nat × MotionFunction) :=
  t.functions.zipIdx.filterMap fun (f, i) => f.asAnimation?.map fun f => (i, f)

/-- Whether there is an animation function. -/
def hasAnimation (t : FunctionTable) : Bool := t.functions.any fun f => f.kind == .animation

/-- The position of the last function with a name, of one kind or of any. -/
def find? (t : FunctionTable) (name : String) (kind : Option FunctionKind) : Option Nat :=
  lastIdx? (fun f => f.name == name && kind.all (· == f.kind)) t.functions

/-- Goes through functions, last one first, for a draw function that is known by a name, and says
whether no other draw function was passed on the way. Animation functions are passed without
notice. -/
def scanDraw (name : String) : Bool → List (ArtFunction × Nat) → Option (Nat × Bool)
  | _, [] => none
  | passed, (.animation _, _) :: rest => scanDraw name passed rest
  | passed, (.draw f, i) :: rest =>
    if f.header.name == name || f.header.requested == name then some (i, !passed)
    else scanDraw name true rest

/-- The position of the last draw function that is known by a name, and whether it is the last draw
function of all. -/
def findDraw? (t : FunctionTable) (name : String) : Option (Nat × Bool) :=
  scanDraw name false t.functions.zipIdx.reverse

/-- A name that no function has, made from a given one. -/
def uniqueName (t : FunctionTable) (base : String) : String := Identifier.unique base t.names

/-- Adds a function and gives its position. -/
def push (t : FunctionTable) (f : ArtFunction) : Nat × FunctionTable :=
  (t.functions.length, { t with functions := t.functions ++ [f] })

/-- The header of a new function. -/
def newHeader (t : FunctionTable) (requested : String) : FunctionHeader :=
  { name := t.uniqueName requested, requested }

/-- Gives the draw function that a layer asks for by name: the last draw function if it is known by
that name, and else a new one. -/
def addDraw (t : FunctionTable) (requested : String) : Nat × FunctionTable :=
  let t := { t with hasDraw := true }
  match t.findDraw? requested with
  | some (i, true) => (i, t)
  | _ => t.push (.draw { header := t.newHeader requested })

/-- Adds an animation function under a name that no function has. -/
def addAnimation (t : FunctionTable) (requested : String) : Nat × FunctionTable :=
  t.push (.animation { header := t.newHeader requested })

/-- Changes the function at a position. -/
def modify (t : FunctionTable) (i : Nat) (g : ArtFunction → ArtFunction) : FunctionTable :=
  { t with functions := t.functions.modify i g }

section Bind

variable (t : FunctionTable)

/-- What the names of animation functions stand for: the position of each draw function that gives
one, the name, and the position of the function that was found. -/
def foundAnimations : List (Nat × String × Option Nat) :=
  t.draws.filterMap fun (i, f) =>
    f.animationName.map fun name => (i, name, t.find? name (some .animation))

/-- Writes what was found for a draw function, with a warning if it is nothing. -/
def writeAnimation (state : List Warning × FunctionTable) (entry : Nat × String × Option Nat) :
    List Warning × FunctionTable :=
  let (warnings, t) := state
  let (i, name, found) := entry
  match t.functions[i]?.bind ArtFunction.asDraw? with
  | none => state
  | some f =>
    let t := t.modify i fun _ => .draw { f with animation := found }
    if found.isNone then (warnings ++ [.missingAnimation f.header.name name], t)
    else (warnings, t)

/-- Finds the animation functions that draw functions follow: first all are looked for, then what
was found is written. -/
def bindAnimations : List Warning × FunctionTable :=
  t.foundAnimations.foldl writeAnimation ([], t)

/-- The position of the function that a trigger listens to, if it has the clock. -/
def triggerSource (trigger : Trigger) : Option Nat :=
  (t.find? trigger.sourceFunction none).filter fun i =>
    (t.functions[i]?).any fun f => f.owns trigger.sourceClock

/-- What the sources of triggers stand for: the position of each function, the place of the trigger
among its triggers, and the position of the function that was found. -/
def foundSources : List (Nat × Nat × Option Nat) :=
  t.functions.zipIdx.flatMap fun (f, i) =>
    f.triggers.zipIdx.map fun (trigger, slot) => (i, slot, t.triggerSource trigger)

/-- Writes what was found for a trigger, with a warning if it is nothing. -/
def writeSource (state : List Warning × FunctionTable) (entry : Nat × Nat × Option Nat) :
    List Warning × FunctionTable :=
  let (warnings, t) := state
  let (i, slot, found) := entry
  match t.functions[i]? with
  | none => state
  | some f =>
    match f.triggers[slot]? with
    | none => state
    | some trigger =>
      let t := t.modify i fun _ =>
        f.setTriggers (f.triggers.modify slot ({ · with source := found }))
      if found.isNone then
        (warnings ++ [.missingSource f.name trigger.sourceFunction trigger.sourceClock], t)
      else (warnings, t)

/-- Finds the functions that triggers listen to: first all are looked for, then what was found is
written. -/
def bindTriggers : List Warning × FunctionTable :=
  t.foundSources.foldl writeSource ([], t)

end Bind

/-- The summary of the functions, line by line. -/
def summaryLines (t : FunctionTable) : List String :=
  let draws := t.draws.map fun (_, f) =>
    "- " ++ f.header.name ++ s!": layers={f.layers.length}, requested=" ++ f.header.requested
  let animations := t.animations.map fun (_, f) =>
    "- " ++ f.header.name ++ s!": segments={f.segments.length}, requested=" ++ f.header.requested
  s!"Draw functions: {draws.length}" :: draws
    ++ if animations.isEmpty then []
      else s!"Animation functions: {animations.length}" :: animations

/-- The summary of the functions. -/
def summary (t : FunctionTable) : String :=
  String.join (t.summaryLines.map (· ++ "\n"))

end FunctionTable

end ArtCanvas
