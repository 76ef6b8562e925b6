import ArtCanvas.Clock.Setting
import ArtCanvas.Function.Draw
import ArtCanvas.LayerName

/-!
# Options of draw functions

The option to cut the page is the only one that reaches beyond the function: it marks the function's
first layer.

An option is told twice here. `DrawSetting.parse` says what it means, without a look at a function,
and `DrawFunction.apply` and `DrawFunction.applyToLayers` what its meaning does.
`DrawFunction.setOption` is what is run: it goes through the keys, and checks, writes and returns
where it may.
-/

namespace ArtCanvas

open Text

/-- A setting of a draw function. -/
inductive DrawSetting where
  /-- The kind of the function, which is settled before options are put into effect. -/
  | kind (kind : FunctionKind)
  /-- An origin by its fractions, or the origin of the page. -/
  | origin (anchor : Option (Float × Float))
  /-- An image file to paint instead of the art, or the art itself. -/
  | rasterize (file : Option String)
  /-- Whether the page is cut. -/
  | crop (flag : Bool)
  /-- The animation function to follow. -/
  | animation (name : String)
  /-- How the art is turned along a path. -/
  | orientation (degrees : Option Float)
  /-- A setting of one of the clocks. -/
  | clock (kind : ClockKind) (setting : ClockSetting)
  /-- One more trigger. -/
  | trigger (trigger : Trigger)
  deriving Repr

namespace DrawSetting

/-- Reads two finite numbers with a comma between them. -/
def parsePair? (value : String) : Option (Float × Float) :=
  match (splitAt ',' value.toList).map fun piece => String.ofList (trimChars piece) with
  | [h, v] => do return (← Decimal.readFinite? h, ← Decimal.readFinite? v)
  | _ => none

/-- Reads an origin: a corner, the centre, two fractions, or the origin of the page. -/
def parseOrigin? (value : String) : Option (Option (Float × Float)) :=
  match lower value with
  | "normal" | "n" => some none
  | "center" | "c" => some (some (0.5, 0.5))
  | "upper-left" | "ul" => some (some (0.0, 0.0))
  | "upper-right" | "ur" => some (some (1.0, 0.0))
  | "lower-right" | "lr" => some (some (1.0, 1.0))
  | "lower-left" | "ll" => some (some (0.0, 1.0))
  | custom => (parsePair? custom).map some

/-- Reads an image file, or the wish for none. -/
def parseRasterize? (value : String) : Option (Option String) :=
  match lower value with
  | "" => none
  | "no" | "n" => some none
  | _ => some (some value)

/-- Reads the name of an animation function, which is given as layer names are. -/
def parseAnimation? (value : String) : Option String :=
  let name := Identifier.ofText value
  if name.isEmpty then none else some name

/-- Reads how art is turned along a path. -/
def parseOrientation? (value : String) : Option (Option Float) :=
  match lower value with
  | "follow" | "f" => some (some 0.0)
  | "none" | "n" => some none
  | degrees => (Decimal.readFinite? degrees).map some

/-- Reads an option of a clock: the clock, a hyphen and the clock's own key. -/
def parseClock (key value : String) : Reading DrawSetting :=
  match cutFirst '-' key.toList with
  | none => .unknown
  | some (name, rest) =>
    match ClockKind.parse? (String.ofList name) with
    | none | some .path => .unknown
    | some target =>
      let rest := String.ofList rest
      if rest = "trigger" then .ofOption ((Trigger.parse? target value).map .trigger)
      else (ClockSetting.parse rest value).map (.clock target)

/-- Reads an option of a draw function. -/
def parse (key value : String) : Reading DrawSetting :=
  match key with
  | "type" | "t" => .ofOption ((FunctionKind.parse? value).map .kind)
  | "origin" | "o" => .ofOption ((parseOrigin? value).map .origin)
  | "rasterize" | "rast" => .ofOption ((parseRasterize? value).map .rasterize)
  | "crop" | "c" => .ofOption ((parseFlag? value).map .crop)
  | "animation" | "anim" => .ofOption ((parseAnimation? value).map .animation)
  | "orientation" | "orient" => .ofOption ((parseOrientation? value).map .orientation)
  | _ => parseClock key value

end DrawSetting

/-- The first characters of a text that fill exactly `n` bytes, if there is such a cut. -/
def takeBytes? : Nat → List Char → Option (List Char)
  | 0, _ => some []
  | _ + 1, [] => none
  | n + 1, c :: cs =>
    if c.utf8Size ≤ n + 1 then (takeBytes? (n + 1 - c.utf8Size) cs).map (c :: ·) else none

/-- The image file for a value: the value with its extension replaced. If files are named after
functions, the function's name is cut at the place where the value has its last dot. -/
def imageFileName (byFunction : Bool) (name value : String) : String :=
  match cutLast '.' value.toList with
  | none => value ++ ".png"
  | some (stem, _) =>
    if byFunction then
      let dot := (String.ofList stem).utf8ByteSize
      String.ofList ((takeBytes? dot name.toList).getD name.toList) ++ ".png"
    else String.ofList stem ++ ".png"

namespace DrawFunction

/-- Puts a setting into effect, as far as the function itself goes. `byFunction` says whether image
files are named after functions. -/
def apply (byFunction : Bool) (s : DrawSetting) (f : DrawFunction) : DrawFunction :=
  match s with
  | .kind _ => f
  | .origin none => { f with originSet := false }
  | .origin (some (h, v)) => { f with originSet := true, originH := h, originV := v }
  | .rasterize file => { f with imageFile := file.map (imageFileName byFunction f.header.name) }
  | .crop crop => { f with crop }
  | .animation name => { f with animationName := some name }
  | .orientation orientation => { f with orientation }
  | .clock kind setting => f.modifyClock kind (Clock.apply setting)
  | .trigger trigger => { f with triggers := f.triggers ++ [trigger] }

/-- Puts a setting into effect on the layers: the first layer of the function carries the mark that
cuts the page. -/
def applyToLayers (s : DrawSetting) (f : DrawFunction) (layers : List Layer) : List Layer :=
  match s, f.layers with
  | .crop crop, first :: _ => layers.modify first fun layer => { layer with crop }
  | _, _ => layers

/-- Lets an action on a draw function run beside the layers. -/
def besideLayers {α : Type} (action : StateM DrawFunction α) :
    StateM (DrawFunction × List Layer) α :=
  fun (f, layers) => let (a, f) := action.run f; (a, f, layers)

/-- Puts an origin into effect, unless it cannot be read. -/
def setOrigin (value : String) : StateM DrawFunction Outcome := do
  let (h, v) ← match lower value with
    | "normal" | "n" =>
      modify ({ · with originSet := false })
      return .applied
    | "center" | "c" => pure (0.5, 0.5)
    | "upper-left" | "ul" => pure (0.0, 0.0)
    | "upper-right" | "ur" => pure (1.0, 0.0)
    | "lower-right" | "lr" => pure (1.0, 1.0)
    | "lower-left" | "ll" => pure (0.0, 1.0)
    | custom =>
      match (splitAt ',' custom.toList).map fun piece => String.ofList (trimChars piece) with
      | [h, v] =>
        match Decimal.readFloat? h, Decimal.readFloat? v with
        | some h, some v => if h.isFinite && v.isFinite then pure (h, v) else return .malformed
        | _, _ => return .malformed
      | _ => return .malformed
  modify ({ · with originSet := true, originH := h, originV := v })
  return .applied

/-- Puts an option of a clock or a trigger of one into effect. The key names the clock in front of a
hyphen. -/
def setClockOption (key value : String) : StateM DrawFunction Outcome := do
  let some (name, rest) := cutFirst '-' key.toList | return .unknown
  let some kind := (ClockKind.parse? (String.ofList name)).filter (· != .path) | return .unknown
  let rest := String.ofList rest
  if rest = "trigger" then
    match Trigger.parse? kind value with
    | some trigger =>
      modify fun f => { f with triggers := f.triggers ++ [trigger] }
      return .applied
    | none => return .malformed
  let f ← get
  match f.clock? kind with
  | some clock =>
    let (outcome, clock) := (Clock.setOption rest value).run clock
    modify (·.modifyClock kind fun _ => clock)
    return outcome
  | none => return .unknown

/-- Puts an option into effect, key by key. What is no key of the function itself is one of its
clocks. -/
def setOption (byFunction : Bool) (key value : String) :
    StateM (DrawFunction × List Layer) Outcome :=
  match key with
  | "type" | "t" =>
    match FunctionKind.parse? value with
    | some _ => return .applied
    | none => return .malformed
  | "origin" | "o" => besideLayers (setOrigin value)
  | "rasterize" | "rast" => besideLayers do
    match lower value with
    | "" => return .malformed
    | "no" | "n" => modify ({ · with imageFile := none })
    | _ =>
      let f ← get
      let file := imageFileName byFunction f.header.name value
      modify ({ · with imageFile := some file })
    return .applied
  | "crop" | "c" => do
    match parseFlag? value with
    | some crop =>
      besideLayers (modify ({ · with crop }))
      let (f, layers) ← get
      -- only the first layer of the function carries the mark
      match f.layers with
      | first :: _ => MonadState.set (f, layers.modify first ({ · with crop }))
      | [] => pure ()
      return .applied
    | none => return .malformed
  | "animation" | "anim" => besideLayers do
    let name := Identifier.ofText value
    if name.isEmpty then return .malformed
    modify ({ · with animationName := some name })
    return .applied
  | "orientation" | "orient" => besideLayers do
    match lower value with
    | "follow" | "f" =>
      modify ({ · with orientation := some 0.0 })
      return .applied
    | "none" | "n" =>
      modify ({ · with orientation := none })
      return .applied
    | other =>
      match Decimal.readFloat? other with
      | some degrees =>
        if degrees.isFinite then
          modify ({ · with orientation := some degrees })
          return .applied
        else return .malformed
      | none => return .malformed
  | _ => besideLayers (setClockOption key value)

/-- The function and the layers after an option, and what became of the option. -/
def set (byFunction : Bool) (key value : String) (f : DrawFunction) (layers : List Layer) :
    Outcome × DrawFunction × List Layer :=
  (setOption byFunction key value).run (f, layers)

end DrawFunction

end ArtCanvas
