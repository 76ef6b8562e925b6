import ArtCanvas.Compile.Options
import ArtCanvas.Compile.Scan
import ArtCanvas.Function.Table

/-!
# From layers to functions

Scanned layers are gone through from the lowest to the topmost. Each one is given to a function by
its name, and its options are put into effect on that function.
-/

namespace ArtCanvas

/-- What is known while layers are gone through. -/
structure Assembly where
  /-- The scanned layers. -/
  layers : List Layer
  /-- The functions so far. -/
  functions : FunctionTable := {}
  /-- The warnings so far. -/
  warnings : List Warning := []

/-- A layer name with its options read as far as they have a key and a value. -/
structure LayerOrder where
  /-- The name of the function. -/
  base : String
  /-- The options with a key and a value. -/
  options : List (String × String)
  /-- The options that have none. -/
  shapeless : List String

/-- Reads a layer name and its options. -/
def LayerOrder.parse (name : String) : LayerOrder :=
  let parsed := LayerName.parse name
  { base := parsed.base
    options := parsed.options.filterMap splitOption
    shapeless := parsed.options.filter fun option => (splitOption option).isNone }

/-- The kind of function that is asked for. -/
def LayerOrder.kind (o : LayerOrder) : FunctionKind := FunctionKind.ofOptions o.options

/-- The warning about an option, if it was not put into effect. -/
def Outcome.warning? (function key value : String) : Outcome → Option Warning
  | .applied => none
  | .unknown => some (.unknownOption function key)
  | .malformed => some (.unusableValue function key value)

namespace Assembly

variable [CurveLibrary] (options : CompileOptions)

/-- Adds warnings. -/
def warn (a : Assembly) (ws : List Warning) : Assembly := { a with warnings := a.warnings ++ ws }

/-- Gives a layer to the draw function with a given name. -/
def addDraw (base : String) (index : Nat) (layer : Layer) (a : Assembly) : Nat × Assembly :=
  let (id, functions) := a.functions.addDraw base
  let join : ArtFunction → ArtFunction
    | .draw f => .draw (f.addLayer index layer)
    | .animation f => .animation f
  (id, { a with functions := functions.modify id join })

/-- Makes an animation function of a layer. Its path is the first outline of the layer. -/
def addAnimation (art : Artwork) (base : String) (index : Nat) (layer : Layer) (a : Assembly) :
    Nat × Assembly :=
  let (id, functions) := a.functions.addAnimation base
  let fill : ArtFunction → ArtFunction
    | .draw f => .draw f
    | .animation f =>
      let f := { f with
        layer := some index, art := layer.art
        header := { f.header with bounds := layer.bounds } }
      .animation ((art.findPath options.maxDepth layer.art).elim f f.setPath)
  (id, { a with functions := functions.modify id fill })

/-- Gives a layer to a function. -/
def addLayer (art : Artwork) (order : LayerOrder) (index : Nat) (layer : Layer) (a : Assembly) :
    Nat × Assembly :=
  match order.kind with
  | .draw => a.addDraw order.base index layer
  | .animation => a.addAnimation options art order.base index layer

/-- Puts an option into effect on the function at a position. -/
def setOption (id : Nat) (a : Assembly) (option : String × String) : Assembly :=
  let (key, value) := option
  match a.functions.functions[id]? with
  | none => a
  | some (.draw f) =>
    let (outcome, f', layers) := DrawFunction.set options.imagesByFunction key value f a.layers
    { layers
      functions := a.functions.modify id fun _ => .draw f'
      warnings := a.warnings ++ (outcome.warning? f.header.name key value).toList }
  | some (.animation f) =>
    let (outcome, f') := MotionFunction.set key value f
    { a with
      functions := a.functions.modify id fun _ => .animation f'
      warnings := a.warnings ++ (outcome.warning? f.header.name key value).toList }

/-- Goes through one layer. -/
def takeLayer (art : Artwork) (a : Assembly) (entry : Layer × Nat) : Assembly :=
  let (layer, index) := entry
  let order := LayerOrder.parse layer.name
  let a := a.warn (order.shapeless.map (.shapelessOption order.base))
  let (id, a) := a.addLayer options art order index layer
  order.options.foldl (setOption options id) a

/-- Goes through all layers. -/
def run (art : Artwork) (layers : List Layer) : Assembly :=
  layers.zipIdx.foldl (takeLayer options art) { layers }

end Assembly

end ArtCanvas
