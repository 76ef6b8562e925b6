import ArtCanvas.Compile.Layer
import ArtCanvas.Identifier

/-!
# Patterns in use

A pattern is registered the first time that a node uses it, as a symbol or as a paint. Each gets a
name of its own. A pattern that some node is painted with also gets a hidden canvas, numbered in the
order of first use; canvas 0 is the page itself.
-/

namespace ArtCanvas

/-- A pattern that is in use. -/
structure Pattern where
  /-- The position of the pattern in the document. -/
  handle : Nat
  /-- The name, an identifier that no other pattern has. -/
  name : String
  /-- Whether the pattern was first used by a symbol. -/
  isSymbol : Bool
  /-- The hidden canvas that is painted with it. -/
  canvas : Option Nat
  /-- The node with the art. -/
  content : Option Nat
  /-- The name of the script function that paints it as a symbol. -/
  symbolFunction : Option String
  /-- The box of the node with the art. -/
  bounds : Box Float
  /-- What the art needs. -/
  features : Features
  deriving Repr, Inhabited

/-- The use of a pattern by a node. -/
inductive PatternRole where
  /-- A symbol places a copy. -/
  | symbol
  /-- A paint repeats it. -/
  | paint
  deriving DecidableEq, Repr

/-- What a document says about a pattern. -/
structure PatternSource where
  /-- The name in the document. -/
  name : String
  /-- The node with the art. -/
  content : Option Nat
  /-- The box of that node. -/
  bounds : Box Float

/-- The patterns in use, in the order of first use. -/
structure PatternTable where
  /-- The patterns. -/
  patterns : List Pattern := []
  /-- How many hidden canvases there are. -/
  canvases : Nat := 0
  deriving Repr, Inhabited

/-- The name of the script function that paints a symbol, unless that name is taken. -/
def symbolFunctionName (name : String) : String := name ++ "Symbol"

namespace Pattern

/-- The name of the script function that paints the pattern as a symbol. -/
def functionName (p : Pattern) : String :=
  p.symbolFunction.getD (symbolFunctionName p.name)

/-- Shows a pattern. -/
def toTree (p : Pattern) : Tree :=
  .record ([("handle", .nat p.handle), ("name", .text p.name), ("is_symbol", .bool p.isSymbol),
      ("canvas", Tree.ofOption .nat p.canvas), ("content", Tree.ofOption .nat p.content)]
    ++ Tree.fieldIfSome "symbol_function" .text p.symbolFunction
    ++ ("bounds", p.bounds.toTree) :: p.features.toFields)

end Pattern

namespace PatternTable

/-- The pattern with a given position in the document. -/
def find? (t : PatternTable) (handle : Nat) : Option Pattern :=
  t.patterns.find? (·.handle == handle)

/-- Whether a pattern is registered. -/
def contains (t : PatternTable) (handle : Nat) : Bool := (t.find? handle).isSome

/-- Changes the pattern with a given position in the document. -/
def modify (t : PatternTable) (handle : Nat) (f : Pattern → Pattern) : PatternTable :=
  { t with patterns := t.patterns.map fun p => if p.handle == handle then f p else p }

/-- The name of the pattern whose own name has no letter or digit. -/
def defaultName : String := "pattern"

/-- A new pattern for a table. -/
def newPattern (t : PatternTable) (handle : Nat) (role : PatternRole) (source : PatternSource) :
    Pattern :=
  { handle
    name := Identifier.unique (Identifier.ofTextOr defaultName source.name)
      (t.patterns.map Pattern.name)
    isSymbol := role == .symbol
    canvas := if role = .paint then some (t.canvases + 1) else none
    content := source.content
    symbolFunction := none
    bounds := source.bounds
    features := {} }

/-- Gives a pattern that is used as a paint its canvas, if it has none yet. -/
def addCanvas (t : PatternTable) (p : Pattern) : PatternTable :=
  if p.canvas.isNone then
    { t.modify p.handle (fun q => { q with canvas := some (t.canvases + 1) }) with
      canvases := t.canvases + 1 }
  else t

/-- Registers the use of a pattern. The result says whether the pattern is new. -/
def add (t : PatternTable) (handle : Nat) (role : PatternRole) (source : PatternSource) :
    Bool × PatternTable :=
  match t.find? handle with
  | some p => (false, if role = .paint then t.addCanvas p else t)
  | none =>
    (true,
      { patterns := t.patterns ++ [t.newPattern handle role source]
        canvases := if role = .paint then t.canvases + 1 else t.canvases })

/-- Sets the features of a pattern. -/
def setFeatures (t : PatternTable) (handle : Nat) (features : Features) : PatternTable :=
  t.modify handle fun p => { p with features }

/-- The patterns that are painted on hidden canvases. -/
def tiles (t : PatternTable) : List Pattern := t.patterns.filter (·.canvas.isSome)

/-- The patterns that were first used by a symbol. -/
def symbols (t : PatternTable) : List Pattern := t.patterns.filter (·.isSymbol)

/-- The names of the symbol functions that have one. -/
def functionNames (patterns : List Pattern) : List String := patterns.filterMap (·.symbolFunction)

/-- Names the symbol functions of `rest`, where the patterns of `done` have their names already. A
name differs from those in `taken` and from all that any symbol has at that moment. -/
def nameSymbolsFrom (taken : List String) (done : List Pattern) : List Pattern → List Pattern
  | [] => done
  | p :: rest =>
    let named :=
      if p.isSymbol then
        { p with
          symbolFunction := some (Identifier.unique (symbolFunctionName p.name)
            (taken ++ functionNames (done ++ p :: rest))) }
      else p
    nameSymbolsFrom taken (done ++ [named]) rest

/-- Gives every symbol a function name that differs from those in `taken` and from each other. -/
def nameSymbols (t : PatternTable) (taken : List String) : PatternTable :=
  { t with patterns := nameSymbolsFrom taken [] t.patterns }

/-- Shows the patterns in use. -/
def toTree (t : PatternTable) : Tree :=
  .record [("patterns", .list (t.patterns.map Pattern.toTree)), ("next_canvas", .nat t.canvases)]

end PatternTable

end ArtCanvas
