import ArtCanvas.Identifier
import ArtCanvas.Text.Split

/-!
# Layer names

A layer name is a function name, optionally followed by options: `name(key:value; key:value)`. The
option list is what stands between the last opening parenthesis and a closing one that ends the
text, up to white space and one semicolon. The text before it names the function.
-/

namespace ArtCanvas

open Text

/-- The two kinds of function that a layer can be compiled to. -/
inductive FunctionKind where
  /-- The layer's art is painted. -/
  | draw
  /-- The layer's art is a path that other functions follow. -/
  | animation
  deriving DecidableEq, Repr, Inhabited

/-- A layer name cut into its parts. -/
structure LayerName where
  /-- The function name, an identifier that is never empty. -/
  base : String
  /-- The options as they were written, without the empty ones. -/
  options : List String
  /-- Whether the name carries an option list at all. -/
  hasOptions : Bool
  deriving DecidableEq, Repr

namespace LayerName

/-- The function name of a layer whose own name holds no letter or digit. -/
def defaultBase : String := "draw"

/-- Drops white space and at most one semicolon from the end of a layer name. -/
def dropEnding (cs : List Char) : List Char :=
  let body := dropEnd isBlank cs
  dropEnd isBlank ((dropLast? ';' body).getD body)

/-- The text before the option list and the list itself, if the layer name has one. -/
def cutOptions (cs : List Char) : Option (List Char × List Char) :=
  (dropLast? ')' (dropEnding cs)).bind (cutLast '(')

/-- The options of a list: its non-empty pieces between semicolons, without outer white space. -/
def optionsOfList (list : List Char) : List String :=
  ((splitAt ';' list).map trimChars).filterMap fun piece =>
    if piece.isEmpty then none else some (String.ofList piece)

/-- Reads a layer name. -/
def parse (name : String) : LayerName :=
  match cutOptions name.toList with
  | some (base, list) =>
    { base := Identifier.ofTextOr defaultBase (String.ofList base)
      options := optionsOfList list
      hasOptions := true }
  | none => { base := Identifier.ofTextOr defaultBase name, options := [], hasOptions := false }

end LayerName

/-- Cuts an option at its first colon into a small-letter key and a value. There is no option
without a colon or without a key. -/
def splitOption (option : String) : Option (String × String) :=
  match cutFirst ':' option.toList with
  | none => none
  | some (key, value) =>
    let key := lower (String.ofList (cleanChars key))
    if key.isEmpty then none else some (key, String.ofList (cleanChars value))

namespace FunctionKind

/-- Reads the value of a `type` option, in capital or small letters. -/
def parse? (value : String) : Option FunctionKind :=
  match lower value with
  | "animation" | "a" => some .animation
  | "drawing" | "d" => some .draw
  | _ => none

/-- The kind that an option list asks for: the first usable `type` decides, and without one the
layer is drawn. -/
def ofOptions (options : List (String × String)) : FunctionKind :=
  let asked := options.filter fun option => option.1 == "type" || option.1 == "t"
  (asked.findSome? fun option => parse? option.2).getD .draw

end FunctionKind

end ArtCanvas
