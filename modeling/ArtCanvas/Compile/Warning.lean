import ArtCanvas.Clock.Basic
import ArtCanvas.Report.Tree

/-!
# Warnings

Problems that do not keep a document from being compiled. Each is named by its cause, and the texts
follow from the causes.
-/

namespace ArtCanvas

/-- A problem found while compiling. -/
inductive Warning where
  /-- An option of the named function has no key or no colon. -/
  | shapelessOption (function option : String)
  /-- An option of a function has a known key with a value that cannot be used. -/
  | unusableValue (function key value : String)
  /-- An option of a function has an unknown key. -/
  | unknownOption (function key : String)
  /-- A function follows an animation function that does not exist. -/
  | missingAnimation (function animation : String)
  /-- A trigger listens to a clock that does not exist. -/
  | missingSource (function source : String) (clock : ClockKind)
  /-- Art below the given depth was left out. -/
  | tooDeep (levels : Nat)
  /-- A layer without art asks for the page to be cut to it. -/
  | emptyCrop (layer : String)
  deriving DecidableEq, Repr

namespace Warning

/-- The name of the kind of problem in reports. -/
def kindName : Warning → String
  | .shapelessOption .. | .unusableValue .. => "malformed_option"
  | .unknownOption .. => "unknown_option"
  | .missingAnimation .. => "unresolved_animation"
  | .missingSource .. => "unresolved_trigger"
  | .tooDeep .. => "depth_limit"
  | .emptyCrop .. => "empty_crop"

/-- The function or layer that the warning is about, if there is one. -/
def about : Warning → Option String
  | .shapelessOption function _ | .unusableValue function _ _ | .unknownOption function _
  | .missingAnimation function _ | .missingSource function _ _ => some function
  | .emptyCrop layer => some layer
  | .tooDeep _ => none

/-- What the warning says. -/
def message : Warning → String
  | .shapelessOption _ option => "option '" ++ option ++ "' is not of the form key:value"
  | .unusableValue _ key value => "value '" ++ value ++ "' for option '" ++ key ++ "' is not usable"
  | .unknownOption _ key => "unknown option '" ++ key ++ "'"
  | .missingAnimation _ animation => "animation function '" ++ animation ++ "' does not exist"
  | .missingSource _ source clock =>
    "trigger source '" ++ source ++ "." ++ clock.clockName ++ "' does not exist"
  | .tooDeep levels => s!"art nesting deeper than {levels} levels was skipped"
  | .emptyCrop _ => "crop layer has no visible art and does not size the document"

/-- The whole line of the warning. -/
def text (w : Warning) : String :=
  match w.about with
  | some name => name ++ ": " ++ w.message
  | none => w.message

/-- Shows a warning. -/
def toTree (w : Warning) : Tree :=
  .record [("kind", .text w.kindName), ("function", Tree.ofOption .text w.about),
    ("message", .text w.message)]

end Warning

end ArtCanvas
