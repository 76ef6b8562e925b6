import ArtCanvas.Text.Split

/-!
# Indented code

A code writer appends lines at the current level of indentation. An `Emitter` is a program that
calls it, with the calls in the order in which they are made; nothing makes sure that it closes what
it opens. Code as a tree of lines and blocks (`Code`) cannot be written otherwise.

Code has free text as literals between double quotation marks. `Text.encode` escapes what would end
the literal or break its line.
-/

namespace ArtCanvas

namespace Text

/-- A character as it stands in a quoted text. -/
def encodeChar (c : Char) : List Char :=
  match c with
  | '\x22' => ['\\', '\x22']
  | '\\' => ['\\', '\\']
  | '\n' => ['\\', 'n']
  | '\r' => ['\\', 'r']
  | '\t' => ['\\', 't']
  | c => [c]

/-- The characters of a quoted text, without the quotation marks. -/
def encode (cs : List Char) : List Char := cs.flatMap encodeChar

/-- A text as a literal. -/
def quote (s : String) : String :=
  String.ofList ('\x22' :: encode s.toList ++ ['\x22'])

@[simp]
theorem encode_nil : encode [] = [] := rfl

@[simp]
theorem encode_cons (c : Char) (cs : List Char) : encode (c :: cs) = encodeChar c ++ encode cs := by
  simp [encode]

end Text

/-- Text with a level of indentation for the lines to come. -/
structure CodeWriter where
  /-- What has been written. -/
  text : String := ""
  /-- How many blocks are open. -/
  level : Nat := 0
  deriving Repr, Inhabited

namespace CodeWriter

/-- What stands in front of a line at one level. -/
def indentUnit : String := "  "

/-- The indentation of a line at a level. -/
def indentation (level : Nat) : String := String.join (List.replicate level indentUnit)

/-- One level deeper from here on. -/
def indent (w : CodeWriter) : CodeWriter := { w with level := w.level + 1 }

/-- One level up from here on; the outermost level stays. -/
def dedent (w : CodeWriter) : CodeWriter := { w with level := w.level - 1 }

/-- A line as it is written at a level. An empty line is not indented. -/
def lineText (level : Nat) (line : String) : String :=
  if line.isEmpty then "\n" else indentation level ++ line ++ "\n"

/-- Writes a line. -/
def line (w : CodeWriter) (line : String) : CodeWriter :=
  { w with text := w.text ++ lineText w.level line }

/-- Writes an empty line. -/
def blank (w : CodeWriter) : CodeWriter := { w with text := w.text ++ "\n" }

/-- Writes the first line of a block. -/
def openBlock (w : CodeWriter) (line : String) : CodeWriter := (w.line line).indent

/-- Writes the last line of a block. -/
def closeBlock (w : CodeWriter) (line : String) : CodeWriter := w.dedent.line line

/-- Writes each line of a text. -/
def lines (w : CodeWriter) (text : String) : CodeWriter := (Text.lines text).foldl line w

end CodeWriter

/-- What a code writer is told to do. -/
inductive WriterStep where
  | line (text : String)
  | blank
  /-- The first line of a block. -/
  | openBlock (text : String)
  /-- The last line of a block. -/
  | closeBlock (text : String)
  deriving DecidableEq, Repr

namespace CodeWriter

/-- The writer after one step. -/
def step (w : CodeWriter) : WriterStep → CodeWriter
  | .line text => w.line text
  | .blank => w.blank
  | .openBlock text => w.openBlock text
  | .closeBlock text => w.closeBlock text

/-- The writer after some steps. -/
def run (w : CodeWriter) (steps : List WriterStep) : CodeWriter := steps.foldl step w

end CodeWriter

/-- A piece of code. -/
inductive Code where
  /-- One line. -/
  | line (text : String)
  /-- An empty line. -/
  | blank
  /-- Code between a first and a last line, one level deeper. -/
  | block (opening : String) (body : List Code) (closing : String)
  deriving Inhabited

namespace Code

mutual

/-- The steps that write a piece of code. -/
def steps : Code → List WriterStep
  | .line text => [.line text]
  | .blank => [.blank]
  | .block opening body closing =>
    .openBlock opening :: stepsOf body ++ [.closeBlock closing]

/-- The steps that write pieces of code one after another. -/
def stepsOf : List Code → List WriterStep
  | [] => []
  | code :: rest => code.steps ++ stepsOf rest

end

/-- The text of code. -/
def render (code : List Code) : String := (CodeWriter.run {} (stepsOf code)).text

end Code

/-- A program that calls a code writer, with the calls that it has made. -/
abbrev Emitter := StateM (Array WriterStep)

namespace Emitter

/-- Makes one call. -/
def call (step : WriterStep) : Emitter Unit := modify (·.push step)

/-- Writes a line. -/
def line (text : String) : Emitter Unit := call (.line text)

/-- Writes an empty line. -/
def blank : Emitter Unit := call .blank

/-- Writes the first line of a block. -/
def openBlock (text : String) : Emitter Unit := call (.openBlock text)

/-- Writes the last line of a block. -/
def closeBlock (text : String) : Emitter Unit := call (.closeBlock text)

/-- Writes some lines. -/
def lines (texts : List String) : Emitter Unit := texts.forM line

/-- The calls that an emitter makes. -/
def calls (m : Emitter Unit) : List WriterStep := (m.run #[]).2.toList

end Emitter

end ArtCanvas
