import ArtCanvas.CommandLine.Files
import ArtCanvas.CommandLine.Help
import ArtCanvas.Geometry.Path.Reader
import ArtCanvas.Script.Emitter

/-!
# The command line

`run` does what the arguments ask for and gives the exit code: 0 if all went well, 1 if something
failed, 2 if the arguments are not understood. Settings are read before the document.
-/

namespace ArtCanvas.CommandLine

/-- The name and the version of the program. -/
def versionText : String := "canvas-export 0.1.0\n"

/-- What is said about arguments that are not understood. -/
def usageText : String :=
  "usage: canvas-export compile|info|dump --in FILE [--options FILE]\n"

/-- The name of a file in a message. -/
def quotedPath (path : String) : String := "'" ++ path ++ "'"

/-- The line of a pattern in the summary of a document. -/
def patternLine (p : Pattern) : String :=
  let canvas := match p.canvas with
    | some canvas => s!", canvas={canvas}"
    | none => ""
  "- " ++ p.name ++ ": symbol=" ++ toString p.isSymbol ++ canvas

/-- The summary of a document. -/
def infoText (c : Compiled) : String :=
  let bounds := "Bounds: left=" ++ Decimal.plain c.bounds.left ++ " top="
    ++ Decimal.plain c.bounds.top ++ " width=" ++ Decimal.plain c.width ++ " height="
    ++ Decimal.plain c.height
  let lines := [bounds, "Animated: " ++ toString c.animated] ++ c.functions.summaryLines
    ++ [s!"Patterns: {c.patterns.patterns.length}"] ++ c.patterns.patterns.map patternLine
    ++ [s!"Warnings: {c.warnings.length}"] ++ c.warnings.map fun w => "- " ++ w.text
  String.join (lines.map (· ++ "\n"))

/-- A document as JSON. -/
def dumpText (c : Compiled) : String := c.toTree.pretty ++ "\n"

section Run

variable {m : Type → Type} [Monad m] (host : Host m)

/-- Reads the settings. -/
def loadOptions : Option String → ExceptT String m OptionsFile
  | none => return {}
  | some path => do
    match ← host.read path with
    | none => throw ("read options " ++ quotedPath path)
    | some text =>
      match OptionsFile.parse? text with
      | none => throw ("parse options " ++ quotedPath path)
      | some options => return options

/-- Reads and compiles the document. -/
def load (path : String) (options : CompileOptions) : ExceptT String m (Artwork × Compiled) := do
  let loadFailure := "load artwork " ++ quotedPath path
  match ← host.read path with
  | none => throw loadFailure
  | some text =>
    match ArtDocument.parse text with
    | .error _ => throw loadFailure
    | .ok doc =>
      match doc.view.compile options with
      | .error _ => throw ("compile " ++ quotedPath path)
      | .ok compiled => return (doc.view, compiled)

/-- Writes a script to a file, in a directory that is made if need be. -/
def save (path text : String) : ExceptT String m Unit := do
  match parentPath? path with
  | none | some "" => pure ()
  | some parent =>
    unless ← host.makeDirectories parent do
      throw ("create output dir " ++ quotedPath parent)
  unless ← host.write path text do
    throw ("write " ++ quotedPath path)
  host.warn ("wrote " ++ path ++ "\n")

/-- Writes the script of a document. -/
def writeScript (i : Invocation) (art : Artwork) (c : Compiled) (emit : EmitOptions) :
    ExceptT String m Unit := do
  for w in c.warnings do
    host.warn ("warning: " ++ w.text ++ "\n")
  let emit := { emit with
    includeRuntime := emit.includeRuntime && !i.noRuntime
    debug := emit.debug || i.debug }
  match c.emit art emit with
  | .error _ => throw "emit typescript"
  | .ok text =>
    match i.output with
    | none => host.print text
    | some path => save host path text

/-- Does what is asked for with a document. -/
def perform (i : Invocation) : ExceptT String m Unit := do
  let options ← loadOptions host i.options
  let (art, compiled) ← load host i.input options.compile
  match i.action with
  | .compile => writeScript host i art compiled options.emit
  | .info => host.print (infoText compiled)
  | .dump => host.print (dumpText compiled)

/-- Does what the arguments ask for. -/
def run (arguments : List String) : m UInt32 := do
  match Request.parse? arguments with
  | none =>
    host.warn usageText
    return 2
  | some .version =>
    host.print versionText
    return 0
  | some (.help topic) =>
    host.print topic.page.text
    return 0
  | some (.run i) =>
    match ← (perform host i).run with
    | .ok () => return 0
    | .error context =>
      host.warn ("Error: " ++ context ++ "\n")
      return 1

end Run

end ArtCanvas.CommandLine
