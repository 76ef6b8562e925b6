import ArtCanvas.CommandLine.Arguments

/-!
# Help pages

The program, each of its actions and the word `help` have a page: what it does, how it is called,
and a table for each kind of argument. The second column of a table begins two blanks after the
longest entry of the first.
-/

namespace ArtCanvas.CommandLine

/-- A table of a help page. -/
structure HelpTable where
  /-- The heading. -/
  title : String
  /-- The lines, each an entry and what is said about it. -/
  rows : List (String × String)
  deriving DecidableEq, Repr

/-- A help page. -/
structure HelpPage where
  /-- What the page is about, unless it is the program. -/
  about : Option String
  /-- How the program is called. -/
  usage : String
  /-- The tables. -/
  tables : List HelpTable
  deriving DecidableEq, Repr

namespace HelpTable

/-- The length of the longest entry. -/
def width (t : HelpTable) : Nat := t.rows.foldl (fun width row => max width row.1.length) 0

/-- The lines of a table. -/
def lines (t : HelpTable) : List String :=
  (t.title ++ ":") :: t.rows.map fun (entry, about) =>
    "  " ++ entry ++ "".pushn ' ' (t.width - entry.length) ++ "  " ++ about

end HelpTable

/-- The text of a help page: its parts with a blank line between them. -/
def HelpPage.text (p : HelpPage) : String :=
  let head := p.about.toList ++ ["Usage: " ++ p.usage]
  let parts := head ++ p.tables.map fun t => "\n".intercalate t.lines
  "\n\n".intercalate parts ++ "\n"

/-- The line of an option. -/
def Flag.helpRow (flag : Flag) : String × String :=
  let value := match flag.placeholder with
    | some placeholder => " <" ++ placeholder ++ ">"
    | none => ""
  ("    " ++ flag.name ++ value, flag.about)

/-- What an action does. -/
def Action.about : Action → String
  | .compile => "Compile an artwork document into a TypeScript canvas module"
  | .info => "Print functions, patterns, bounds and warnings of a compiled document"
  | .dump => "Print the compiled document as JSON"

namespace Topic

/-- What the word `help` does. -/
def helpAbout : String := "Print this message or the help of the given subcommand(s)"

/-- The line of the option that asks for the page. -/
def helpRow : String × String := ("-h, --help", "Print help")

/-- The line of the option that asks for the version. -/
def versionRow : String × String := ("-V, --version", "Print version")

/-- The page about a topic. -/
def page : Topic → HelpPage
  | .program =>
    { about := none
      usage := "canvas-export [OPTIONS] <COMMAND>"
      tables :=
        [{ title := "Commands"
           rows := Action.all.map (fun a => (a.name, a.about))
            ++ [("help", helpAbout)] },
          { title := "Options", rows := [Flag.verbose.helpRow, helpRow, versionRow] }] }
  | .action a =>
    { about := some a.about
      usage := "canvas-export " ++ a.name ++ " [OPTIONS] --in <IN_PATH>"
      tables := [{ title := "Options", rows := a.flags.map Flag.helpRow ++ [helpRow] }] }
  | .help =>
    { about := some helpAbout
      usage := "canvas-export help [COMMAND]..."
      tables :=
        [{ title := "Arguments"
           rows := [("[COMMAND]...", "Print help for the subcommand(s)")] }] }

end Topic

end ArtCanvas.CommandLine
