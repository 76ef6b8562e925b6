import ArtCanvas.Text.Split

/-!
# Files

The command line reads and writes files through a small interface, so that what it does can be run
on a disk or on files in memory (`FileTree`).
-/

namespace ArtCanvas.CommandLine

/-- What the command line can do in its surroundings. -/
structure Host (m : Type → Type) where
  /-- The content of a file, if it can be read. -/
  read : String → m (Option String)
  /-- Makes a directory and all directories around it; tells whether they are there. -/
  makeDirectories : String → m Bool
  /-- Writes a file, and tells whether that went well. -/
  write : String → String → m Bool
  /-- Writes to the output. -/
  print : String → m Unit
  /-- Writes to the messages. -/
  warn : String → m Unit

/-- Drops slashes, and single dots that a slash precedes, from the end of a path that is given from
its end to its start. The root stays. -/
def dropSlashes : List Char → List Char
  | ['/'] => ['/']
  | '/' :: rest => dropSlashes rest
  | '.' :: '/' :: rest => dropSlashes ('/' :: rest)
  | cs => cs
  termination_by cs => cs.length

/-- Drops what does not matter at the end of a path: slashes and single dots after a slash. -/
def trimPath (cs : List Char) : List Char := (dropSlashes cs.reverse).reverse

/-- The path of the directory that a path lies in. It is empty for a path of one part, and there is
none for the root. -/
def parentPath? (path : String) : Option String :=
  match trimPath path.toList with
  | [] | ['/'] => none
  | cs =>
    match Text.cutLast '/' cs with
    | none => some ""
    | some ([], _) => some "/"
    | some (before, _) => some (String.ofList (trimPath before))

/-- A place in a tree of files: the names on the way to it from the root. -/
abbrev Place := List String

/-- Files in memory. -/
structure FileTree where
  /-- The files, the newest first. -/
  files : List (Place × String) := []
  /-- The directories, apart from those around a file. -/
  directories : List Place := []

namespace FileTree

/-- The directory in which paths start. -/
def home : Place := ["home"]

/-- The most bytes that a name may have. -/
def longestName : Nat := 255

/-- The most bytes that a path may have. -/
def longestPath : Nat := 4095

/-- The parts of a path between its slashes. -/
def parts (path : String) : List String := (Text.splitAt '/' path.toList).map String.ofList

/-- Where a path starts: in the root if it begins with a slash. -/
def start (path : String) : Place := if path.startsWith "/" then [] else home

/-- Whether a path has a length that is allowed. -/
def isUsable (path : String) : Bool := !path.isEmpty && path.utf8ByteSize ≤ longestPath

/-- The content of the file at a place. -/
def find? (t : FileTree) (place : Place) : Option String :=
  (t.files.find? (·.1 == place)).map Prod.snd

/-- Whether there is a directory at a place. -/
def isDirectory (t : FileTree) (place : Place) : Bool :=
  place.isEmpty || t.directories.contains place
    || t.files.any fun file => place.isPrefixOf file.1 && place.length < file.1.length

/-- The place that a part of a path leads to. It has to start from a directory. A single dot leads
nowhere, and so does the empty part next to a slash; two dots lead to the directory around, and the
root is around itself. -/
def step? (t : FileTree) (place : Place) (part : String) : Option Place :=
  if !t.isDirectory place then none
  else if part == "" || part == "." then some place
  else if part == ".." then some place.dropLast
  else if part.utf8ByteSize ≤ longestName then some (place ++ [part])
  else none

/-- The place that a path leads to. There may be nothing yet, but all that the path goes through is
there. -/
def resolve? (t : FileTree) (path : String) : Option Place :=
  if isUsable path then (parts path).foldlM t.step? (start path) else none

/-- The content of a file. -/
def read? (t : FileTree) (path : String) : Option String := (t.resolve? path).bind t.find?

/-- The directory at a place, which is made if there is nothing. -/
def enter? (t : FileTree) (place : Place) : Option FileTree :=
  if t.isDirectory place then some t
  else if (t.find? place).isSome then none
  else some { t with directories := place :: t.directories }

/-- Follows one part of a path from a place, and makes the directory that it leads to. -/
def follow? (here : FileTree × Place) (part : String) : Option (FileTree × Place) := do
  let place ← here.1.step? here.2 part
  return (← here.1.enter? place, place)

/-- Makes the directories that a path goes through and the one that it leads to, unless a file is
in the way. -/
def makeDirectories? (t : FileTree) (path : String) : Option FileTree :=
  if isUsable path then ((parts path).foldlM follow? (t, start path)).map Prod.fst else none

/-- Writes a file at a place that is no directory. -/
def write? (t : FileTree) (path content : String) : Option (FileTree × Place) := do
  let place ← t.resolve? path
  if t.isDirectory place then none
  else return ({ t with files := (place, content) :: t.files }, place)

end FileTree

/-- Files in memory with what was printed. -/
structure Session where
  /-- The files. -/
  files : FileTree
  /-- What was written to the output. -/
  output : String := ""
  /-- What was written to the messages. -/
  messages : String := ""
  /-- The places that were written to, the last one first. -/
  written : List (Place × String) := []

namespace Session

/-- The file that takes what is written to the output. -/
def outputPlace : Place := ["dev", "stdout"]

/-- The file that takes what is written to the messages. -/
def messagesPlace : Place := ["dev", "stderr"]

/-- The files that stand for streams. Nothing can be read from them. -/
def streams : List Place := [["dev", "null"], ["dev", "stdin"], outputPlace, messagesPlace]

/-- The place of a file that is named from the directory in which paths start. -/
def placeOf (name : String) : Place :=
  FileTree.home ++ (FileTree.parts name).filter fun part => part != "" && part != "."

/-- Files with the given names in the directory in which paths start, and nothing printed. -/
def ofFiles (files : List (String × String)) : Session :=
  let given := files.map fun (name, content) => (placeOf name, content)
  { files :=
      { files := given ++ streams.map fun place => (place, "")
        directories := [FileTree.home] } }

/-- Prints to the output. -/
def print (s : Session) (text : String) : Session := { s with output := s.output ++ text }

/-- Prints to the messages. -/
def warn (s : Session) (text : String) : Session := { s with messages := s.messages ++ text }

/-- Notes what was written to a place. -/
def note (s : Session) (place : Place) (content : String) : Session :=
  if place == outputPlace then s.print content
  else if place == messagesPlace then s.warn content
  else { s with written := (place, content) :: s.written }

/-- What was written to places below the directory in which paths start, the first one first, each
under its path from there. -/
def results (s : Session) : List (String × String) :=
  s.written.reverse.filterMap fun (place, content) =>
    if FileTree.home.isPrefixOf place then
      some ("/".intercalate (place.drop FileTree.home.length), content)
    else none

/-- The command line on files in memory. -/
def host : Host (StateM Session) where
  read path := return (← get).files.read? path
  makeDirectories path := modifyGet fun s =>
    match s.files.makeDirectories? path with
    | some files => (true, { s with files })
    | none => (false, s)
  write path content := modifyGet fun s =>
    match s.files.write? path content with
    | some (files, place) => (true, { s with files }.note place content)
    | none => (false, s)
  print text := modify fun s => s.print text
  warn text := modify fun s => s.warn text

end Session

end ArtCanvas.CommandLine
