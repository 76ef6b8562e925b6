import ArtCanvas.CommandLine.Run

/-!
# The program

The command line on the disk.
-/

namespace ArtCanvas.CommandLine

/-- Runs an action on the disk, and gives a value in its place if it fails. -/
def attempt {α : Type} (fallback : α) (action : IO α) : IO α :=
  try action catch _ => return fallback

/-- The disk. -/
def disk : Host IO where
  read path := attempt none (some <$> IO.FS.readFile path)
  makeDirectories path := attempt false do
    IO.FS.createDirAll path
    return true
  write path content := attempt false do
    IO.FS.writeFile path content
    return true
  print text := IO.print text
  warn text := IO.eprint text

end ArtCanvas.CommandLine

/-- Runs the command line. -/
def main (arguments : List String) : IO UInt32 :=
  ArtCanvas.CommandLine.run ArtCanvas.CommandLine.disk arguments
