/-!
# Cutting text at a separator

Layer options, triggers and path data are cut at single characters. `splitAt` cuts at every
occurrence, `cutFirst` at the first and `cutLast` at the last; the separators themselves are
dropped.
-/

namespace ArtCanvas.Text

/-- The pieces of `cs` between occurrences of `sep`; a list without `sep` is one piece. -/
def splitAt (sep : Char) : List Char → List (List Char)
  | [] => [[]]
  | c :: cs =>
    if c = sep then [] :: splitAt sep cs
    else match splitAt sep cs with
      | [] => [[c]]
      | piece :: pieces => (c :: piece) :: pieces

/-- What stands before and after the first `sep`, if there is one. -/
def cutFirst (sep : Char) : List Char → Option (List Char × List Char)
  | [] => none
  | c :: cs =>
    if c = sep then some ([], cs)
    else (cutFirst sep cs).map fun (before, after) => (c :: before, after)

/-- What stands before and after the last `sep`, if there is one. -/
def cutLast (sep : Char) (cs : List Char) : Option (List Char × List Char) :=
  (cutFirst sep cs.reverse).map fun (after, before) => (before.reverse, after.reverse)

/-- `cs` without its last character, if that is `c`. -/
def dropLast? (c : Char) (cs : List Char) : Option (List Char) :=
  match cs.reverse with
  | [] => none
  | d :: rest => if d = c then some rest.reverse else none

/-- `cs` without the leading `start`, if it begins with it. -/
def dropStart? (start cs : List Char) : Option (List Char) :=
  if start.isPrefixOf cs then some (cs.drop start.length) else none

/-- The lines of a text: each ends at a line feed, a carriage return just before the line feed
belongs to the ending, and nothing after the last line feed is no line. -/
def lines (s : String) : List String :=
  let pieces := splitAt '\n' s.toList
  let ended := pieces.dropLast.map fun piece => String.ofList ((dropLast? '\r' piece).getD piece)
  match pieces.getLast? with
  | none | some [] => ended
  | some rest => ended ++ [String.ofList rest]

end ArtCanvas.Text
