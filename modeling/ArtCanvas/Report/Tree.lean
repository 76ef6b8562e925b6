import ArtCanvas.Decimal.Layout

/-!
# Reports as trees

Compiled documents are shown as trees of named fields. A tree keeps whole numbers and floating point
numbers apart and its fields in order, and `Tree.pretty` writes it as an indented JSON text.
-/

namespace ArtCanvas

/-- A tree of values to show. -/
inductive Tree where
  | null
  | bool (value : Bool)
  | nat (value : Nat)
  | float (value : Float)
  | text (value : String)
  | list (items : List Tree)
  | record (fields : List (String × Tree))
  deriving Inhabited

namespace Tree

/-- A value that may be absent. -/
def ofOption {α : Type} (f : α → Tree) : Option α → Tree
  | none => .null
  | some a => f a

/-- A field that is left out when its value is absent. -/
def fieldIfSome {α : Type} (name : String) (f : α → Tree) : Option α → List (String × Tree)
  | none => []
  | some a => [(name, f a)]

/-- A hexadecimal digit, in small letters. -/
def hexDigit (n : Nat) : Char := Nat.digitChar (n % 16)

/-- A character as it stands between the quotation marks of a JSON string. -/
def escapeChar (c : Char) : List Char :=
  match c with
  | '\x22' => ['\\', '\x22']
  | '\\' => ['\\', '\\']
  | '\x08' => ['\\', 'b']
  | '\x0C' => ['\\', 'f']
  | '\n' => ['\\', 'n']
  | '\r' => ['\\', 'r']
  | '\t' => ['\\', 't']
  | c =>
    if c.toNat < 0x20 then ['\\', 'u', '0', '0', hexDigit (c.toNat / 16), hexDigit c.toNat]
    else [c]

/-- A text as a JSON string. -/
def quoted (s : String) : String :=
  String.ofList ('\x22' :: s.toList.flatMap escapeChar ++ ['\x22'])

/-- The line break and the indentation in front of an item. -/
def lineBreak (level : Nat) : String :=
  "\n" ++ String.ofList (List.replicate (2 * level) ' ')

/-- Items, each on a line of its own, between two brackets. -/
def enclose (level : Nat) (opening closing : String) : List String → String
  | [] => opening ++ closing
  | items =>
    opening ++ lineBreak (level + 1) ++ (("," ++ lineBreak (level + 1)).intercalate items)
      ++ lineBreak level ++ closing

mutual

/-- The tree as indented JSON, where `level` counts the brackets that are open around it. A value
that is not a finite number is written as `null`. -/
def render (level : Nat) : Tree → String
  | .null => "null"
  | .bool value => if value then "true" else "false"
  | .nat value => toString value
  | .float value => if value.isFinite then Decimal.json value else "null"
  | .text value => quoted value
  | .list items => enclose level "[" "]" (renderItems (level + 1) items)
  | .record fields => enclose level "\x7b" "\x7d" (renderFields (level + 1) fields)

/-- The items of a list. -/
def renderItems (level : Nat) : List Tree → List String
  | [] => []
  | item :: items => render level item :: renderItems level items

/-- The fields of a record. -/
def renderFields (level : Nat) : List (String × Tree) → List String
  | [] => []
  | (name, value) :: fields =>
    (quoted name ++ ": " ++ render level value) :: renderFields level fields

end

/-- The tree as an indented JSON text. -/
def pretty (t : Tree) : String := t.render 0

end Tree

end ArtCanvas
