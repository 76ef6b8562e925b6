import ArtCanvas.Json.Value
import ArtCanvas.Text.Split

/-!
# The tokens of a JSON text

A text is cut into brackets, commas, colons and simple values. What may follow what is decided by
the reader of values, so that nothing here depends on how deeply a text is nested.
-/

namespace ArtCanvas.Json

/-- A token of a JSON text. -/
inductive Token where
  | openArray
  | closeArray
  | openObject
  | closeObject
  | comma
  | colon
  /-- A string, as a value or as the key of a field. -/
  | string (text : Option String)
  /-- A number or one of the words `true`, `false` and `null`. -/
  | value (value : Json)

/-- The white space between tokens. -/
def isGap (c : Char) : Bool := c == ' ' || c == '\n' || c == '\t' || c == '\r'

/-- The value of four hexadecimal digits. -/
def hexValue? (digits : List Char) : Option Nat :=
  digits.foldlM (fun n c =>
    if c.isDigit then some (16 * n + (c.toNat - '0'.toNat))
    else if 'a' ≤ c ∧ c ≤ 'f' then some (16 * n + (c.toNat - 'a'.toNat + 10))
    else if 'A' ≤ c ∧ c ≤ 'F' then some (16 * n + (c.toNat - 'A'.toNat + 10))
    else none) 0

/-- The part of a string that is read so far. -/
structure Spelling where
  /-- The characters, the last one first. -/
  chars : List Char := []
  /-- The first half of a surrogate pair that waits for the second. -/
  half : Option Nat := none
  /-- Whether a half stood alone. -/
  broken : Bool := false

namespace Spelling

/-- Adds a character; a half that still waits stays alone. -/
def push (s : Spelling) (c : Char) : Spelling :=
  { chars := c :: s.chars, half := none, broken := s.broken || s.half.isSome }

/-- Adds an escaped code unit. -/
def pushUnit (s : Spelling) (unit : Nat) : Spelling :=
  match s.half with
  | some high =>
    if 0xDC00 ≤ unit ∧ unit < 0xE000 then
      let code := 0x10000 + (high - 0xD800) * 0x400 + (unit - 0xDC00)
      { chars := Char.ofNat code :: s.chars, half := none, broken := s.broken }
    else { s with half := none, broken := true }
  | none =>
    if 0xD800 ≤ unit ∧ unit < 0xDC00 then { s with half := some unit }
    else if 0xDC00 ≤ unit ∧ unit < 0xE000 then { s with broken := true }
    else s.push (Char.ofNat unit)

/-- The text of the finished string, if it is one. -/
def text? (s : Spelling) : Option String :=
  if s.broken || s.half.isSome then none else some (String.ofList s.chars.reverse)

end Spelling

/-- The character that a one-letter escape stands for. -/
def escape? : Char → Option Char
  | '\x22' => some '\x22'
  | '\\' => some '\\'
  | '/' => some '/'
  | 'b' => some '\x08'
  | 'f' => some '\x0C'
  | 'n' => some '\n'
  | 'r' => some '\r'
  | 't' => some '\t'
  | _ => none

/-- Reads a string whose opening quotation mark is already taken. -/
def readString? (s : Spelling) : List Char → Option (Option String × List Char)
  | [] => none
  | '\x22' :: rest => some (s.text?, rest)
  | '\\' :: 'u' :: a :: b :: c :: d :: rest => do
    readString? (s.pushUnit (← hexValue? [a, b, c, d])) rest
  | '\\' :: c :: rest => do readString? (s.push (← escape? c)) rest
  | c :: rest => if c.toNat < 0x20 ∨ c = '\\' then none else readString? (s.push c) rest

/-- Reads a number without its sign: digits without needless zeros, then a fraction and an exponent
if they are there. -/
def readNumber? (negative : Bool) (cs : List Char) : Option (JsonNumber × List Char) := do
  let (whole, rest) ← match cs with
    | '0' :: rest => some (['0'], rest)
    | cs => some (Decimal.takeDigits cs)
  guard (!whole.isEmpty)
  let (fraction, rest) ← match rest with
    | '.' :: rest =>
      let (digits, rest) := Decimal.takeDigits rest
      if digits.isEmpty then none else some (digits, rest)
    | rest => some ([], rest)
  match rest with
  | c :: after =>
    if c = 'e' ∨ c = 'E' then
      let (minus, after) := Decimal.takeSign after
      let (digits, after) := Decimal.takeDigits after
      guard (!digits.isEmpty)
      let size : Int := Decimal.ofDigits 0 digits
      return (⟨negative, whole, fraction, some (if minus then -size else size)⟩, after)
    else return (⟨negative, whole, fraction, none⟩, rest)
  | [] => return (⟨negative, whole, fraction, none⟩, [])

/-- Reads one token, which begins with the first of the characters. -/
def readToken? (c : Char) (cs : List Char) : Option (Token × List Char) :=
  match c with
  | '[' => some (.openArray, cs)
  | ']' => some (.closeArray, cs)
  | '\x7b' => some (.openObject, cs)
  | '\x7d' => some (.closeObject, cs)
  | ',' => some (.comma, cs)
  | ':' => some (.colon, cs)
  | '\x22' => (readString? {} cs).map fun (text, rest) => (.string text, rest)
  | '-' => (readNumber? true cs).map fun (n, rest) => (.value (.number n), rest)
  | 't' => (Text.dropStart? ['r', 'u', 'e'] cs).map fun rest => (.value (.bool true), rest)
  | 'f' => (Text.dropStart? ['a', 'l', 's', 'e'] cs).map fun rest => (.value (.bool false), rest)
  | 'n' => (Text.dropStart? ['u', 'l', 'l'] cs).map fun rest => (.value .null, rest)
  | c => (readNumber? false (c :: cs)).map fun (n, rest) => (.value (.number n), rest)

/-- The tokens of a text, in front of which the tokens of `done` stand in reverse order. Each token
takes at least one character, so the length of the text is fuel enough. -/
def tokensFrom? : Nat → List Token → List Char → Option (List Token)
  | 0, _, _ => none
  | fuel + 1, done, cs =>
    match cs.dropWhile isGap with
    | [] => some done.reverse
    | c :: rest =>
      match readToken? c rest with
      | none => none
      | some (token, rest) => tokensFrom? fuel (token :: done) rest

/-- The tokens of a text. -/
def tokens? (text : String) : Option (List Token) :=
  let cs := text.toList
  tokensFrom? (cs.length + 1) [] cs

end ArtCanvas.Json
