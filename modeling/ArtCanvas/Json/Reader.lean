import ArtCanvas.Json.Token

/-!
# Reading JSON texts

The tokens of a text drive a machine with a stack of the arrays and objects that are still open. A
text of any depth is read in a loop over its tokens, and is accepted if it is exactly one value.
-/

namespace ArtCanvas.Json

/-- An array or an object that is still open, its last part first. -/
inductive Frame where
  | array (items : List Json)
  /-- An object, with the key of the field whose value is being read. -/
  | object (fields : List (Option String × Json)) (key : Option String)

/-- What may come next. -/
inductive Mode where
  /-- A value. -/
  | value
  /-- A value, or the end of the array that was just opened. -/
  | firstItem
  /-- A key, or the end of the object that was just opened. -/
  | firstKey
  /-- A key. -/
  | key
  /-- A colon. -/
  | colon
  /-- A comma, or the end of the innermost array or object. -/
  | rest
  /-- Nothing: the text is one whole value. -/
  | finished (value : Json)

/-- The reading machine between two tokens. -/
structure Machine where
  /-- The arrays and objects that are open, the innermost first. -/
  stack : List Frame
  /-- What may come next. -/
  mode : Mode

namespace Machine

/-- The machine before the first token. -/
def start : Machine := ⟨[], .value⟩

/-- Puts a finished value where it belongs. -/
def deliver (v : Json) : List Frame → Machine
  | [] => ⟨[], .finished v⟩
  | .array items :: stack => ⟨.array (v :: items) :: stack, .rest⟩
  | .object fields key :: stack => ⟨.object ((key, v) :: fields) none :: stack, .rest⟩

/-- Begins a value or ends an array that has no items. -/
def stepValue? (m : Machine) : Token → Option Machine
  | .openArray => some ⟨.array [] :: m.stack, .firstItem⟩
  | .openObject => some ⟨.object [] none :: m.stack, .firstKey⟩
  | .string text => some (deliver (.string text) m.stack)
  | .value v => some (deliver v m.stack)
  | _ => none

/-- Reads the key of a field. -/
def stepKey? (m : Machine) : Token → Option Machine
  | .string key =>
    match m.stack with
    | .object fields _ :: stack => some ⟨.object fields key :: stack, .colon⟩
    | _ => none
  | _ => none

/-- Ends the innermost array or object. -/
def close? (m : Machine) : Token → Option Machine
  | .closeArray =>
    match m.stack with
    | .array items :: stack => some (deliver (.array items.reverse) stack)
    | _ => none
  | .closeObject =>
    match m.stack with
    | .object fields _ :: stack => some (deliver (.object fields.reverse) stack)
    | _ => none
  | _ => none

/-- Goes on to the next item or field. -/
def next? (m : Machine) : Option Machine :=
  match m.stack with
  | .array _ :: _ => some ⟨m.stack, .value⟩
  | .object _ _ :: _ => some ⟨m.stack, .key⟩
  | [] => none

/-- Takes one token. -/
def step? (m : Machine) (token : Token) : Option Machine :=
  match m.mode with
  | .value => m.stepValue? token
  | .firstItem =>
    match token with
    | .closeArray => m.close? token
    | _ => m.stepValue? token
  | .firstKey =>
    match token with
    | .closeObject => m.close? token
    | _ => m.stepKey? token
  | .key => m.stepKey? token
  | .colon =>
    match token with
    | .colon => some ⟨m.stack, .value⟩
    | _ => none
  | .rest =>
    match token with
    | .comma => m.next?
    | _ => m.close? token
  | .finished _ => none

end Machine

/-- The value that a text writes, if it is a JSON text. -/
def parse? (text : String) : Option Json := do
  let tokens ← tokens? text
  let m ← tokens.foldlM Machine.step? Machine.start
  match m.mode with
  | .finished v => some v
  | _ => none

end ArtCanvas.Json
