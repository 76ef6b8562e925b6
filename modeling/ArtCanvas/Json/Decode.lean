import ArtCanvas.Json.Reader

/-!
# Reading fields of JSON values

A record is written as an object, or as an array of its fields in order. Fields that the record does
not have are passed over, a field of the record may stand only once, and `null` counts as a value
except where a field may be absent.
-/

namespace ArtCanvas.Json

/-- Whether some name occurs twice in a list. -/
def repeats : List String → Bool
  | [] => false
  | name :: names => names.contains name || repeats names

/-- The values of the fields `names` of a record, in this order. -/
def record? (names : List String) : Json → Option (List (Option Json))
  | .array items =>
    if items.length ≤ names.length then
      some ((List.range names.length).map fun i => items[i]?)
    else none
  | .object fields =>
    let keys := fields.map Prod.fst
    if keys.contains none || repeats ((keys.filterMap id).filter names.contains) then none
    else some (names.map fun name => (fields.find? (·.1 == some name)).map Prod.snd)
  | _ => none

/-- `record?` for a record that has no fields but `names`. -/
def strictRecord? (names : List String) (j : Json) : Option (List (Option Json)) :=
  let known := match j with
    | .object fields => fields.all fun field => field.1.any names.contains
    | _ => true
  if known then j.record? names else none

/-- Reads a field that has to be there. -/
def required {α : Type} (read : Json → Option α) (field : Option Json) : Option α :=
  field.bind read

/-- Reads a field that stands for `default` if it is missing. -/
def withDefault {α : Type} (default : α) (read : Json → Option α) : Option Json → Option α
  | none => some default
  | some j => read j

/-- Reads a field whose value may be absent. -/
def optional {α : Type} (read : Json → Option α) : Option Json → Option (Option α)
  | none => some none
  | some .null => some none
  | some j => (read j).map some

/-- Reads a truth value. -/
def bool? : Json → Option Bool
  | .bool b => some b
  | _ => none

/-- Reads a floating point number. -/
def float? : Json → Option Float
  | .number n => n.toFloat?
  | _ => none

/-- Reads a whole number up to `bound`. -/
def natUpTo? (bound : Nat) : Json → Option Nat
  | .number n => n.toNat? bound
  | _ => none

/-- Reads a whole number of 32 bits, such as an index. -/
def index? : Json → Option Nat := natUpTo? JsonNumber.maxIndex

/-- Reads a text. -/
def string? : Json → Option String
  | .string text => text
  | _ => none

/-- Reads a list. -/
def list? {α : Type} (read : Json → Option α) : Json → Option (List α)
  | .array items => items.mapM read
  | _ => none

/-- Reads the name of a choice that carries no data: a string, or an object whose only field has
that name and no value. -/
def choice? : Json → Option String
  | .string text => text
  | .object [(key, .null)] => key
  | _ => none

/-- Whether a value is whole down to its leaves: nested at most `depth` deep, every string a text,
every number a `Float`. -/
def isWhole : Nat → Json → Bool
  | _, .null => true
  | _, .bool _ => true
  | _, .number n => n.toFloat?.isSome
  | _, .string text => text.isSome
  | 0, .array _ => false
  | 0, .object _ => false
  | depth + 1, .array items => items.all fun item => isWhole depth item
  | depth + 1, .object fields =>
    fields.all fun field => field.1.isSome && isWhole depth field.2

end ArtCanvas.Json
