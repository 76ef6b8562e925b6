/-!
# What becomes of an option, and what can go wrong

An option is a key with a value. Reading it gives a setting, unless the key is unknown or the value
cannot be used; only a setting changes anything.

Problems of single options are never more than warnings. What can go wrong as a whole is a
`Failure`.
-/

namespace ArtCanvas

/-- What became of an option. -/
inductive Outcome where
  /-- It was put into effect. -/
  | applied
  /-- Its key is not known here. -/
  | unknown
  /-- Its key is known, and its value cannot be used. -/
  | malformed
  deriving DecidableEq, Repr, Inhabited

/-- An option that was read as a setting, or the reason why it is none. -/
inductive Reading (α : Type) where
  /-- The option stands for a setting. -/
  | setting (value : α)
  /-- The key is not known. -/
  | unknown
  /-- The value cannot be used. -/
  | malformed
  deriving DecidableEq, Repr

namespace Reading

variable {α β : Type}

/-- What becomes of the option. -/
def outcome : Reading α → Outcome
  | .setting _ => .applied
  | .unknown => .unknown
  | .malformed => .malformed

/-- A known key with a value that may be unusable. -/
def ofOption : Option α → Reading α
  | some a => .setting a
  | none => .malformed

/-- The setting seen as part of a larger one. -/
def map (f : α → β) : Reading α → Reading β
  | .setting a => .setting (f a)
  | .unknown => .unknown
  | .malformed => .malformed

/-- `state` after the option: a setting changes it by `apply`, and anything else leaves it alone. -/
def change {σ : Type} (apply : α → σ → σ) (r : Reading α) (state : σ) : σ :=
  match r with
  | .setting a => apply a state
  | .unknown | .malformed => state

@[simp]
theorem outcome_map (f : α → β) (r : Reading α) : (r.map f).outcome = r.outcome := by
  cases r <;> rfl

theorem ofOption_eq_setting_iff {x : Option α} {a : α} :
    Reading.ofOption x = .setting a ↔ x = some a := by
  cases x <;> simp [Reading.ofOption]

theorem ofOption_map_eq_setting_iff {x : Option α} {f : α → β} {b : β} :
    Reading.ofOption (x.map f) = .setting b ↔ ∃ a, x = some a ∧ f a = b := by
  rw [ofOption_eq_setting_iff, Option.map_eq_some_iff]

theorem map_eq_setting_iff {r : Reading α} {f : α → β} {b : β} :
    r.map f = .setting b ↔ ∃ a, r = .setting a ∧ f a = b := by
  cases r <;> simp [Reading.map]

/-- What holds of a state, and is kept if the option is a setting, holds after the option. -/
theorem change_induction {σ : Type} {P : σ → Prop} {apply : α → σ → σ} {r : Reading α}
    {state : σ} (h : P state) (hsetting : ∀ a, r = .setting a → P (apply a state)) :
    P (r.change apply state) := by
  cases r with
  | setting a => exact hsetting a rfl
  | unknown => exact h
  | malformed => exact h

end Reading

/-- Why an operation of the library fails. -/
inductive Failure where
  /-- A document or a setting is not allowed. -/
  | invalid (message : String)
  /-- No visible layer has art, so that there is nothing to size a page by. -/
  | noVisibleContent
  /-- A text is not the data it should be. -/
  | malformed (message : String)
  /-- Writing a script failed. -/
  | emit (message : String)
  /-- A failure from outside the library. -/
  | other (message : String)
  deriving DecidableEq, Repr

namespace Failure

/-- The text of a failure. -/
def message : Failure → String
  | .invalid message => "validation error: " ++ message
  | .noVisibleContent => "no visible content: the document has no visible artwork"
  | .malformed message => "serialization error: " ++ message
  | .emit message => "emit error: " ++ message
  | .other message => message

/-- The failure of a formatter that gives no reason. -/
def unformattable : Failure := .emit "an error occurred when formatting an argument"

end Failure

end ArtCanvas
