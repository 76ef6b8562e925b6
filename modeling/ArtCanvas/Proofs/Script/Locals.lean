import ArtCanvas.Script.Script
import Mathlib.Data.List.Basic

/-!
# Local variables of scopes

A scope declares up to three local variables, and its statements use them. A scope is closed if it
declares all that it uses; only then can its code be run.

* `Stmt.local?`: the local variable that a statement uses.
* `Scope.Closed`: every local variable that is used is declared at the start.
* `Scope.declares_iff`: what is declared depends on the features of the scope alone.
-/

namespace ArtCanvas

/-- A local variable of a scope. -/
inductive Local where
  /-- The opacity from which all others are reckoned. -/
  | alpha
  /-- The gradient at hand. -/
  | gradient
  /-- The pattern at hand. -/
  | pattern
  deriving DecidableEq, Repr

/-- The line that declares a local variable. -/
def Local.declaration (ctx : String) : Local → String
  | .alpha => "const alpha = " ++ ctx ++ ".globalAlpha;"
  | .gradient => "let gradient: CanvasGradient;"
  | .pattern => "let pattern: CanvasPattern;"

/-- Whether art with these features needs a local variable. -/
def Features.has (f : Features) : Local → Bool
  | .alpha => f.alpha
  | .gradient => f.gradients
  | .pattern => f.patterns

/-- The local variable that a statement uses, as the opacity it reckons from, as the gradient or as
the pattern. -/
def Stmt.local? : Stmt → Option Local
  | .setAlpha _ | .resetAlpha => some .alpha
  | .makeGradient _ _ | .addStop _ _ | .gradientStyle _ => some .gradient
  | .makePattern _ | .patternStyle _ => some .pattern
  | .comment _ | .save | .restore | .translate _ | .scale _ _ | .callSymbol _ | .outline _ _
  | .solidStyle _ _ | .fill | .lineWidth _ | .stroke => none

/-- Some of the statements use a local variable. -/
def Stmt.Use (body : List Stmt) (x : Local) : Prop := ∃ stmt ∈ body, stmt.local? = some x

namespace Scope

/-- A local variable is used. -/
def Uses (s : Scope) (x : Local) : Prop := Stmt.Use s.body x

/-- A local variable is declared at the start. -/
def Declares (ctx : String) (s : Scope) (x : Local) : Prop :=
  x.declaration ctx ∈ declarations ctx s.locals

/-- Every local variable that is used is declared at the start. -/
def Closed (ctx : String) (s : Scope) : Prop := ∀ x, s.Uses x → s.Declares ctx x

end Scope

namespace Features

/-- Nothing is needed of empty needs. -/
@[simp]
theorem has_empty (x : Local) : ({} : Features).has x = false := by
  cases x <;> rfl

/-- Merged needs ask for what one of them asks for. -/
theorem has_merge (f g : Features) (x : Local) : (f.merge g).has x = (f.has x || g.has x) := by
  cases x <;> rfl

end Features

/-- The opacity is declared by `const`, the other local variables by `let`. -/
theorem Local.head_declaration (ctx : String) (x : Local) :
    (x.declaration ctx).toList.head? = if x = .alpha then some 'c' else some 'l' := by
  cases x with
  | alpha =>
    change ("const alpha = " ++ ctx ++ ".globalAlpha;").toList.head? = _
    rw [String.toList_append, String.toList_append]
    rfl
  | gradient => exact (by decide : "let gradient: CanvasGradient;".toList.head? = some 'l')
  | pattern => exact (by decide : "let pattern: CanvasPattern;".toList.head? = some 'l')

/-- Different local variables are declared by different lines. -/
theorem Local.declaration_injective (ctx : String) :
    Function.Injective (Local.declaration ctx) := by
  intro x y h
  have hhead : (x.declaration ctx).toList.head? = (y.declaration ctx).toList.head? := by rw [h]
  rw [head_declaration, head_declaration] at hhead
  cases x <;> cases y
  -- the other two lines start alike, so they are compared as a whole
  case gradient.pattern =>
    exact absurd h (by decide : "let gradient: CanvasGradient;" ≠ "let pattern: CanvasPattern;")
  case pattern.gradient =>
    exact absurd h (by decide : "let pattern: CanvasPattern;" ≠ "let gradient: CanvasGradient;")
  all_goals first | rfl | (revert hhead; decide)

/-- A scope declares the local names that are needed, in a fixed order. -/
theorem Scope.declarations_eq (ctx : String) (f : Features) :
    declarations ctx f =
      ([.alpha, .gradient, .pattern].filter f.has).map (Local.declaration ctx) := by
  obtain ⟨alpha, gradients, patterns⟩ := f
  cases alpha <;> cases gradients <;> cases patterns <;> rfl

/-- What is declared depends on the features of the scope. -/
theorem Scope.declares_iff {ctx : String} {s : Scope} {x : Local} :
    s.Declares ctx x ↔ s.locals.has x = true := by
  rw [Declares, declarations_eq, List.mem_map_of_injective (Local.declaration_injective ctx),
    List.mem_filter]
  cases x <;> simp

namespace Stmt

@[simp]
theorem use_nil (x : Local) : ¬ Use [] x := by
  simp [Use]

@[simp]
theorem use_cons {stmt : Stmt} {body : List Stmt} {x : Local} :
    Use (stmt :: body) x ↔ stmt.local? = some x ∨ Use body x := by
  simp [Use]

/-- Two bodies use the names that one of them uses. -/
@[simp]
theorem use_append {body body' : List Stmt} {x : Local} :
    Use (body ++ body') x ↔ Use body x ∨ Use body' x := by
  simp [Use, or_and_right, exists_or]

/-- Several bodies use the names that one of them uses. -/
theorem use_flatMap {α : Type} {xs : List α} {f : α → List Stmt} {x : Local} :
    Use (xs.flatMap f) x ↔ ∃ a ∈ xs, Use (f a) x := by
  simp only [Use, List.mem_flatMap]
  constructor
  · rintro ⟨stmt, ⟨a, ha, hstmt⟩, hx⟩
    exact ⟨a, ha, stmt, hstmt, hx⟩
  · rintro ⟨a, ha, stmt, hstmt, hx⟩
    exact ⟨stmt, ⟨a, ha, hstmt⟩, hx⟩

end Stmt

end ArtCanvas
