import Mathlib.Algebra.Order.Floor.Semifield
import ArtCanvas.Proofs.Scalar.Exact
import ArtCanvas.Proofs.Clock.Language

/-!
# The meaning of the clock code

The pieces of the clock code have a meaning, as steps of a clock, with exact numbers. Nobody listens
to the clock, so telling others something changes nothing.

* `ClockCode.Object`: a clock at work.
* `ClockCode.Num.eval`, `ClockCode.Test.eval`: the value of an expression.
* `ClockCode.Stmt.exec`: what a statement does.
* `ClockCode.Object.run`: what a method does.
* `ClockCode.ClassCode.make`: a new clock.
-/

namespace ArtCanvas.ClockCode

/-- A clock at work. -/
structure Object (α : Type) where
  /-- The fields that hold numbers. -/
  num : NumField → α
  /-- The fields that hold truth values. -/
  flag : FlagField → Bool
  /-- The easing curve. -/
  timing : α → α

/-- A clock in the middle of a method. -/
structure Frame (α : Type) extends Object α where
  /-- The variables and parameters of the method. -/
  var : Variable → α

/-- Where a method stands after some of its statements. -/
inductive Flow (α : Type) where
  /-- The method goes on. -/
  | next (s : Frame α)
  /-- The method has been left. -/
  | left (s : Frame α)

namespace Frame

variable {α : Type} (s : Frame α)

/-- A number in a field. -/
def setNum (f : NumField) (a : α) : Frame α := { s with num := Function.update s.num f a }

/-- A truth value in a field. -/
def setFlag (f : FlagField) (b : Bool) : Frame α := { s with flag := Function.update s.flag f b }

/-- A number in a variable. -/
def setVar (x : Variable) (a : α) : Frame α := { s with var := Function.update s.var x a }

section Reading

variable {s} {f g : NumField} {f' g' : FlagField} {x y : Variable} {a : α} {b : Bool}

@[simp]
theorem setNum_num : (s.setNum f a).num g = if g = f then a else s.num g :=
  Function.update_apply ..

/-- Giving a field the value that it has changes nothing. -/
theorem setNum_self : s.setNum f (s.num f) = s := by
  rw [setNum, Function.update_eq_self]

@[simp]
theorem setNum_flag : (s.setNum f a).flag = s.flag := rfl

@[simp]
theorem setNum_timing : (s.setNum f a).timing = s.timing := rfl

@[simp]
theorem setNum_var : (s.setNum f a).var = s.var := rfl

@[simp]
theorem setFlag_num : (s.setFlag f' b).num = s.num := rfl

@[simp]
theorem setFlag_flag : (s.setFlag f' b).flag g' = if g' = f' then b else s.flag g' :=
  Function.update_apply ..

@[simp]
theorem setFlag_timing : (s.setFlag f' b).timing = s.timing := rfl

@[simp]
theorem setFlag_var : (s.setFlag f' b).var = s.var := rfl

@[simp]
theorem setVar_toObject : (s.setVar x a).toObject = s.toObject := rfl

@[simp]
theorem setVar_var : (s.setVar x a).var y = if y = x then a else s.var y :=
  Function.update_apply ..

end Reading

end Frame

namespace Flow

variable {α : Type}

/-- The clock and its variables. -/
def frame : Flow α → Frame α
  | .next s => s
  | .left s => s

/-- What follows, unless the method has been left. -/
def andThen (flow : Flow α) (rest : Frame α → Flow α) : Flow α :=
  match flow with
  | .next s => rest s
  | .left s => .left s

section Reading

variable {s : Frame α} {rest : Frame α → Flow α}

/-- The frame with which execution goes on. -/
@[simp]
theorem frame_next : (next s).frame = s := (rfl)

/-- The frame in which a method was left. -/
@[simp]
theorem frame_left : (left s).frame = s := (rfl)

/-- Where execution goes on, the rest follows. -/
@[simp]
theorem andThen_next : (next s).andThen rest = rest s := (rfl)

/-- Where a method was left, the rest is not executed. -/
@[simp]
theorem andThen_left : (left s).andThen rest = left s := (rfl)

end Reading

end Flow

variable {α : Type} [ExactScalar α]

/-! ### Expressions -/

/-- What is left of a division whose quotient is cut off towards zero. -/
def remainder (a b : α) : α := a - b * (if 0 ≤ a / b then ⌊a / b⌋ else ⌈a / b⌉ : ℤ)

/-- The remainder of a whole number by 2. -/
theorem remainder_two (k : ℕ) : remainder (k : α) 2 = ((k % 2 : ℕ) : α) := by
  have hnonneg : (0 : α) ≤ k / 2 := by positivity
  have hfloor : ⌊(k : α) / 2⌋ = ((k / 2 : ℕ) : ℤ) := by
    rw [← Int.natCast_floor_eq_floor hnonneg, Nat.floor_div_ofNat, Nat.floor_natCast]
  have hsplit : (k : α) = 2 * ((k / 2 : ℕ) : α) + ((k % 2 : ℕ) : α) := by
    exact_mod_cast (Nat.div_add_mod k 2).symm
  rw [remainder, if_pos hnonneg, hfloor, Int.cast_natCast]
  linarith

/-- The number that an operator makes. -/
def Operator.apply : Operator → α → α → α
  | .add, a, b => a + b
  | .sub, a, b => a - b
  | .mul, a, b => a * b
  | .div, a, b => a / b
  | .rem, a, b => remainder a b

/-- Whether a comparison holds. -/
def Comparison.holds : Comparison → α → α → Bool
  | .same, a, b => a = b
  | .differs, a, b => a ≠ b
  | .atLeast, a, b => b ≤ a

mutual

/-- The value of an expression. -/
def Num.eval (watch : α) (s : Frame α) : Num → α
  | .literal n => n
  | .field f => s.num f
  | .var x => s.var x
  | .watch => watch
  | .neg a => -a.eval watch s
  | .binary op a b => op.apply (a.eval watch s) (b.eval watch s)
  | .max a b => Max.max (a.eval watch s) (b.eval watch s)
  | .floor a => (⌊a.eval watch s⌋ : ℤ)
  | .timing a => s.timing (a.eval watch s)
  | .choose c a b => if c.eval watch s then a.eval watch s else b.eval watch s

/-- The value of an expression. -/
def Test.eval (watch : α) (s : Frame α) : Test → Bool
  | .flag f => s.flag f
  | .not c => !c.eval watch s
  | .and c c' => c.eval watch s && c'.eval watch s
  | .or c c' => c.eval watch s || c'.eval watch s
  | .compare op a b => op.holds (a.eval watch s) (b.eval watch s)

end

/-! ### Statements -/

/-- Variables with some first values. -/
def bound (bindings : List (Variable × α)) (x : Variable) : α := (bindings.lookup x).getD 0

mutual

/-- What a statement does, while the watch of the host shows a number. -/
def Stmt.exec (watch : α) : Stmt → Frame α → Flow α
  | .setNum f a, s => .next (s.setNum f (a.eval watch s))
  | .setFlag f b, s => .next (s.setFlag f b)
  | .declare _ x a, s => .next (s.setVar x (a.eval watch s))
  | .assign x a, s => .next (s.setVar x (a.eval watch s))
  | .when c body, s => if c.eval watch s then execAll watch body s else .next s
  | .choose c yes no, s => if c.eval watch s then execAll watch yes s else execAll watch no s
  | .leave, s => .left s
  | .fire _, s => .next s
  | .call _ arguments body, s =>
    let var := bound (arguments.map fun argument => (argument.1, argument.2.eval watch s))
    .next { s with toObject := (execAll watch body ⟨s.toObject, var⟩).frame.toObject }
  | .enlist, s => .next s

/-- What statements do one after another. -/
def Stmt.execAll (watch : α) : List Stmt → Frame α → Flow α
  | [], s => .next s
  | stmt :: rest, s => (stmt.exec watch s).andThen (execAll watch rest)

end

/-! ### Running code by rewriting

Expressions are replaced by their values, and the first of some statements by what it does to the
clock that the rest begins with. The lemmas do not hold by definition for `simp`, hence `(rfl)`: as
steps of a proof they are checked one by one, while a definition would be unfolded again for each
field that is read, in as many ways as the code has branches. -/

attribute [simp] Operator.apply Comparison.holds Num.eval Test.eval

section Rewriting

variable {watch : α} {s : Frame α} {rest body : List Stmt}

namespace Stmt

/-- Without statements, execution goes on. -/
@[simp]
theorem execAll_nil : execAll watch [] s = .next s := (rfl)

/-- A number is given to a field, and the rest sees it. -/
@[simp]
theorem execAll_setNum {f : NumField} {a : Num} :
    execAll watch (.setNum f a :: rest) s = execAll watch rest (s.setNum f (a.eval watch s)) :=
  (rfl)

/-- A flag is given to a field, and the rest sees it. -/
@[simp]
theorem execAll_setFlag {f : FlagField} {b : Bool} :
    execAll watch (.setFlag f b :: rest) s = execAll watch rest (s.setFlag f b) :=
  (rfl)

/-- A variable is declared, and the rest sees it. -/
@[simp]
theorem execAll_declare {constant : Bool} {x : Variable} {a : Num} :
    execAll watch (.declare constant x a :: rest) s =
      execAll watch rest (s.setVar x (a.eval watch s)) :=
  (rfl)

/-- A number is given to a variable, and the rest sees it. -/
@[simp]
theorem execAll_assign {x : Variable} {a : Num} :
    execAll watch (.assign x a :: rest) s = execAll watch rest (s.setVar x (a.eval watch s)) :=
  (rfl)

/-- A condition is looked at once, and its body may leave the method. -/
@[simp]
theorem execAll_when {c : Test} :
    execAll watch (.when c body :: rest) s =
      if c.eval watch s then (execAll watch body s).andThen (execAll watch rest)
      else execAll watch rest s := by
  change (if c.eval watch s then execAll watch body s else .next s).andThen (execAll watch rest) = _
  split_ifs <;> rfl

/-- Nothing behind a return is executed. -/
@[simp]
theorem execAll_leave : execAll watch (.leave :: rest) s = .left s :=
  (rfl)

/-- An event changes nothing of the clock itself. -/
@[simp]
theorem execAll_fire {event : ClockEvent} :
    execAll watch (.fire event :: rest) s = execAll watch rest s :=
  (rfl)

/-- A call executes the body of the method with its own variables, and returning from it does not
leave the caller. -/
@[simp]
theorem execAll_call {name : String} {arguments : List (Variable × Num)} :
    execAll watch (.call name arguments body :: rest) s =
      execAll watch rest
        { s with
          toObject := (execAll watch body
            ⟨s.toObject, bound (arguments.map fun argument =>
              (argument.1, argument.2.eval watch s))⟩).frame.toObject } :=
  (rfl)

/-- Entering a clock in the list of the timer changes nothing of the clock itself. -/
@[simp]
theorem execAll_enlist : execAll watch (.enlist :: rest) s = execAll watch rest s :=
  (rfl)

/-- Two lists of statements are executed one after the other. -/
theorem execAll_append {first second : List Stmt} :
    execAll watch (first ++ second) s = (execAll watch first s).andThen (execAll watch second) := by
  induction first generalizing s with
  | nil => rfl
  | cons stmt rest ih =>
    change (stmt.exec watch s).andThen (execAll watch (rest ++ second)) =
      ((stmt.exec watch s).andThen (execAll watch rest)).andThen (execAll watch second)
    cases stmt.exec watch s with
    | next s' => exact ih
    | left s' => rfl

end Stmt

end Rewriting

/-! ### Clocks -/

/-- What a method does to a clock, while the watch of the host shows a number. -/
def Object.run (o : Object α) (m : Method) (watch : α) (arguments : List α) : Object α :=
  (Stmt.execAll watch m.body ⟨o, bound (m.parameters.zip arguments)⟩).frame.toObject

/-- What a constructor is given. -/
inductive Value (α : Type) where
  | num (a : α)
  | flag (b : Bool)
  | curve (f : α → α)

/-- What a constructor is given, in its place. A value of another type than the parameter's is not
given. -/
def Parameter.bind : Parameter → Value α → Frame α → Frame α
  | .num f, .num a, s => s.setNum f a
  | .flag f, .flag b, s => s.setFlag f b
  | .timing, .curve f, s => { s with timing := f }
  | .var x, .num a, s => s.setVar x a
  | _, _, s => s

/-- A field with its first value. -/
def FieldLine.fill : FieldLine → Frame α → Frame α
  | .fixed _, s => s
  | .num _ f first, s => s.setNum f first
  | .flag f first, s => s.setFlag f first

/-- A new clock. Fields and variables that nothing has been put into hold what `blank` has. -/
def ClassCode.make (k : ClassCode) (blank : Frame α) (watch : α) (arguments : List (Value α)) :
    Object α :=
  let given := (k.parameters.zip arguments).foldl (fun s p => p.1.bind p.2 s) blank
  let filled := k.fields.foldl (fun s f => f.fill s) given
  (Stmt.execAll watch k.body filled).frame.toObject

end ArtCanvas.ClockCode
