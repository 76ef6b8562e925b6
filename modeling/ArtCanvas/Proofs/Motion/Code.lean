import Mathlib.Logic.Function.Basic
import ArtCanvas.Proofs.Scalar.Exact
import ArtCanvas.Proofs.Clock.Language
import ArtCanvas.Script.Runtime

/-!
# The code of paths

The class of paths that scripts carry finds the segment that holds the place for the value of a
clock. The two pieces of the class that do so, the constructor and the search, are written in a
small language, like the class of clocks. Its pieces are data here, with their text and with a
meaning.

* `PathCode.Num`, `PathCode.Test`, `PathCode.Stmt`: expressions and statements.
* `PathCode.Stmt.lines`, `PathCode.ClassCode.lines`: their text.
* `PathCode.Num.eval`, `PathCode.Stmt.exec`: their meaning, with exact numbers. Code goes wrong
  where it reads what is not there.
* `PathCode.program`: the pieces of the class, and `PathCode.lines_program`: they are in the text
  that scripts carry.
-/

namespace ArtCanvas.PathCode

open ClockCode (enclosed indented spelled closed)

/-! ### Pieces of code -/

/-- The variables that hold numbers. -/
inductive Variable where
  | sum
  | length
  | remaining
  deriving DecidableEq, Repr

/-- An expression for a position. -/
inductive Index where
  /-- The counter of a loop. -/
  | counter
  /-- The position of the last segment. -/
  | last
  deriving DecidableEq, Repr

/-- The operators on numbers. -/
inductive Operator where
  | add
  | mul
  | div
  deriving DecidableEq, Repr

/-- An expression for a number. -/
inductive Num where
  | literal (n : Nat)
  | var (x : Variable)
  /-- The whole length of the path. -/
  | total
  /-- The value of the clock of the path. -/
  | clock
  /-- The length of a segment. -/
  | lengthAt (i : Index)
  | binary (op : Operator) (a b : Num)
  | max (a b : Num)
  | min (a b : Num)

/-- An expression for a truth value. -/
inductive Test where
  /-- There are no segments. -/
  | empty
  | atMost (a b : Num)
  | above (a b : Num)
  | and (c c' : Test)

/-- What a method gives back. -/
inductive Answer where
  /-- Nothing. -/
  | undefined
  /-- A segment, and the parameter of a place on it. -/
  | hit (i : Index) (t : Num)

/-- A statement. -/
inductive Stmt where
  /-- Goes through the lengths of all segments, with a number that each of them changes, and keeps
  the number at the end as the whole length. -/
  | setTotal (step first : Num)
  /-- A variable with its first value, which may be kept for good. -/
  | declare (constant : Bool) (x : Variable) (a : Num)
  | takeOff (x : Variable) (a : Num)
  | when (c : Test) (body : List Stmt)
  /-- Goes through all positions of segments. -/
  | each (body : List Stmt)
  /-- Ends the method. -/
  | leave (answer : Answer)

/-- The pieces of a class of paths. -/
structure ClassCode where
  /-- What the constructor does. -/
  construct : List Stmt
  /-- How a place is found. -/
  locate : List Stmt

/-! ### The text -/

/-- The name of a variable. -/
def Variable.name : Variable → String
  | .sum => "sum"
  | .length => "length"
  | .remaining => "remaining"

/-- The words of a position. -/
def Index.words : Index → List String
  | .counter => ["i"]
  | .last => ["this.segments.length", " - ", "1"]

/-- The sign of an operator. -/
def Operator.sign : Operator → String
  | .add => " + "
  | .mul => " * "
  | .div => " / "

/-- How tightly an operator binds. -/
def Operator.strength : Operator → Nat
  | .add => 6
  | .mul | .div => 7

/-- How tightly an expression holds together. -/
def Num.strength : Num → Nat
  | .binary op _ _ => op.strength
  | _ => closed

/-- How tightly an expression holds together. -/
def Test.strength : Test → Nat
  | .and .. => 3
  | .empty => 4
  | .atMost .. | .above .. => 5

/-- The words of an expression. Operators of one strength are read from the left. -/
def Num.words : Num → List String
  | .literal n => [toString n]
  | .var x => [x.name]
  | .total => ["this.total"]
  | .clock => ["this.pathClock.value"]
  | .lengthAt i => "this.lengths[" :: i.words ++ ["]"]
  | .binary op a b =>
    enclosed op.strength a.strength a.words ++ op.sign
      :: enclosed (op.strength + 1) b.strength b.words
  | .max a b => "Math.max(" :: a.words ++ ", " :: b.words ++ [")"]
  | .min a b => "Math.min(" :: a.words ++ ", " :: b.words ++ [")"]

/-- The words of an expression. Operators of one strength are read from the left. -/
def Test.words : Test → List String
  | .empty => ["this.segments.length", " === ", "0"]
  | .atMost a b => enclosed 5 a.strength a.words ++ " <= " :: enclosed 6 b.strength b.words
  | .above a b => enclosed 5 a.strength a.words ++ " > " :: enclosed 6 b.strength b.words
  | .and c c' => enclosed 3 c.strength c.words ++ " && " :: enclosed 4 c'.strength c'.words

/-- The words of what is given back. -/
def Answer.words : Answer → List String
  | .undefined => ["undefined"]
  | .hit i t => "[this.segments[" :: i.words ++ "], " :: t.words ++ ["]"]

mutual

/-- The lines of a statement at a level of indentation. -/
def Stmt.lines (level : Nat) : Stmt → List (List String)
  | .setTotal step first =>
    [indented level ("this.total = lengths.reduce((sum, length) => " :: step.words ++ ", "
      :: first.words ++ [");"])]
  | .declare constant x a =>
    [indented level
      ((if constant then "const " else "let ") :: x.name :: " = " :: a.words ++ [";"])]
  | .takeOff x a => [indented level (x.name :: " -= " :: a.words ++ [";"])]
  | .when c body =>
    indented level ("if (" :: c.words ++ [") \x7b"]) :: linesOf (level + 1) body
      ++ [indented level ["\x7d"]]
  | .each body =>
    indented level ["for (let i = 0; i < this.segments.length; i++) \x7b"]
      :: linesOf (level + 1) body ++ [indented level ["\x7d"]]
  | .leave answer => [indented level ("return " :: answer.words ++ [";"])]

/-- The lines of statements at a level of indentation. -/
def Stmt.linesOf (level : Nat) : List Stmt → List (List String)
  | [] => []
  | stmt :: rest => stmt.lines level ++ linesOf level rest

end

/-- The lines of the pieces of a class, after the first line of the class. -/
def ClassCode.lines (k : ClassCode) : List String :=
  ([indented 1 ["private readonly total: number;"], [], indented 1 ["constructor("],
      indented 2 ["readonly segments: Segment[],"], indented 2 ["readonly lengths: number[],"],
      indented 2 ["readonly pathClock: Clock,"], indented 1 [") \x7b"]]
    ++ Stmt.linesOf 2 k.construct
    ++ [indented 1 ["\x7d"], [],
      indented 1 ["private locate(): [Segment, number] | undefined \x7b"]]
    ++ Stmt.linesOf 2 k.locate ++ [indented 1 ["\x7d"]]).map spelled

/-! ### The meaning -/

/-- A path in a script. -/
structure Object (α S : Type) where
  /-- The segments. -/
  segments : List S
  /-- Their lengths. -/
  lengths : List α
  /-- What the clock of the path shows. -/
  clock : α
  /-- The whole length. -/
  total : Option α := none

/-- A path in the middle of a method. -/
structure Frame (α S : Type) extends Object α S where
  /-- The variables that have been declared. -/
  var : Variable → Option α := fun _ => none
  /-- The counter of the loop. -/
  counter : Nat := 0

/-- Where a method stands after some of its statements. -/
inductive Flow (α S : Type) where
  /-- The method goes on. -/
  | next (s : Frame α S)
  /-- The method has been left, and gives something back, or nothing. -/
  | left (s : Frame α S) (answer : Option (S × α))

variable {α S : Type}

/-- A number in a variable. -/
def Frame.setVar (s : Frame α S) (x : Variable) (a : α) : Frame α S :=
  { s with var := Function.update s.var x (some a) }

/-- What stands at a position of a list, if the list has the position. -/
def item? {β : Type} (l : List β) (i : Int) : Option β :=
  if 0 ≤ i then l[i.toNat]? else none

/-- What follows, unless the method has been left. -/
def Flow.andThen (flow : Flow α S) (rest : Frame α S → Option (Flow α S)) : Option (Flow α S) :=
  match flow with
  | .next s => rest s
  | .left s answer => some (.left s answer)

/-- Where execution goes on, the rest follows. -/
@[simp]
theorem Flow.andThen_next {s : Frame α S} {rest : Frame α S → Option (Flow α S)} :
    (Flow.next s).andThen rest = rest s := rfl

/-- Where an answer was given, the rest is not executed. -/
@[simp]
theorem Flow.andThen_left {s : Frame α S} {rest : Frame α S → Option (Flow α S)}
    {answer : Option (S × α)} : (Flow.left s answer).andThen rest = some (.left s answer) := rfl

/-- What is done at some positions, one after another, unless the method has been left. -/
def loop (body : Frame α S → Option (Flow α S)) : List Nat → Frame α S → Option (Flow α S)
  | [], s => some (.next s)
  | i :: rest, s => (body { s with counter := i }).bind (·.andThen (loop body rest))

/-- The value of a position. -/
def Index.eval (s : Frame α S) : Index → Int
  | .counter => s.counter
  -- below zero if there are no segments
  | .last => s.segments.length - 1

variable [ExactScalar α]

/-- The number that an operator makes. -/
def Operator.apply : Operator → α → α → α
  | .add, a, b => a + b
  | .mul, a, b => a * b
  | .div, a, b => a / b

/-- The value of an expression. -/
def Num.eval (s : Frame α S) : Num → Option α
  | .literal n => some n
  | .var x => s.var x
  | .total => s.total
  | .clock => some s.clock
  | .lengthAt i => item? s.lengths (i.eval s)
  | .binary op a b => do return op.apply (← a.eval s) (← b.eval s)
  | .max a b => do return Max.max (← a.eval s) (← b.eval s)
  | .min a b => do return Min.min (← a.eval s) (← b.eval s)

/-- The value of an expression. -/
def Test.eval (s : Frame α S) : Test → Option Bool
  | .empty => some (s.segments.length == 0)
  | .atMost a b => do return decide ((← a.eval s) ≤ (← b.eval s))
  | .above a b => do return decide ((← b.eval s) < (← a.eval s))
  -- where the first part fails the second one is not looked at
  | .and c c' => do if ← c.eval s then c'.eval s else return false

/-- What is given back. -/
def Answer.eval (s : Frame α S) : Answer → Option (Option (S × α))
  | .undefined => some none
  | .hit i t => do return some (← item? s.segments (i.eval s), ← t.eval s)

mutual

/-- What a statement does. -/
def Stmt.exec : Stmt → Frame α S → Option (Flow α S)
  | .setTotal step first, s => do
    let total ← s.lengths.foldlM
      (fun sum length => step.eval ((s.setVar .sum sum).setVar .length length)) (← first.eval s)
    return .next { s with total := some total }
  | .declare _ x a, s => do return .next (s.setVar x (← a.eval s))
  | .takeOff x a, s => do return .next (s.setVar x ((← s.var x) - (← a.eval s)))
  | .when c body, s => do if ← c.eval s then execAll body s else return .next s
  | .each body, s => loop (execAll body) (List.range s.segments.length) s
  | .leave answer, s => do return .left s (← answer.eval s)

/-- What statements do one after another. -/
def Stmt.execAll : List Stmt → Frame α S → Option (Flow α S)
  | [], s => some (.next s)
  | stmt :: rest, s => (stmt.exec s).bind (·.andThen (execAll rest))

end

/-! ### Running code step by step -/

section Steps

namespace Stmt

variable {s : Frame α S} {stmt : Stmt} {stmts body : List Stmt} {c : Test} {x : Variable} {a : Num}
  {value : α}

/-- Statements are executed one after the other. -/
theorem execAll_cons :
    execAll (stmt :: stmts) s = (stmt.exec s).bind (·.andThen (execAll stmts)) := rfl

/-- A body is skipped if its condition fails. -/
theorem exec_when_of_false (h : c.eval s = some false) :
    (Stmt.when c body).exec s = some (.next s) := by
  rw [exec, h]
  rfl

/-- A body is executed if its condition holds. -/
theorem exec_when_of_true (h : c.eval s = some true) :
    (Stmt.when c body).exec s = execAll body s := by
  rw [exec, h]
  rfl

/-- A variable is declared with its value. -/
theorem exec_declare {constant : Bool} (h : a.eval s = some value) :
    (Stmt.declare constant x a).exec s = some (.next (s.setVar x value)) := by
  rw [exec, h]
  rfl

/-- A number is taken off a variable. -/
theorem exec_takeOff {before : α} (h : a.eval s = some value) (hx : s.var x = some before) :
    (Stmt.takeOff x a).exec s = some (.next (s.setVar x (before - value))) := by
  rw [exec, h, hx]
  rfl

/-- An answer ends the execution. -/
theorem exec_leave {answer : Answer} {given : Option (S × α)} (h : answer.eval s = some given) :
    (Stmt.leave answer).exec s = some (.left s given) := by
  rw [exec, h]
  rfl

end Stmt

end Steps

/-- The path after a method. -/
def Flow.frame : Flow α S → Frame α S
  | .next s => s
  | .left s _ => s

/-- A new path, unless the constructor goes wrong. -/
def ClassCode.make (k : ClassCode) (segments : List S) (lengths : List α) (clock : α) :
    Option (Object α S) :=
  (Stmt.execAll k.construct { segments, lengths, clock }).map (·.frame.toObject)

/-- What becomes of the search for a place, unless it goes wrong. -/
def ClassCode.run (k : ClassCode) (o : Object α S) : Option (Flow α S) :=
  Stmt.execAll k.locate { o with }

/-! ### The class -/

/-- What is done for one segment: the place is on it, or further on. -/
def atSegment : List Stmt := [
  .declare true .length (.lengthAt .counter),
  .when (.and (.atMost (.var .remaining) (.var .length)) (.above (.var .length) (.literal 0))) [
    .leave (.hit .counter (.binary .div (.var .remaining) (.var .length)))],
  .takeOff .remaining (.var .length)]

/-- The class of paths. -/
def program : ClassCode where
  construct := [.setTotal (.binary .add (.var .sum) (.var .length)) (.literal 0)]
  locate := [
    .when .empty [.leave .undefined],
    .declare false .remaining
      (.binary .mul (.min (.max .clock (.literal 0)) (.literal 1)) .total),
    .each atSegment,
    .leave (.hit .last (.literal 1))]

set_option maxRecDepth 20000 in
/-- The text of the class begins with the text of its constructor and of its search. -/
theorem lines_program : program.lines <+: Runtime.pathClass.body :=
  ⟨Runtime.pathClass.body.drop 24, rfl⟩

end ArtCanvas.PathCode
