import ArtCanvas.Script.Code
import ArtCanvas.Trigger

/-!
# The language of the clock code

The class of clocks that scripts carry is written in a small language: numbers and truth values in
fields and variables, assignments, branches, and calls of other methods. The pieces of the language
are data here, and this module gives their text, as it stands in a script.

* `ClockCode.Num`, `ClockCode.Test`: expressions for numbers and for truth values.
* `ClockCode.Stmt`, `ClockCode.Method`: statements and methods. A call of a method holds the
  statements of the method.
* `ClockCode.ClassCode`: a class.
* `ClockCode.Num.words`, `ClockCode.Stmt.lines`, `ClockCode.ClassCode.lines`: their text, word by
  word. Parentheses stand exactly where the text would otherwise be read as another expression.
-/

namespace ArtCanvas.ClockCode

/-! ### Pieces of code -/

/-- The fields of a clock that hold numbers. -/
inductive NumField where
  | duration
  | delay
  | direction
  | iterations
  | span
  | base
  | startTime
  | stopTime
  | baseDirection
  | d
  | t
  | i
  | value
  deriving DecidableEq, Repr

/-- The fields of a clock that hold truth values. -/
inductive FlagField where
  | reverses
  | isRunning
  | isFinished
  deriving DecidableEq, Repr

/-- The variables and parameters of methods. -/
inductive Variable where
  | range
  | multiplier
  | offset
  | iteration
  | now
  | elapsed
  | progress
  deriving DecidableEq, Repr

/-- The operators on numbers. -/
inductive Operator where
  | add
  | sub
  | mul
  | div
  | rem
  deriving DecidableEq, Repr

/-- The comparisons of numbers. -/
inductive Comparison where
  | same
  | differs
  | atLeast
  deriving DecidableEq, Repr

mutual

/-- An expression for a number. -/
inductive Num where
  | literal (n : Nat)
  | field (f : NumField)
  | var (x : Variable)
  /-- What the watch of the host shows. -/
  | watch
  | neg (a : Num)
  | binary (op : Operator) (a b : Num)
  | max (a b : Num)
  | floor (a : Num)
  /-- The easing curve of the clock. -/
  | timing (a : Num)
  | choose (c : Test) (a b : Num)

/-- An expression for a truth value. -/
inductive Test where
  | flag (f : FlagField)
  | not (c : Test)
  | and (c c' : Test)
  | or (c c' : Test)
  | compare (op : Comparison) (a b : Num)

end

/-- A statement. -/
inductive Stmt where
  | setNum (f : NumField) (a : Num)
  | setFlag (f : FlagField) (b : Bool)
  /-- A variable with its first value, which may be kept for good. -/
  | declare (constant : Bool) (x : Variable) (a : Num)
  | assign (x : Variable) (a : Num)
  | when (c : Test) (body : List Stmt)
  | choose (c : Test) (yes no : List Stmt)
  /-- Ends the method. -/
  | leave
  /-- Tells those who listen. -/
  | fire (event : ClockEvent)
  /-- Calls a method of the clock. -/
  | call (name : String) (arguments : List (Variable × Num)) (body : List Stmt)
  /-- Puts the clock into the list of all clocks. -/
  | enlist

/-- A method. -/
structure Method where
  /-- Whether only the clock itself calls the method. -/
  hidden : Bool := false
  /-- The name. -/
  name : String
  /-- The parameters. -/
  parameters : List Variable := []
  /-- What is done. -/
  body : List Stmt

/-- The call of a method. -/
def Method.call (m : Method) (arguments : List Num) : Stmt :=
  .call m.name (m.parameters.zip arguments) m.body

/-- A parameter of a constructor. -/
inductive Parameter where
  /-- The value of a field. -/
  | num (f : NumField)
  /-- The value of a field. -/
  | flag (f : FlagField)
  /-- The easing curve. -/
  | timing
  /-- A number for the constructor alone. -/
  | var (x : Variable)
  deriving DecidableEq, Repr

/-- The declaration of a field that the constructor does not take. -/
inductive FieldLine where
  /-- A field that the constructor sets once. -/
  | fixed (f : NumField)
  /-- A field with its first value. -/
  | num (hidden : Bool) (f : NumField) (first : Nat)
  /-- A field with its first value. -/
  | flag (f : FlagField) (first : Bool)
  deriving DecidableEq, Repr

/-- A class. -/
structure ClassCode where
  /-- What can be listened to. -/
  events : List ClockEvent
  /-- The fields that the constructor does not take. -/
  fields : List FieldLine
  /-- What the constructor takes. -/
  parameters : List Parameter
  /-- What the constructor does. -/
  body : List Stmt
  /-- The methods. -/
  methods : List Method

/-! ### The text of expressions -/

/-- The name of a field. -/
def NumField.name : NumField → String
  | .duration => "duration"
  | .delay => "delay"
  | .direction => "direction"
  | .iterations => "iterations"
  | .span => "span"
  | .base => "base"
  | .startTime => "startTime"
  | .stopTime => "stopTime"
  | .baseDirection => "baseDirection"
  | .d => "d"
  | .t => "t"
  | .i => "i"
  | .value => "value"

/-- The name of a field. -/
def FlagField.name : FlagField → String
  | .reverses => "reverses"
  | .isRunning => "isRunning"
  | .isFinished => "isFinished"

/-- The name of a variable. -/
def Variable.name : Variable → String
  | .range => "range"
  | .multiplier => "multiplier"
  | .offset => "offset"
  | .iteration => "iteration"
  | .now => "now"
  | .elapsed => "elapsed"
  | .progress => "progress"

/-- The sign of an operator. -/
def Operator.sign : Operator → String
  | .add => " + "
  | .sub => " - "
  | .mul => " * "
  | .div => " / "
  | .rem => " % "

/-- How tightly an operator binds. -/
def Operator.strength : Operator → Nat
  | .add | .sub => 6
  | .mul | .div | .rem => 7

/-- The sign of a comparison. -/
def Comparison.sign : Comparison → String
  | .same => " === "
  | .differs => " !== "
  | .atLeast => " >= "

/-- How tightly a comparison binds. -/
def Comparison.strength : Comparison → Nat
  | .same | .differs => 4
  | .atLeast => 5

/-- How tightly an expression that needs no parentheses holds together. -/
def closed : Nat := 9

/-- How tightly an expression holds together. -/
def Num.strength : Num → Nat
  | .choose .. => 1
  | .binary op _ _ => op.strength
  | .neg _ => 8
  | _ => closed

/-- How tightly an expression holds together. -/
def Test.strength : Test → Nat
  | .or .. => 2
  | .and .. => 3
  | .compare op _ _ => op.strength
  | .not _ => 8
  | .flag _ => closed

/-- The words of an expression in a place that asks for a strength. -/
def enclosed (wanted strength : Nat) (words : List String) : List String :=
  if strength < wanted then "(" :: words ++ [")"] else words

mutual

/-- The words of an expression. Operators of one strength are read from the left. -/
def Num.words : Num → List String
  | .literal n => [toString n]
  | .field f => ["this.", f.name]
  | .var x => [x.name]
  | .watch => ["performance.now()"]
  | .neg a => "-" :: enclosed closed a.strength a.words
  | .binary op a b =>
    enclosed op.strength a.strength a.words ++ op.sign
      :: enclosed (op.strength + 1) b.strength b.words
  | .max a b => "Math.max(" :: a.words ++ ", " :: b.words ++ [")"]
  | .floor a => "Math.floor(" :: a.words ++ [")"]
  | .timing a => "this.timing(" :: a.words ++ [")"]
  | .choose c a b => enclosed 2 c.strength c.words ++ " ? " :: a.words ++ " : " :: b.words

/-- The words of an expression. Operators of one strength are read from the left. -/
def Test.words : Test → List String
  | .flag f => ["this.", f.name]
  | .not c => "!" :: enclosed closed c.strength c.words
  | .and c c' => enclosed 3 c.strength c.words ++ " && " :: enclosed 4 c'.strength c'.words
  | .or c c' => enclosed 2 c.strength c.words ++ " || " :: enclosed 3 c'.strength c'.words
  | .compare op a b =>
    enclosed op.strength a.strength a.words ++ op.sign
      :: enclosed (op.strength + 1) b.strength b.words

end

/-! ### The text of statements and classes -/

/-- The words of a line at a level of indentation. -/
def indented (level : Nat) (words : List String) : List String :=
  List.replicate level CodeWriter.indentUnit ++ words

mutual

/-- The lines of a statement at a level of indentation. -/
def Stmt.lines (level : Nat) : Stmt → List (List String)
  | .setNum f a => [indented level ("this." :: f.name :: " = " :: a.words ++ [";"])]
  | .setFlag f b => [indented level ["this.", f.name, " = ", toString b, ";"]]
  | .declare constant x a =>
    [indented level
      ((if constant then "const " else "let ") :: x.name :: " = " :: a.words ++ [";"])]
  | .assign x a => [indented level (x.name :: " = " :: a.words ++ [";"])]
  | .when c body =>
    indented level ("if (" :: c.words ++ [") \x7b"]) :: linesOf (level + 1) body
      ++ [indented level ["\x7d"]]
  | .choose c yes no =>
    indented level ("if (" :: c.words ++ [") \x7b"]) :: linesOf (level + 1) yes
      ++ indented level ["\x7d else \x7b"] :: linesOf (level + 1) no ++ [indented level ["\x7d"]]
  | .leave => [indented level ["return;"]]
  | .fire event => [indented level ["this.", event.scriptName, ".fire();"]]
  | .call name arguments _ =>
    [indented level ("this." :: name :: "(" ::
      [", "].intercalate (arguments.map fun argument => argument.2.words) ++ [");"])]
  | .enlist => [indented level ["clocks.push(this);"]]

/-- The lines of statements at a level of indentation. -/
def Stmt.linesOf (level : Nat) : List Stmt → List (List String)
  | [] => []
  | stmt :: rest => stmt.lines level ++ linesOf level rest

end

/-- The words of a parameter. -/
def Parameter.words : Parameter → List String
  | .num f => ["readonly ", f.name, ": number"]
  | .flag f => ["readonly ", f.name, ": boolean"]
  | .timing => ["readonly timing: TimingFunction"]
  | .var x => [x.name, ": number"]

/-- What stands in front of a field or method that only the clock itself uses. -/
def privacy (hidden : Bool) : String := if hidden then "private " else ""

/-- The words that declare a field. -/
def FieldLine.words : FieldLine → List String
  | .fixed f => ["private readonly ", f.name, ": number;"]
  | .num hidden f first => [privacy hidden, f.name, " = ", toString first, ";"]
  | .flag f first => [privacy true, f.name, " = ", toString first, ";"]

/-- The lines of a method, after an empty line. -/
def Method.lines (m : Method) : List (List String) :=
  let parameters := m.parameters.map fun x => [x.name, ": number"]
  [] :: indented 1 (privacy m.hidden :: m.name :: "(" :: [", "].intercalate parameters
      ++ ["): void \x7b"]) :: Stmt.linesOf 2 m.body ++ [indented 1 ["\x7d"]]

/-- The line with some words. -/
def spelled (words : List String) : String := String.ofList (words.flatMap String.toList)

/-- The lines of a class after the first. -/
def ClassCode.lines (k : ClassCode) : List String :=
  let constructor := indented 1 ["constructor("]
    :: (k.parameters.map fun p => indented 2 (p.words ++ [","]))
    ++ indented 1 [") \x7b"] :: Stmt.linesOf 2 k.body ++ [indented 1 ["\x7d"]]
  ((k.events.map fun event =>
      indented 1 ["readonly ", event.scriptName, " = new ClockEvent();"])
    ++ [] :: k.fields.map (fun f => indented 1 f.words)
    ++ [] :: constructor ++ k.methods.flatMap Method.lines ++ [["\x7d"]]).map spelled

end ArtCanvas.ClockCode
