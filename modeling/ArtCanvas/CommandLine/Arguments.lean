import ArtCanvas.Text.Split

/-!
# Arguments of the command line

`compile`, `info` and `dump` take an input file and an options file; `compile` also takes an output
file and two switches. A value follows its option as the next argument or after an equals sign.

Arguments are read from left to right. The first that asks for help or for the version settles the
request, whatever follows it, and so does the first that is not understood.
-/

namespace ArtCanvas.CommandLine

/-- What is to be done with a document. -/
inductive Action where
  /-- Write its script. -/
  | compile
  /-- Print a summary. -/
  | info
  /-- Print it as JSON. -/
  | dump
  deriving DecidableEq, Repr

/-- What the arguments ask for. -/
structure Invocation where
  /-- What is to be done. -/
  action : Action
  /-- The file with the document. -/
  input : String
  /-- The file with settings. -/
  options : Option String := none
  /-- The file for the script. -/
  output : Option String := none
  /-- Whether the clock code is left out. -/
  noRuntime : Bool := false
  /-- Whether origins are marked and a summary is added. -/
  debug : Bool := false
  deriving DecidableEq, Repr

/-- What there is a help page about. -/
inductive Topic where
  /-- The program. -/
  | program
  /-- One of its actions. -/
  | action (action : Action)
  /-- The word that asks for a help page. -/
  | help
  deriving DecidableEq, Repr

/-- Arguments that are understood. -/
inductive Request where
  /-- Print the name and the version of the program. -/
  | version
  /-- Print a help page. -/
  | help (topic : Topic)
  /-- Do something with a document. -/
  | run (invocation : Invocation)
  deriving DecidableEq, Repr

/-- An option that an action takes. -/
structure Flag where
  /-- The name, with its hyphens. -/
  name : String
  /-- What stands for the value in a help page. A switch has no value. -/
  placeholder : Option String := none
  /-- What a help page says about it. -/
  about : String
  deriving DecidableEq, Repr

/-- An option as it stands among the arguments. -/
inductive Item where
  /-- An option with a value. -/
  | value (name value : String)
  /-- A switch. -/
  | switch (name : String)
  deriving DecidableEq, Repr

namespace Flag

/-- The file with the document. -/
def input : Flag :=
  { name := "--in", placeholder := some "IN_PATH", about := "Input artwork JSON" }

/-- The switch for more messages. -/
def verbose : Flag :=
  { name := "--verbose"
    about := "Log compile decisions (debug level). `RUST_LOG` is used otherwise" }

/-- The file for the script. -/
def output : Flag :=
  { name := "--out", placeholder := some "OUT"
    about := "Output TypeScript path. Writes to stdout when omitted" }

/-- The file with settings. -/
def options : Flag :=
  { name := "--options", placeholder := some "OPTIONS"
    about := "JSON file with `compile` and `emit` option objects" }

/-- The switch that leaves the clock code out. -/
def noRuntime : Flag :=
  { name := "--no-runtime", about := "Leave the clock runtime out of animated output" }

/-- The switch that marks origins and adds a summary. -/
def debug : Flag :=
  { name := "--debug", about := "Emit origin markers and a debug summary comment" }

end Flag

namespace Action

/-- All actions, in the order of the help page. -/
def all : List Action := [.compile, .info, .dump]

/-- The word for an action. -/
def name : Action → String
  | .compile => "compile"
  | .info => "info"
  | .dump => "dump"

/-- The action that a word names. -/
def parse? (word : String) : Option Action := all.find? fun action => action.name == word

/-- The options of an action, in the order of its help page. -/
def flags : Action → List Flag
  | .compile =>
    [Flag.input, Flag.verbose, Flag.output, Flag.options, Flag.noRuntime, Flag.debug]
  | .info | .dump => [Flag.input, Flag.verbose, Flag.options]

/-- Whether the action has a switch of this name. -/
def hasSwitch (action : Action) (name : String) : Bool :=
  action.flags.any fun flag => flag.name == name && flag.placeholder.isNone

/-- Whether the action has an option of this name that takes a value. -/
def hasOption (action : Action) (name : String) : Bool :=
  action.flags.any fun flag => flag.name == name && flag.placeholder.isSome

end Action

/-- Whether an argument can be the value of the option before it: only a lone hyphen may begin with
one, and no value is empty. -/
def isValue (argument : String) : Bool :=
  match argument.toList with
  | [] => false
  | ['-'] => true
  | '-' :: _ => false
  | _ => true

/-- Whether an argument asks for a help page. The short form stands for itself whatever follows it
in the same argument. -/
def asksForHelp (argument : String) : Bool := argument == "--help" || argument.startsWith "-h"

/-- Whether an argument asks for the version, in the same two forms. -/
def asksForVersion (argument : String) : Bool :=
  argument == "--version" || argument.startsWith "-V"

/-- Cuts an argument at its first equals sign. -/
def splitEquals? (argument : String) : Option (String × String) :=
  (Text.cutFirst '=' argument.toList).map fun (name, value) =>
    (String.ofList name, String.ofList value)

namespace Item

/-- The name of the option. -/
def name : Item → String
  | .value name _ => name
  | .switch name => name

/-- The value that an option is given. -/
def find? (items : List Item) (wanted : String) : Option String :=
  items.findSome? fun item =>
    match item with
    | .value option text => if option == wanted then some text else none
    | .switch _ => none

/-- One more item, unless its name stood there before. -/
def add? (items : List Item) (item : Item) : Option (List Item) :=
  if (items.map Item.name).contains item.name then none else some (item :: items)

end Item

/-- What the options of an action ask for. An input is needed. -/
def Invocation.ofItems? (action : Action) (items : List Item) : Option Invocation := do
  let names := items.map Item.name
  return {
    action
    input := ← Item.find? items Flag.input.name
    options := Item.find? items Flag.options.name
    output := Item.find? items Flag.output.name
    noRuntime := names.contains Flag.noRuntime.name
    debug := names.contains Flag.debug.name }

namespace Request

/-- Reads the arguments after the action, given the items that stood before them. Two hyphens may
close the arguments. -/
def ofOptions? (action : Action) : List Item → List String → Option Request
  | items, [] | items, ["--"] => (Invocation.ofItems? action items).map .run
  | items, argument :: rest =>
    if asksForHelp argument then some (.help (.action action))
    else if action.hasSwitch argument then do
      ofOptions? action (← Item.add? items (.switch argument)) rest
    else if action.hasOption argument then
      match rest with
      | [] => none
      | value :: rest =>
        if isValue value then do
          ofOptions? action (← Item.add? items (.value argument value)) rest
        else none
    else
      match splitEquals? argument with
      | none => none
      | some (name, value) =>
        if action.hasOption name && !value.isEmpty then do
          ofOptions? action (← Item.add? items (.value name value)) rest
        else none

/-- What the words after `help` ask for. -/
def ofTopic? : List String → Option Request
  | [] => some (.help .program)
  | ["help"] => some (.help .help)
  | [word] => (Action.parse? word).map fun action => .help (.action action)
  | _ => none

/-- What the arguments ask for after the switch for more messages, if it is there. -/
def ofWords? : List String → Option Request
  | [] => none
  | word :: rest =>
    if asksForHelp word then some (.help .program)
    else if asksForVersion word then some .version
    else if word == "help" then ofTopic? rest
    else (Action.parse? word).bind fun action => ofOptions? action [] rest

/-- What the arguments ask for, if they are understood. The switch for more messages may also stand
once before the action. -/
def parse? : List String → Option Request
  | [] => none
  | word :: rest => ofWords? (if word == Flag.verbose.name then rest else word :: rest)

end Request

end ArtCanvas.CommandLine
