import Abacus.Numeral.Free

/-!
# Command lines

A command line names one of three commands, with one positional argument and options before or
after it. An option's value follows in the same argument, after `=` for a long option, or is the
next argument whatever that is. Of options given more than once the last counts. Two dashes end the
options.

## Main definitions

* `Invocation` — a command with its argument and options.
* `Request` — what a command line asks for.
* `Arguments.parse` — the request of a command line.
-/

namespace Abacus.Command

/-- A command with its argument and options. An option that is not given is none, and then the
settings decide. -/
inductive Invocation where
  /-- Evaluate one expression. -/
  | eval (expression : String) (strict : Option Bool) (digits : Option Int)
  /-- Show the tokens of an expression. -/
  | tokens (expression : String) (strict : Option Bool)
  /-- Evaluate a file, and write the report to another file if one is given. -/
  | batch (path : String) (json : Option String) (strict : Option Bool) (digits : Option Int)
  deriving DecidableEq, Repr

/-- What a command line asks for. It is judged as a whole before anything is run, so a command never
begins with arguments that are wrong. -/
inductive Request where
  | run (invocation : Invocation)
  /-- To be told how to use the program. -/
  | help
  /-- Nothing at all. -/
  | nothing
  /-- Something that is not offered. -/
  | wrong
  deriving DecidableEq, Repr

namespace Arguments

/-- The commands. -/
inductive Name where
  | eval
  | tokens
  | batch
  deriving DecidableEq, Repr

/-- The command of a name. Names are not shortened, and their case matters. -/
def Name.ofText? (text : String) : Option Name :=
  if text == "eval" then some eval
  else if text == "tokens" then some tokens
  else if text == "batch" then some batch
  else none

/-- The options with a value. -/
inductive Valued where
  | digits
  | json
  deriving DecidableEq, Repr

/-- The options with a value that a command takes. The options without one are the same for all
commands. -/
def Name.valued : Name → List Valued
  | eval => [.digits]
  | tokens => []
  | batch => [.digits, .json]

/-- The long name of an option. -/
def Valued.long : Valued → String
  | digits => "--digits"
  | json => "--json"

/-- The letter of an option. -/
def Valued.letter : Valued → Char
  | digits => 'd'
  | json => 'j'

/-- The options without a value. -/
inductive Switch where
  | strict
  | lenient
  | help
  deriving DecidableEq, Repr

/-- Every option without a value. -/
def Switch.all : List Switch := [strict, lenient, help]

/-- The name of an option. -/
def Switch.long : Switch → String
  | strict => "--strict"
  | lenient => "--lenient"
  | help => "--help"

/-- The arguments of a command, sorted but not judged. An option that is given again replaces what
was given before. -/
structure Sorted where
  positionals : List String := []
  strict : Option Bool := none
  digits : Option String := none
  json : Option String := none
  help : Bool := false
  deriving Repr

/-- The arguments with an option switched. -/
def Sorted.switch (sorted : Sorted) : Switch → Sorted
  | .strict => { sorted with strict := some true }
  | .lenient => { sorted with strict := some false }
  | .help => { sorted with help := true }

/-- The arguments with the value of an option. -/
def Sorted.set (sorted : Sorted) (value : String) : Valued → Sorted
  | .digits => { sorted with digits := some value }
  | .json => { sorted with json := some value }

/-- What one argument is. It depends on the argument and the command only, and not on where the
argument stands. -/
inductive Shape where
  | positional
  /-- Two dashes. -/
  | endOfOptions
  | switch (option : Switch)
  /-- An option whose value is the next argument. -/
  | opening (option : Valued)
  /-- An option with its value. -/
  | complete (option : Valued) (value : String)
  /-- An option that the command does not take, or not so. -/
  | wrong
  deriving DecidableEq, Repr

/-- An argument that starts with a dash is an option, unless it is the dash alone. -/
def isOption (arg : String) : Bool :=
  match arg.toList with
  | '-' :: _ :: _ => true
  | _ => false

/-- The name of a long option, and its value after an equals sign. The value may be empty, and may
have equals signs of its own. -/
def splitEquals (arg : String) : String × Option String :=
  let cs := arg.toList
  match cs.dropWhile (· != '=') with
  | [] => (arg, none)
  | _ :: value => (String.ofList (cs.takeWhile (· != '=')), some (String.ofList value))

/-- What an option given by a letter is. What follows the letter in the argument is its value, an
equals sign included. -/
def Shape.ofLetter (taken : List Valued) (letter : Char) (rest : List Char) : Shape :=
  match taken.find? fun option => option.letter == letter with
  | none => .wrong
  | some option => if rest.isEmpty then .opening option else .complete option (String.ofList rest)

/-- What an argument is to a command that takes some options with a value. -/
def Shape.of (taken : List Valued) (arg : String) : Shape :=
  if arg == "--" then .endOfOptions
  else if !isOption arg then .positional
  else
    let (name, value) := splitEquals arg
    match Switch.all.find? fun option => option.long == name with
    | some option => if value.isNone then .switch option else .wrong
    | none =>
      match taken.find? fun option => option.long == name with
      | some option =>
        match value with
        | some text => .complete option text
        | none => .opening option
      | none =>
        -- Only letters take their value in the same argument without an equals sign.
        match arg.toList with
        | '-' :: '-' :: _ => .wrong
        | '-' :: letter :: rest => .ofLetter taken letter rest
        | _ => .wrong

/-- Sorts the arguments of a command; `due` is the option that the next argument is the value of.
There is no order in arguments with an option that is wrong or lacks its value. -/
def sort (taken : List Valued) (due : Option Valued) (sorted : Sorted) :
    List String → Option Sorted
  | [] => if due.isSome then none else some sorted
  | arg :: rest =>
    match due with
    | some option => sort taken none (sorted.set arg option) rest
    | none =>
      match Shape.of taken arg with
      | .positional =>
        sort taken none { sorted with positionals := sorted.positionals ++ [arg] } rest
      | .endOfOptions => some { sorted with positionals := sorted.positionals ++ rest }
      | .switch option => sort taken none (sorted.switch option) rest
      | .opening option => sort taken (some option) sorted rest
      | .complete option value => sort taken none (sorted.set value option) rest
      | .wrong => none

/-- A number of digits that may be asked for. Zero may not: it is all zeros in front, and spells no
count. -/
def digitsOf? (text : String) : Option Int :=
  (Numeral.count? text).map Int.ofNat

/-- The request of sorted arguments. Help wins over what is missing or too much. Every command takes
one argument, neither more nor less. -/
def request (name : Name) (sorted : Sorted) : Request :=
  if sorted.help then .help
  else
    match sorted.positionals, sorted.digits.map digitsOf? with
    | [argument], none => invocation argument none
    | [argument], some (some n) => invocation argument (some n)
    | _, _ => .wrong
where
  /-- The invocation with an argument and a number of digits. -/
  invocation (argument : String) (digits : Option Int) : Request :=
    .run <|
      match name with
      | .eval => .eval argument sorted.strict digits
      | .tokens => .tokens argument sorted.strict
      | .batch => .batch argument sorted.json sorted.strict digits

/-- Whether the options in front of all else ask for help, and for nothing more. -/
def asksHelp (args : List String) : Bool :=
  let leading := args.takeWhile fun arg => isOption arg && arg != "--"
  !leading.isEmpty && leading.all (· == Switch.help.long)

/-- The request of a command's name and the arguments after it. Options in place of the name can
still ask for help. -/
def parseCommand (args : List String) : Request :=
  match args with
  | [] => .wrong
  | arg :: rest =>
    match Name.ofText? arg with
    | some name =>
      match sort name.valued none {} rest with
      | some sorted => request name sorted
      | none => .wrong
    | none => if asksHelp args then .help else .wrong

/-- The request of a command line. Two dashes may stand before the command's name. -/
def parse (args : List String) : Request :=
  match args with
  | [] => .nothing
  | "--" :: rest => parseCommand rest
  | _ => parseCommand args

end Arguments

end Abacus.Command
