import MotionRack.Text.Split

/-!
# Command lines

Command lines. A command has positional arguments and options; its description is a value, from
which arguments are read and help is written. Arguments are looked at from left to right, and the
first one that is wrong ends the reading.
-/
namespace MotionRack.Console

/-- An option of a command. -/
structure OptionSpec where
  long : String
  /-- What stands for the value in help; an option without one is a switch. -/
  value : Option String := none
  help : String := ""
  /-- Whether a value may start with a hyphen. -/
  hyphenValues : Bool := false
  /-- Whether the option may stand several times. -/
  repeatable : Bool := false
  required : Bool := false
  /-- What separates several values in one argument. -/
  delimiter : Option Char := none
  /-- The value that counts when the option is left out. -/
  default : Option String := none
  /-- The values to choose from, if there is a choice. -/
  choices : List String := []
  /-- Whether a value can be read. -/
  accepts : String → Bool := fun _ => true

/-- A positional argument of a command: a path, which must not be empty. -/
structure PositionalSpec where
  name : String
  multiple : Bool := false

/-- A command. -/
structure CommandSpec where
  name : String
  about : String
  positionals : List PositionalSpec := []
  options : List OptionSpec := []

/-- Why arguments cannot be read. -/
inductive UsageFault
  | unknownCommand (name : String)
  | missingCommand
  | unknownOption (text : String)
  | missingValue (option : String)
  | unexpectedValue (option : String)
  | invalidValue (option value : String)
  | repeatedOption (option : String)
  | unexpectedArgument (text : String)
  | missingArgument (name : String)
  deriving DecidableEq, Repr

/-- The wording of a fault. -/
def UsageFault.message : UsageFault → String
  | unknownCommand name => s!"unrecognized subcommand '{name}'"
  | missingCommand => "a subcommand is required"
  | unknownOption text => s!"unexpected argument '{text}' found"
  | missingValue option => s!"a value is required for '--{option}' but none was supplied"
  | unexpectedValue option => s!"unexpected value for '--{option}' found; no more were expected"
  | invalidValue option value => s!"invalid value '{value}' for '{option}'"
  | repeatedOption option => s!"the argument '--{option}' cannot be used multiple times"
  | unexpectedArgument text => s!"unexpected argument '{text}' found"
  | missingArgument name => s!"the following required argument was not provided: {name}"

/-- The arguments of a command as far as they are read. -/
structure Arguments where
  positionals : List String := []
  /-- The options with their values, in order; a switch has an empty value. -/
  options : List (String × String) := []
  deriving DecidableEq, Repr

namespace Arguments

/-- Whether an option was given. -/
def has (a : Arguments) (long : String) : Bool := a.options.any (·.1 == long)

/-- The value of an option. -/
def value? (a : Arguments) (long : String) : Option String := a.options.lookup long

/-- All values of an option, in order. -/
def values (a : Arguments) (long : String) : List String :=
  (a.options.filter (·.1 == long)).map (·.2)

end Arguments

/-- How the reading of arguments ends. -/
inductive Reading
  | arguments (a : Arguments)
  | help
  | fault (f : UsageFault)

namespace CommandSpec

/-- The option of a name. -/
def option? (c : CommandSpec) (long : String) : Option OptionSpec :=
  c.options.find? (·.long == long)

/-- The values in the argument of an option. -/
def split (o : OptionSpec) (value : String) : List String :=
  match o.delimiter with
  | some d => (Split.cut d value.toList).map String.ofList
  | none => [value]

/-- Adds an option with its value. -/
def withOption (o : OptionSpec) (value : String) (a : Arguments) : Except UsageFault Arguments :=
  if !o.repeatable && a.has o.long then .error (.repeatedOption o.long)
  else
    let values := split o value
    match values.find? (!o.accepts ·) with
    | some v => .error (.invalidValue s!"--{o.long}" v)
    | none => .ok { a with options := a.options ++ values.map fun v => (o.long, v) }

/-- Adds a positional argument. -/
def withPositional (c : CommandSpec) (text : String) (a : Arguments) :
    Except UsageFault Arguments :=
  if c.positionals.length ≤ a.positionals.length && !c.positionals.any (·.multiple) then
    .error (.unexpectedArgument text)
  else if text.isEmpty then .error (.invalidValue "path" text)
  else .ok { a with positionals := a.positionals ++ [text] }

/-- The name and the value of a long option; without `=` it has no value. -/
def nameAndValue (cs : List Char) : String × Option String :=
  (String.ofList (cs.takeWhile (· != '=')),
    match cs.dropWhile (· != '=') with
    | _ :: value => some (String.ofList value)
    | [] => none)

/-- What is missing when all arguments are read. -/
def missing? (c : CommandSpec) (a : Arguments) : Option String :=
  match c.positionals[a.positionals.length]? with
  | some p => some s!"<{p.name}>"
  | none => (c.options.find? fun o => o.required && !a.has o.long).map fun o => s!"--{o.long}"

/-- Goes on with the arguments that were read, unless there is a fault. -/
def proceed (next : Arguments → Reading) : Except UsageFault Arguments → Reading
  | .ok a => next a
  | .error f => .fault f

/-- Reads the arguments of a command. `pending` is an option whose value comes next, and after a
`--` all arguments are positional. -/
def read (c : CommandSpec) (pending : Option OptionSpec) (trailing : Bool) (a : Arguments) :
    List String → Reading
  | [] =>
    match pending with
    | some o => .fault (.missingValue o.long)
    | none => match c.missing? a with
      | some name => .fault (.missingArgument name)
      | none => .arguments a
  | text :: rest =>
    let cs := text.toList
    if trailing then proceed (fun a => read c none true a rest) (c.withPositional text a)
    else match pending with
      | some o =>
        if cs.head? = some '-' ∧ cs ≠ ['-'] ∧ !o.hyphenValues then .fault (.missingValue o.long)
        else proceed (fun a => read c none false a rest) (withOption o text a)
      | none =>
        match cs with
        | '-' :: '-' :: name =>
          if name.isEmpty then read c none true a rest
          else match nameAndValue name with
            | ("help", none) => .help
            | ("help", some _) => .fault (.unexpectedValue "help")
            | (long, value) =>
              match c.option? long, value with
              | none, _ => .fault (.unknownOption text)
              | some o, some v =>
                if o.value.isNone then .fault (.unexpectedValue long)
                else proceed (fun a => read c none false a rest) (withOption o v a)
              | some o, none =>
                if o.value.isNone then
                  proceed (fun a => read c none false a rest) (withOption o "" a)
                else read c (some o) false a rest
        | '-' :: 'h' :: _ => .help
        | '-' :: _ :: _ => .fault (.unknownOption text)
        | _ => proceed (fun a => read c none false a rest) (c.withPositional text a)

end CommandSpec

/-- How the reading of a whole command line ends. -/
inductive Invocation
  | run (command : String) (a : Arguments)
  | help (command : Option String)
  | version
  | fault (f : UsageFault)

/-- Reads a command line: options of the program as a whole, then the name of a command and its
arguments. -/
def invocation (commands : List CommandSpec) : List String → Invocation
  | [] => .fault .missingCommand
  | text :: rest =>
    match text.toList with
    | '-' :: 'h' :: _ => .help none
    | '-' :: 'V' :: _ => .version
    | '-' :: _ :: _ =>
      if text = "--help" then .help none
      else if text = "--version" then .version
      else .fault (.unknownOption text)
    | _ => match commands.find? (·.name == text) with
      | none => .fault (.unknownCommand text)
      | some c => match c.read none false {} rest with
        | .arguments a => .run c.name a
        | .help => .help (some c.name)
        | .fault f => .fault f

end MotionRack.Console
