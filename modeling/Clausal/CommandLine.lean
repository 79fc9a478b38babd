/-
# The command line

Options and inputs may be mixed. The options are `--solver` and `--format`,
short `-s` and `-f`, with a value, the flag `--allow-tautologies`, and
`--version`, short `-V`. Two hyphens end the options, a single hyphen is an
ordinary input.

The value of an option is joined to it, with or without an equals sign, or is
the next argument. If that starts another option, or if there is none, the
option has no value and changes nothing. Values are looked at only when all
arguments have been read, so that a request for the version is answered however
the options before it are spelled.
-/

import Clausal.Settings

namespace Clausal.CommandLine

/-- The options that take a value. -/
inductive Key where
  | solver
  | format
deriving DecidableEq, Repr

/-- One argument that is no value of an option before it. -/
inductive Argument where
  | input
  /-- The end of the options. -/
  | endOfOptions
  | version
  | allowTautologies
  /-- An option, with the value joined to it if there is one. -/
  | option (key : Key) (value : Option String)
  | unknown
deriving DecidableEq

namespace Argument

/-- A value without the equals signs in front of it. -/
def withoutEquals (value : List Char) : String :=
  String.ofList (value.dropWhile (· == '='))

/-- An argument after its leading hyphens, which name an option in full. A value
given to a flag is ignored. -/
def ofLong (body : List Char) : Argument :=
  let (name, joined) := body.span (· != '=')
  let value := if joined.isEmpty then none else some (withoutEquals joined)
  match String.ofList name with
  | "solver" => .option .solver value
  | "format" => .option .format value
  | "allow-tautologies" => .allowTautologies
  | "version" => .version
  | _ => .unknown

/-- An argument after its one leading hyphen, whose first letter names an option. -/
def ofShort (body : List Char) : Argument :=
  let option (key : Key) (joined : List Char) : Argument :=
    .option key (if joined.isEmpty then none else some (withoutEquals joined))
  match body with
  | 's' :: joined => option .solver joined
  | 'f' :: joined => option .format joined
  | 'V' :: _ => .version
  | _ => .unknown

/-- What an argument is, by its hyphens. -/
def ofString (argument : String) : Argument :=
  match argument.toList with
  | ['-'] => .input
  | ['-', '-'] => .endOfOptions
  | '-' :: '-' :: body => ofLong (body.dropWhile (· == '-'))
  | '-' :: body => ofShort body
  | _ => .input

/-- An option waiting for its value does not take the start of another one. -/
def startsOption (argument : String) : Bool :=
  match argument.toList with
  | '-' :: _ :: _ => true
  | _ => false

end Argument

/-- How often an option was given, and its value. -/
structure Uses where
  count : Nat := 0
  value : Option String := none

/-- What has been read of the arguments. -/
structure Given where
  solver : Uses := {}
  format : Uses := {}
  allowTautologies : Nat := 0
  inputs : Array String := #[]

namespace Given

/-- Change what is known of one option. -/
def modify (given : Given) (key : Key) (change : Uses → Uses) : Given :=
  match key with
  | .solver => { given with solver := change given.solver }
  | .format => { given with format := change given.format }

/-- Note an option, with its value if it is joined to it. -/
def use (given : Given) (key : Key) (value : Option String) : Given :=
  given.modify key fun uses => { count := uses.count + 1, value := value <|> uses.value }

/-- Note the value of an option that has been noted before. -/
def setValue (given : Given) (key : Key) (value : String) : Given :=
  given.modify key fun uses => { uses with value := some value }

end Given

/-- What a command line asks for. -/
inductive Command where
  | showVersion
  /-- Solve the inputs, or the standard input if there are none. -/
  | solve (settings : Settings) (inputs : List String)
deriving DecidableEq

/-- The command line asks for nothing that could be done. -/
inductive UsageError where
  | unknownOption (argument : String)
  | repeatedOption
  | badValue (cause : UnknownName)
deriving DecidableEq

def UsageError.message : UsageError → String
  | unknownOption argument => s!"unknown option '{argument}'"
  | repeatedOption => "an option was given twice"
  | badValue cause => cause.message

namespace Given

/-- The chosen value of an option that may be given once, or the default. -/
def choose {α : Type} (uses : Uses) (ofName : String → Except UnknownName α) (default : α) :
    Except UsageError α :=
  if 1 < uses.count then .error .repeatedOption
  else match uses.value with
    | none => .ok default
    | some name => (ofName name).mapError .badValue

/-- The settings that all arguments together ask for. -/
def settings (given : Given) : Except UsageError Settings := do
  let defaults : Settings := {}
  let solver ← choose given.solver Solver.ofName defaults.solver
  let format ← choose given.format InputFormat.ofName defaults.format
  if 1 < given.allowTautologies then .error .repeatedOption
  else return {
    solver, format
    tautologies := if given.allowTautologies = 0 then defaults.tautologies else .drop }

/-- The command, once all arguments have been read. -/
def command (given : Given) : Except UsageError Command := do
  return .solve (← given.settings) given.inputs.toList

end Given

/-- Read the arguments in order. One option may be waiting for its value. -/
def readArguments (given : Given) (waiting : Option Key) :
    List String → Except UsageError Command
  | [] => given.command
  | argument :: rest =>
      match waiting, Argument.startsOption argument with
      | some key, false => readArguments (given.setValue key argument) none rest
      | _, _ =>
          match Argument.ofString argument with
          | .input => readArguments { given with inputs := given.inputs.push argument } none rest
          | .endOfOptions => { given with inputs := given.inputs ++ rest }.command
          | .version => .ok .showVersion
          | .allowTautologies =>
              readArguments { given with allowTautologies := given.allowTautologies + 1 } none rest
          | .option key (some value) => readArguments (given.use key (some value)) none rest
          | .option key none => readArguments (given.use key none) (some key) rest
          | .unknown => .error (.unknownOption argument)

/-- What the arguments of a command line ask for. -/
def parse (arguments : List String) : Except UsageError Command :=
  readArguments {} none arguments

end Clausal.CommandLine
