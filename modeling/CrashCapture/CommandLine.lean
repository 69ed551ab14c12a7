namespace CrashCapture

namespace CommandLine

inductive Arity
  | flag
  | single
  | repeated
deriving DecidableEq, Repr

/-- An option: its name, whether it has a value and how often, and which values it takes. -/
structure Spec where
  name : String
  arity : Arity
  accepts : String → Bool
  isRequired : Bool := false
  about : String := ""
  default : Option String := none
  choices : List String := []

inductive Refusal
  | help
  | usage
deriving DecidableEq, Repr

/-- The given options in order, with their values; that of a flag is empty. -/
abbrev Given := List (String × String)

namespace Given

def has (name : String) (g : Given) : Bool := g.any (·.1 = name)

def all (name : String) (g : Given) : List String :=
  (g.filter (·.1 = name)).map (·.2)

def value? (name : String) (g : Given) : Option String := (g.all name).head?

end Given

/-- What an argument is, apart from a value that belongs to the option before it. -/
inductive Argument
  | terminator
  | long (name : String) (value : Option String)
  | short (letters : List Char)
  | positional
deriving DecidableEq, Repr

/-- The name of a long option goes up to the first equals sign. -/
def longOption (cs : List Char) : Argument :=
  let name := cs.takeWhile (· ≠ '=')
  match cs.drop name.length with
  | _ :: value => .long (.ofList name) (some (.ofList value))
  | [] => .long (.ofList name) none

def classify (argument : String) : Argument :=
  match argument.toList with
  | ['-', '-'] => .terminator
  | '-' :: '-' :: cs => longOption cs
  | ['-'] => .positional
  | '-' :: cs => .short cs
  | _ => .positional

/-- Whether an argument can be the value of the option before it: a hyphen would start another one. -/
def isValue (argument : String) : Bool := classify argument = .positional

/-- Adds an option, unless it is one too many or its value is not taken. -/
def add (spec : Spec) (value : String) (given : Given) : Except Refusal Given :=
  if spec.arity ≠ .repeated && given.has spec.name then .error .usage
  else if spec.accepts value then .ok (given ++ [(spec.name, value)])
  else .error .usage

/-- Reads a command line of long options: `--name value`, `--name=value`, and flags without a value.
-/
def read (specs : List Spec) : Given → List String → Except Refusal Given
  | given, [] => .ok given
  | given, argument :: rest =>
    match classify argument with
    | .terminator => if rest.isEmpty then .ok given else .error .usage
    | .short ('h' :: _) => .error .help
    | .short _ => .error .usage
    | .positional => .error .usage
    | .long "help" none => .error .help
    | .long name attached =>
      match specs.find? (·.name = name) with
      | none => .error .usage
      | some spec =>
        match spec.arity, attached, rest with
        | .flag, none, rest => do read specs (← add spec "" given) rest
        | .flag, some _, _ => .error .usage
        | _, some value, rest => do read specs (← add spec value given) rest
        | _, none, [] => .error .usage
        | _, none, value :: rest =>
          if isValue value then do read specs (← add spec value given) rest else .error .usage

def required (name : String) (given : Given) : Except Refusal String :=
  match given.value? name with
  | some value => .ok value
  | none => .error .usage

def anyText : String → Bool := fun _ => true

def isPath (value : String) : Bool := !value.isEmpty

end CommandLine

end CrashCapture
