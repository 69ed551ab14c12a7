import CrashCapture.CommandLine

namespace CrashCapture.CommandLine

namespace Spec

def placeholder (s : Spec) : String := s.name.map fun c => if c = '-' then '_' else c.toUpper

def usage (s : Spec) : String :=
  "--" ++ s.name ++ if s.arity = .flag then "" else " <" ++ s.placeholder ++ ">"

/-- The values of an option: which is taken if there is none, and which are possible. -/
def remarks (s : Spec) : String :=
  " ".intercalate ((s.default.map fun v => "[default: " ++ v ++ "]").toList ++
    if s.choices.isEmpty then [] else ["[possible values: " ++ ", ".intercalate s.choices ++ "]"])

/-- What an option is for, and its values. -/
def note (s : Spec) : String := " ".intercalate ([s.about, s.remarks].filter (!·.isEmpty))

end Spec

/-- The width of a terminal, if there is none. -/
def lineWidth : Nat := 100

/-- What the options are for stands in a column beside them, unless that leaves most of the line to the
options and not enough to what is beside one of them. -/
def column? (specs : List Spec) : Option Nat :=
  let column := (specs.map (·.usage.length)).foldl max "--help".length + 8
  let isTight := specs.any fun s => lineWidth < column + s.about.length + s.remarks.length
  if 2 * lineWidth < 5 * column && column ≤ lineWidth && isTight then none else some column

/-- An option with its note beside it, or on the next line. -/
def entry (column : Option Nat) (option note : String) : String :=
  match column with
  | some n => option ++ .ofList (List.replicate (n - option.length) ' ') ++ note ++ "\n"
  | none => option ++ "\n          " ++ note ++ "\n"

/-- The help for a program: what has to be given, and all options. -/
def help (program : String) (specs : List Spec) : String :=
  let usage := [program, "[OPTIONS]"] ++ (specs.filter (·.isRequired)).map Spec.usage
  let column := column? specs
  "Usage: " ++ " ".intercalate usage ++ "\n\nOptions:\n" ++
    String.join (specs.map fun s => entry column ("      " ++ s.usage) s.note) ++
    entry column "  -h, --help" "Print help"

namespace Refusal

def exitCode : Refusal → Nat
  | help => 0
  | usage => 2

/-- What a program writes to its output when it does not carry out a command line. -/
def output (program : String) (specs : List Spec) : Refusal → String
  | help => CommandLine.help program specs
  | usage => ""

end Refusal

end CrashCapture.CommandLine
