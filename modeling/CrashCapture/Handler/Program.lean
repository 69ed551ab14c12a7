import CrashCapture.Handler.Image
import CrashCapture.Handler.Script
import CrashCapture.Watchdog.Report

namespace CrashCapture

/-- What a process does after a file was run as a program. -/
inductive Activity
  | ended
  | busy
  | watching (watch : Watch)
deriving DecidableEq, Repr

structure Child where
  pid : Nat
  activity : Activity
  /-- Whether it is forgotten when it ends, so that nobody can ask how it ended. -/
  forgotten : Bool
deriving DecidableEq, Repr

namespace Child

def hasEnded (c : Child) : Bool := c.activity = .ended

end Child

namespace Program

def watchdogName : String := "crash-watchdog"

def shells : List String := ["sh", "dash", "bash"]

/-- The program that looks for another one by its name and runs it. -/
def finderName : String := "env"

def searchPath : List Path := ["/usr/local/bin", "/usr/bin", "/bin"]

def isExecutable (mode : Nat) : Bool := mode &&& 0o111 ≠ 0

/-- The content of a file that may be run. -/
def load (files : FileTree) (p : Path) : Except IoError Bytes := do
  match ← files.find p with
  | (_, .file content mode) => if isExecutable mode then .ok content.bytes else .error .accessDenied
  | _ => .error .accessDenied

def maxInterpreters : Nat := 5

/-- The machine code that a file is run by, with its arguments: an interpreter gets its own argument, the
file, and the arguments of the file. -/
def resolve (files : FileTree) : Nat → Path → List String → Except IoError (Bytes × List String)
  | left, p, arguments => do
    match format (← load files p), left with
    | .machine name, _ => return (name, arguments)
    | .unknown, _ => throw .badExecutable
    | .interpreted .., 0 => throw .tooManyLinks
    | .interpreted interpreter argument, left + 1 =>
      resolve files left interpreter (argument.toList ++ p :: arguments)

/-- Runs machine code. Only the watchdog goes on. -/
def runMachine (name : Bytes) (arguments : List String) (files : FileTree) : Activity :=
  if name = Bytes.ofString watchdogName then
    match WatchdogCommand.parse arguments with
    | .error _ => .ended
    | .ok command =>
      match Watch.start files command with
      | .error _ => .ended
      | .ok watch => .watching watch
  else .ended

def isFlag (argument : String) : Bool := argument.toList.head? = some '-'

/-- Runs a shell on the script that is its first argument. -/
def runShell (arguments : List String) (files : FileTree) : Activity × FileTree :=
  match arguments.dropWhile isFlag with
  | [] => (.ended, files)
  | script :: rest =>
    let text := ((files.read script).toOption.bind Bytes.text?).getD ""
    match (Script.run text rest).run files with
    | .ok true files => (.busy, files)
    | .ok false files => (.ended, files)
    | .error _ files => (.ended, files)

def run (name : Bytes) (arguments : List String) (files : FileTree) : Activity × FileTree :=
  if shells.any (Bytes.ofString · = name) then runShell arguments files
  else (runMachine name arguments files, files)

/-- The first file of a name on the search path that can be run. -/
def search (files : FileTree) (name : String) (arguments : List String) :
    Option (Bytes × List String) :=
  let paths := if name.contains '/' then [name] else searchPath.map (Path.join · name)
  paths.findSome? fun p => (resolve files maxInterpreters p arguments).toOption

/-- Runs a file as a program up to where it waits or ends. -/
def start (files : FileTree) (p : Path) (arguments : List String) :
    Except IoError (Activity × FileTree) := do
  if (p :: arguments).any (·.toList.contains '\x00') then throw .nulInCommand
  let (code, arguments) ← resolve files maxInterpreters p arguments
  if code ≠ Bytes.ofString finderName then return run code arguments files
  match arguments with
  | [] => return (.ended, files)
  | name :: arguments =>
    match search files name arguments with
    | some (code, arguments) => return run code arguments files
    | none => return (.ended, files)

end Program

end CrashCapture
