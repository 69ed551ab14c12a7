import CrashCapture.FileTree.Operations

namespace CrashCapture.Script

inductive Word
  | text (cs : List Char)
  /-- All arguments of the script, each a word of its own. -/
  | arguments
deriving DecidableEq, Repr

inductive Token
  | word (w : Word)
  | append
  | overwrite
  | andThen
  | orElse
  | separator
deriving DecidableEq, Repr

inductive Quote
  | none
  | single
  | double
  | comment
deriving DecidableEq, Repr

def finished : Option (List Char) → List Token
  | some cs => [.word (.text cs)]
  | none => []

def extend (word : Option (List Char)) (c : Char) : Option (List Char) := some (word.getD [] ++ [c])

/-- Cuts a script into tokens, given the quote that is open and the word that was begun. -/
def lex : Quote → Option (List Char) → List Char → List Token
  | _, word, [] => finished word
  | .comment, _, '\n' :: cs => .separator :: lex .none none cs
  | .comment, _, _ :: cs => lex .comment none cs
  | .single, word, '\'' :: cs => lex .none word cs
  | .single, word, c :: cs => lex .single (extend word c) cs
  | .double, word, '"' :: cs => lex .none word cs
  | .double, word, '$' :: '@' :: cs =>
    finished (word.filter (!·.isEmpty)) ++ .word .arguments :: lex .double none cs
  | .double, word, '\\' :: c :: cs =>
    if ['$', '"', '\\'].contains c then lex .double (extend word c) cs
    else lex .double (extend (extend word '\\') c) cs
  | .double, word, c :: cs => lex .double (extend word c) cs
  | .none, word, '\\' :: c :: cs => lex .none (extend word c) cs
  | .none, word, '\'' :: cs => lex .single (some (word.getD [])) cs
  | .none, word, '"' :: cs => lex .double (some (word.getD [])) cs
  | .none, word, '&' :: '&' :: cs => finished word ++ .andThen :: lex .none none cs
  | .none, word, '|' :: '|' :: cs => finished word ++ .orElse :: lex .none none cs
  | .none, word, '>' :: '>' :: cs => finished word ++ .append :: lex .none none cs
  | .none, word, c :: cs =>
    if c = '>' then finished word ++ .overwrite :: lex .none none cs
    else if c = '\n' || c = ';' then finished word ++ .separator :: lex .none none cs
    else if c = ' ' || c = '\t' then finished word ++ lex .none none cs
    else if c = '#' && word.isNone then lex .comment none cs
    else lex .none (extend word c) cs

/-- When a command is run, by how the one before it ended. -/
inductive Link
  | always
  | onSuccess
  | onFailure
deriving DecidableEq, Repr

/-- Where the output of a command goes; `true` adds to what the file holds. -/
structure Command where
  link : Link
  words : List Word
  output : Option (Bool × Word)
deriving DecidableEq, Repr

def Command.empty (link : Link) : Command := ⟨link, [], none⟩

def commands (c : Command) : List Token → List Command
  | [] => [c]
  | .word w :: ts => commands { c with words := c.words ++ [w] } ts
  | .append :: .word w :: ts => commands { c with output := some (true, w) } ts
  | .overwrite :: .word w :: ts => commands { c with output := some (false, w) } ts
  | .andThen :: ts => c :: commands (.empty .onSuccess) ts
  | .orElse :: ts => c :: commands (.empty .onFailure) ts
  | _ :: ts => c :: commands (.empty .always) ts

def parse (text : String) : List Command :=
  (commands (.empty .always) (lex .none none text.toList)).filter (!·.words.isEmpty)

def expand (arguments : List String) : Word → List String
  | .text cs => [.ofList cs]
  | .arguments => arguments

/-- Fills a format with the next values, and returns those that are left. -/
def fill : List Char → List String → List Char × List String
  | [], values => ([], values)
  | '\\' :: 'n' :: cs, values => let (out, left) := fill cs values; ('\n' :: out, left)
  | '%' :: 's' :: cs, [] => fill cs []
  | '%' :: 's' :: cs, v :: values => let (out, left) := fill cs values; (v.toList ++ out, left)
  | c :: cs, values => let (out, left) := fill cs values; (c :: out, left)

/-- Fills a format again until all values are used, `rounds` times at most. -/
def fillAll (format : List Char) : Nat → List String → List Char
  | 0, _ => []
  | rounds + 1, values =>
    let (out, left) := fill format values
    if left.isEmpty then out else out ++ fillAll format rounds left

/-- How a command ended: with a status and some output, by ending the script, or not for a long time. -/
inductive Outcome
  | status (code : Nat) (output : String)
  | exits
  | sleeps
deriving DecidableEq, Repr

def success (output : String) : Outcome := .status 0 output

def failure : Outcome := .status 1 ""

def test (holds : Bool) : Outcome := if holds then success "" else failure

def attempt (op : Disk Unit) : Disk Outcome := do
  try
    op
    return success ""
  catch _ => return failure

def execute (words : List String) : Disk Outcome := do
  let files ← get
  match words with
  | "exit" :: _ => return .exits
  | "sleep" :: _ => return .sleeps
  | "echo" :: ws => return success (" ".intercalate ws ++ "\n")
  | "printf" :: format :: values =>
    return success (.ofList (fillAll format.toList (values.length + 1) values))
  | ["[", "-e", p, "]"] => return test (files.find p).isOk
  | ["[", "-f", p, "]"] => return test (files.isFile p)
  | ["[", "-d", p, "]"] => return test (files.isDirectory p)
  | ["mv", source, target] => attempt (Disk.rename source target)
  | ["touch", p] => attempt (Disk.touch p)
  | "true" :: _ => return success ""
  | ":" :: _ => return success ""
  | "false" :: _ => return failure
  | _ => return .status 127 ""

def openOutput (appends : Bool) (p : Path) : Disk Location :=
  if appends then Disk.openAppending p else Disk.openTruncated p

/-- Runs a command with its output in a file, which is opened before. -/
def executeInto (appends : Bool) (p : Path) (words : List String) : Disk Outcome := do
  try
    let loc ← openOutput appends p
    let outcome ← execute words
    match outcome with
    | .status _ text => Disk.write loc (Bytes.ofString text)
    | _ => pure ()
    return outcome
  catch _ => return .status 2 ""

def Command.run (arguments : List String) (c : Command) : Disk Outcome :=
  let words := c.words.flatMap (expand arguments)
  match c.output with
  | none => execute words
  | some (appends, w) =>
    match expand arguments w with
    | [p] => executeInto appends p words
    | _ => pure failure

def due (link : Link) (status : Nat) : Bool :=
  match link with
  | .always => true
  | .onSuccess => status = 0
  | .onFailure => status ≠ 0

/-- Runs commands in order, and tells whether the script is still busy then. -/
def runAll (arguments : List String) : Nat → List Command → Disk Bool
  | _, [] => return false
  | status, c :: rest => do
    if due c.link status then
      match ← c.run arguments with
      | .status code _ => runAll arguments code rest
      | .exits => return false
      | .sleeps => return true
    else runAll arguments status rest

/-- Runs a shell script, as far as handlers are written in them: simple commands one after the
other, joined by `&&` and `||`, with quotes, the arguments of the script, and output into files.
Tells whether it is still busy then. -/
def run (text : String) (arguments : List String) : Disk Bool := runAll arguments 0 (parse text)

end CrashCapture.Script
