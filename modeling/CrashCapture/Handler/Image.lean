import CrashCapture.Path
import CrashCapture.Text.Bytes

namespace CrashCapture.Program

def magic : Bytes := [127, 69, 76, 70]

/-- A number of so many bytes, the lowest one first; what is beyond the end counts as zero. -/
def numberAt (position width : Nat) (content : Bytes) : Nat :=
  ((content.drop position).take width).foldr (fun b high => b.toNat + 256 * high) 0

def segmentSize : Nat := 56
def maxSegments : Nat := 65536

/-- Whether a header announces code for this machine, with segments that are all described. -/
def isMachineCode (content : Bytes) : Bool :=
  let segments := segmentSize * numberAt 56 2 content
  content.take 4 = magic && [2, 3].contains (numberAt 16 2 content) &&
    numberAt 18 2 content = 62 && numberAt 54 2 content = segmentSize &&
    0 < segments && segments ≤ maxSegments && numberAt 32 8 content + segments ≤ content.length

def header : Bytes :=
  magic ++ [2, 1, 1] ++ List.replicate 9 0 ++ [3, 0, 62, 0, 1, 0, 0, 0] ++ List.replicate 8 0 ++
    [64, 0, 0, 0, 0, 0, 0, 0] ++ List.replicate 12 0 ++ [64, 0, 56, 0, 1, 0] ++ List.replicate 6 0 ++
    List.replicate segmentSize 0

/-- Machine code for which its name stands. -/
def image (name : String) : Bytes := header ++ Bytes.ofString name

def isBlank (b : UInt8) : Bool := b = 32 || b = 9

def lookAhead : Nat := 256

def trimmed (line : Bytes) : Bytes := (line.reverse.dropWhile isBlank).reverse

/-- The line behind the mark of a script, given what can be seen of it. It ends at a newline or at a
zero byte, which also follows the end of a file. A line that goes on will do if the first word in it is
complete. -/
def firstLine (seen : Bytes) : Option Bytes :=
  let text := seen.takeWhile (· ≠ 0)
  let room := lookAhead - 3
  if text.contains 10 then some (trimmed (text.takeWhile (· ≠ 10)))
  else if text.length < room then some text
  else if text.length = room || (text.dropWhile isBlank).any isBlank then
    some (trimmed (text.take room))
  else none

/-- What kind of program a file holds: machine code, or text for an interpreter that its first line
names. -/
inductive Format
  | machine (name : Bytes)
  | interpreted (interpreter : Path) (argument : Option String)
  | unknown
deriving DecidableEq, Repr

/-- The first word of a line names the interpreter; what follows is one argument. -/
def interpreted (line : Bytes) : Format :=
  let line := line.dropWhile isBlank
  let word := line.takeWhile fun b => !isBlank b
  let after := line.drop word.length
  let argument := if after.isEmpty then none else some (after.dropWhile isBlank)
  match word, Bytes.text? word with
  | _ :: _, some interpreter => .interpreted interpreter (argument.map fun bs => (Bytes.text? bs).getD "")
  | _, _ => .unknown

def format (content : Bytes) : Format :=
  if isMachineCode content then .machine (content.drop header.length)
  else
    match content.take lookAhead with
    | 35 :: 33 :: seen => ((firstLine seen).map interpreted).getD .unknown
    | _ => .unknown

end CrashCapture.Program
