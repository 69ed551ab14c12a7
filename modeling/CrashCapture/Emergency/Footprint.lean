import CrashCapture.Emergency.Pool
import CrashCapture.Json.Printer

namespace CrashCapture

namespace Layout

def text (s : String) : Layout := ⟨s.utf8ByteSize, 1⟩

/-- The elements of a list, which are next to each other. -/
def elements (count : Nat) : Layout := ⟨32 * count, 8⟩

/-- A node of an object: its members, up to `nodeRoom` of them. -/
def node : Layout := ⟨632, 8⟩

def nodeRoom : Nat := 11

def buffer : Layout := ⟨128, 1⟩

end Layout

namespace Pool

def take (l : Layout) (p : Pool) : Option Pool :=
  match p.mapping with
  | none => none
  | some m =>
    match cut m.base p.offset l with
    | (.block _, offset) => some { p with offset }
    | _ => none

def takeMany (l : Layout) : Nat → Pool → Option Pool
  | 0, p => some p
  | n + 1, p =>
    match p.take l with
    | some p => takeMany l n p
    | none => none

/-- A text in a block of its own; an empty one needs none. -/
def takeText (s : String) (p : Pool) : Option Pool :=
  if s.isEmpty then some p else p.take (.text s)

/-- The sizes that a buffer has until so many bytes fit: it is doubled whenever it is full. -/
def bufferSizes (length : Nat) : List Nat :=
  let sizes := (List.range 58).map fun i => Layout.buffer.size * Nat.pow 2 i
  sizes.filter fun size => size = Layout.buffer.size || size < 2 * length

/-- A buffer into which so many bytes are written. All blocks that it has had stay taken. -/
def takeBuffer (length : Nat) (p : Pool) : Option Pool :=
  (bufferSizes length).foldlM (fun p size => p.take ⟨size, Layout.buffer.align⟩) p

end Pool

namespace Json

mutual

/-- The pool after a value was copied into it, if there is room. What is empty takes up nothing. -/
def copyInto : Json → Pool → Option Pool
  | .str s, p => p.takeText s
  | .arr vs, p =>
    if vs.isEmpty then some p else (p.take (.elements vs.length)).bind (copyElements vs)
  | .obj ms, p =>
    (p.takeMany .node ((ms.length + Layout.nodeRoom - 1) / Layout.nodeRoom)).bind (copyMembers ms)
  | _, p => some p

def copyElements : List Json → Pool → Option Pool
  | [], p => some p
  | v :: vs, p =>
    match copyInto v p with
    | some p => copyElements vs p
    | none => none

def copyMembers : List (String × Json) → Pool → Option Pool
  | [], p => some p
  | (k, v) :: ms, p =>
    match (p.takeText k).bind (copyInto v) with
    | some p => copyMembers ms p
    | none => none

end

end Json

end CrashCapture
