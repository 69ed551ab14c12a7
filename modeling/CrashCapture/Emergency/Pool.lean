import CrashCapture.Memory
import CrashCapture.Word

namespace CrashCapture

structure Layout where
  size : Nat
  align : Nat
deriving DecidableEq, Repr

namespace Layout

def isPowerOfTwo (n : Nat) : Bool := 0 < n && n = Nat.pow 2 n.log2

/-- The size, rounded up to the alignment, fits in a signed word. -/
def valid (l : Layout) : Bool := isPowerOfTwo l.align && l.size + l.align ≤ Nat.pow 2 63

end Layout

/-- What came of asking for a block: its address, nothing, or a sum that is no word. -/
inductive Grant
  | block (address : Nat)
  | refused
  | overflow
deriving DecidableEq, Repr

/-- One mapping from which blocks are cut off one after the other, and to which none returns. -/
structure Pool where
  mapping : Option Mapping
  offset : Nat
deriving DecidableEq, Repr

namespace Pool

def size : Nat := 16 * 1024 * 1024

def empty : Pool := ⟨none, 0⟩

/-- Maps the pool unless that was done before; it can fail. -/
def reserve (p : Pool) (m : Memory) : Pool × Memory :=
  match p.mapping with
  | some _ => (p, m)
  | none =>
    match m.map size with
    | some (mapping, m) => ({ p with mapping := some mapping }, m)
    | none => (p, m)

def contains (p : Pool) (address : Nat) : Bool := (p.mapping.map (·.contains address)).getD false

/-- Cuts a block off a pool at `base`, from the first aligned address that is free on. -/
def cut (base offset : Nat) (l : Layout) : Grant × Nat :=
  match (Word.add? base offset).bind (Word.nextMultiple? · l.align) with
  | none => (.overflow, offset)
  | some address =>
    match Word.add? (address - base) (max l.size 1) with
    | none => (.refused, offset)
    | some stop => if size < stop then (.refused, offset) else (.block address, stop)

/-- A block from the pool, which is mapped now if it was not before. -/
def alloc (p : Pool) (m : Memory) (l : Layout) : Grant × Pool × Memory :=
  let (p, m) := p.reserve m
  match p.mapping with
  | none => (.refused, p, m)
  | some mapping =>
    let (grant, offset) := cut mapping.base p.offset l
    (grant, { p with offset }, m)

end Pool

/-- The emergency mode of a process, which is never left. -/
structure Emergency where
  enabled : Bool
  pool : Pool
deriving DecidableEq, Repr

namespace Emergency

def initial : Emergency := ⟨false, .empty⟩

def reserve (e : Emergency) (m : Memory) : Emergency × Memory :=
  let (pool, m) := e.pool.reserve m
  ({ e with pool }, m)

def enable (e : Emergency) (m : Memory) : Emergency × Memory :=
  let (e, m) := e.reserve m
  ({ e with enabled := true }, m)

end Emergency

end CrashCapture
