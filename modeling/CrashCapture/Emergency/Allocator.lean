import CrashCapture.Emergency.Pool

namespace CrashCapture

structure Heap (ι : Type) where
  inner : ι
  bytes : Nat → UInt8

/-- An allocator that can be wrapped. A request is answered by an address or by nothing. -/
class InnerAllocator (ι : Type) where
  alloc : Layout → Heap ι → Option Nat × Heap ι
  allocZeroed : Layout → Heap ι → Option Nat × Heap ι
  realloc : Nat → Layout → Nat → Heap ι → Option Nat × Heap ι
  dealloc : Nat → Layout → Heap ι → Heap ι

/-- An allocator around another one. Once the emergency mode is on, all requests are served from the
pool, and the other allocator is not called any more. -/
structure Allocator (ι : Type) where
  emergency : Emergency
  memory : Memory
  heap : Heap ι

namespace Allocator

variable {ι : Type} [InnerAllocator ι]

def ofAnswer : Option Nat → Grant
  | some address => .block address
  | none => .refused

def reserve (a : Allocator ι) : Allocator ι :=
  let (emergency, memory) := a.emergency.reserve a.memory
  { a with emergency, memory }

def enable (a : Allocator ι) : Allocator ι :=
  let (emergency, memory) := a.emergency.enable a.memory
  { a with emergency, memory }

def fromPool (l : Layout) (a : Allocator ι) : Grant × Allocator ι :=
  let (grant, pool, memory) := a.emergency.pool.alloc a.memory l
  (grant, { a with memory, emergency := { a.emergency with pool } })

def alloc (l : Layout) (a : Allocator ι) : Grant × Allocator ι :=
  if a.emergency.enabled then a.fromPool l
  else
    let (address, heap) := InnerAllocator.alloc l a.heap
    (ofAnswer address, { a with heap })

/-- Memory of the pool is zero when it is mapped, and handed out only once. -/
def allocZeroed (l : Layout) (a : Allocator ι) : Grant × Allocator ι :=
  if a.emergency.enabled then a.fromPool l
  else
    let (address, heap) := InnerAllocator.allocZeroed l a.heap
    (ofAnswer address, { a with heap })

/-- Blocks of the pool do not return to it, and after a fault no block returns anywhere. -/
def dealloc (address : Nat) (l : Layout) (a : Allocator ι) : Allocator ι :=
  if a.emergency.pool.contains address || a.emergency.enabled then a
  else { a with heap := InnerAllocator.dealloc address l a.heap }

def copyBytes (source target count : Nat) (bytes : Nat → UInt8) : Nat → UInt8 := fun i =>
  if target ≤ i && i < target + count then bytes (source + (i - target)) else bytes i

/-- A new block with what fits of the old one, which stays as it is. -/
def realloc (address : Nat) (l : Layout) (newSize : Nat) (a : Allocator ι) :
    Grant × Allocator ι :=
  if !a.emergency.pool.contains address && !a.emergency.enabled then
    let (address, heap) := InnerAllocator.realloc address l newSize a.heap
    (ofAnswer address, { a with heap })
  else
    match a.fromPool ⟨newSize, l.align⟩ with
    | (.block target, a) =>
      let bytes := copyBytes address target (min l.size newSize) a.heap.bytes
      (.block target, { a with heap := { a.heap with bytes } })
    | r => r

def write (address : Nat) (data : Nat → UInt8) (count : Nat) (a : Allocator ι) : Allocator ι :=
  { a with heap := { a.heap with bytes := fun i =>
      if address ≤ i && i < address + count then data (i - address) else a.heap.bytes i } }

end Allocator

end CrashCapture
