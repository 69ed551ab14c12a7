import CrashCapture.Emergency.Allocator

namespace CrashCapture

inductive HeapCall
  | alloc (layout : Layout)
  | allocZeroed (layout : Layout)
  | realloc (layout : Layout) (newSize : Nat)
  | dealloc (layout : Layout)
deriving DecidableEq, Repr

/-- The allocator of the system: every block is at an address of its own, and what it was asked for
is on record. Large blocks are mappings, so they are subject to the quota. -/
structure SystemHeap where
  next : Nat
  calls : List HeapCall
  quota : Quota
deriving DecidableEq, Repr

namespace SystemHeap

def initial : SystemHeap := ⟨0x550000000000, [], .unlimited⟩

def mappingThreshold : Nat := 128 * 1024

def tooMuch : Nat := Nat.pow 2 35

/-- Blocks are aligned for words anyway. -/
def wordAlign : Nat := 16

/-- What has to be free so that a block can be cut out of it at an aligned address. -/
def room (l : Layout) : Nat := if l.align ≤ wordAlign && l.align ≤ l.size then l.size else l.size + l.align

def grants (h : SystemHeap) (l : Layout) : Bool :=
  room l < tooMuch && (room l < mappingThreshold || (h.quota.reserves (room l) && h.quota.commits))

def note (call : HeapCall) (h : Heap SystemHeap) : Heap SystemHeap :=
  { h with inner := { h.inner with calls := h.inner.calls ++ [call] } }

def take (l : Layout) (h : Heap SystemHeap) : Option Nat × Heap SystemHeap :=
  if h.inner.grants l then
    let base := (h.inner.next + l.align - 1) / l.align * l.align
    (some base, { h with inner := { h.inner with next := base + l.size + 64 } })
  else (none, h)

instance : InnerAllocator SystemHeap where
  alloc l h := take l (note (.alloc l) h)
  allocZeroed l h := take l (note (.allocZeroed l) h)
  realloc address l newSize h :=
    match take ⟨newSize, l.align⟩ (note (.realloc l newSize) h) with
    | (none, h) => (none, h)
    | (some target, h) =>
      let bytes := Allocator.copyBytes address target (min l.size newSize) h.bytes
      (some target, { h with bytes })
  dealloc _ l h := note (.dealloc l) h

end SystemHeap

end CrashCapture
