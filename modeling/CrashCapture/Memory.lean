namespace CrashCapture

structure Mapping where
  base : Nat
  size : Nat
deriving DecidableEq, Repr

namespace Mapping

def contains (m : Mapping) (address : Nat) : Bool := m.base ≤ address && address < m.base + m.size

end Mapping

/-- What the system still grants. -/
inductive Quota
  | unlimited
  | nothing
  /-- Mappings, but none that can be written to. -/
  | reservedOnly
  | upTo (size : Nat)
deriving DecidableEq, Repr

namespace Quota

def reserves : Quota → Nat → Bool
  | unlimited, _ => true
  | nothing, _ => false
  | reservedOnly, _ => true
  | upTo limit, size => size ≤ limit

def commits : Quota → Bool
  | reservedOnly => false
  | nothing => false
  | _ => true

end Quota

/-- The mappings of a process, and how much it may still map. -/
structure Memory where
  mappings : List Mapping
  next : Nat
  quota : Quota
deriving DecidableEq, Repr

namespace Memory

def pageSize : Nat := 4096

/-- Maps memory that can't be used yet. -/
def reserve (size : Nat) (m : Memory) : Option (Mapping × Memory) :=
  if m.quota.reserves size then
    let mapping : Mapping := ⟨m.next, size⟩
    let pages := (size + pageSize - 1) / pageSize * pageSize
    some (mapping, { m with mappings := mapping :: m.mappings, next := m.next + pages + pageSize })
  else none

def map (size : Nat) (m : Memory) : Option (Mapping × Memory) :=
  if m.quota.commits then m.reserve size else none

def unmap (mapping : Mapping) (m : Memory) : Memory :=
  { m with mappings := m.mappings.filter (· ≠ mapping) }

end Memory

end CrashCapture
