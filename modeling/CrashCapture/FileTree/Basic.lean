import CrashCapture.Path
import CrashCapture.Text.Bytes

namespace CrashCapture

/-- The names on the way from the root. -/
abbrev Location := List String

/-- What is in a file: the parts that were added to it, newest first, so that it takes no longer to add
to a large file. -/
structure Content where
  parts : List Bytes
deriving DecidableEq, Repr

namespace Content

def empty : Content := ⟨[]⟩

def ofBytes (bytes : Bytes) : Content := ⟨[bytes]⟩

def append (c : Content) (bytes : Bytes) : Content := ⟨bytes :: c.parts⟩

def bytes (c : Content) : Bytes := c.parts.reverse.flatten

@[simp] theorem bytes_empty : empty.bytes = [] := rfl

@[simp] theorem bytes_ofBytes (bs : Bytes) : (ofBytes bs).bytes = bs := by simp [ofBytes, bytes]

@[simp] theorem bytes_append (c : Content) (bs : Bytes) : (c.append bs).bytes = c.bytes ++ bs := by
  simp [append, bytes]

end Content

/-- A device: one that takes everything and holds nothing, and one that never has room. -/
inductive Device
  | null
  | full
deriving DecidableEq, Repr

inductive Node
  | directory
  | file (content : Content) (mode : Nat)
  | link (target : Path)
  | device (d : Device)
deriving DecidableEq, Repr

/-- A file system: what is at each location. The root is always a directory. -/
structure FileTree where
  entries : List (Location × Node)
  workingDirectory : Location

namespace FileTree

def lookup (loc : Location) : List (Location × Node) → Option Node
  | [] => none
  | (l, n) :: rest => if l = loc then some n else lookup loc rest

/-- Replaces what is at a location, or adds it as the last entry. -/
def store (loc : Location) (node : Node) : List (Location × Node) → List (Location × Node)
  | [] => [(loc, node)]
  | (l, n) :: rest => if l = loc then (loc, node) :: rest else (l, n) :: store loc node rest

def node? (t : FileTree) (loc : Location) : Option Node :=
  if loc.isEmpty then some .directory else lookup loc t.entries

def put (t : FileTree) (loc : Location) (node : Node) : FileTree :=
  { t with entries := store loc node t.entries }

def remove (t : FileTree) (loc : Location) : FileTree :=
  { t with entries := t.entries.filter fun (l, _) => !loc.isPrefixOf l }

def relocate (t : FileTree) (source target : Location) : FileTree :=
  { t with entries := t.entries.map fun (l, n) =>
      if source.isPrefixOf l then (target ++ l.drop source.length, n) else (l, n) }

def names (t : FileTree) (loc : Location) : List String :=
  t.entries.filterMap fun (l, _) =>
    if l.dropLast = loc && !l.isEmpty then l.getLast? else none

theorem lookup_store_self (loc : Location) (node : Node) (es : List (Location × Node)) :
    lookup loc (store loc node es) = some node := by
  induction es with
  | nil => simp [store, lookup]
  | cons e es ih => obtain ⟨l, n⟩ := e; by_cases h : l = loc <;> simp [store, lookup, h, ih]

theorem lookup_store_of_ne {loc other : Location} (h : loc ≠ other) (node : Node)
    (es : List (Location × Node)) : lookup other (store loc node es) = lookup other es := by
  induction es with
  | nil => simp [store, lookup, h]
  | cons e es ih =>
    obtain ⟨l, n⟩ := e
    by_cases hl : l = loc
    · subst hl; simp [store, lookup, h]
    · simp only [store, if_neg hl, lookup, ih]

/-- The root is always there, as a directory. -/
theorem ne_root (t : FileTree) {loc : Location} (h : t.node? loc ≠ some .directory) : loc ≠ [] := by
  rintro rfl
  exact h rfl

theorem node?_put_self {loc : Location} (h : loc ≠ []) (t : FileTree) (node : Node) :
    (t.put loc node).node? loc = some node := by
  simp [node?, put, h, lookup_store_self]

theorem node?_put_of_ne {loc other : Location} (h : loc ≠ other) (t : FileTree) (node : Node) :
    (t.put loc node).node? other = t.node? other := by
  simp [node?, put, lookup_store_of_ne h]

end FileTree

end CrashCapture
