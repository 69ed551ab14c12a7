namespace CrashCapture

/-- Integers are exact; every other number is a double, given by its bits. -/
inductive Number
  | int (n : Int)
  | float (bits : UInt64)
deriving DecidableEq, Repr

/-- The members of an object are kept in the order of their names, one of each. -/
inductive Json
  | null
  | bool (b : Bool)
  | num (n : Number)
  | str (s : String)
  | arr (elements : List Json)
  | obj (members : List (String × Json))
deriving Repr, Inhabited

abbrev Members (α : Type) := List (String × α)

namespace Members

variable {α : Type}

def get? (key : String) : Members α → Option α
  | [] => none
  | (k, v) :: rest => if k = key then some v else get? key rest

/-- Adds a member in its place, or replaces the value of the one of that name. -/
def insert (key : String) (value : α) : Members α → Members α
  | [] => [(key, value)]
  | (k, v) :: rest =>
    if k = key then (key, value) :: rest
    else if key < k then (key, value) :: (k, v) :: rest
    else (k, v) :: insert key value rest

/-- Adds a member unless there is one of that name. -/
def insertNew (key : String) (value : α) (ms : Members α) : Members α :=
  match ms.get? key with
  | some _ => ms
  | none => ms.insert key value

def erase (key : String) : Members α → Members α
  | [] => []
  | (k, v) :: rest => if k = key then rest else (k, v) :: erase key rest

def ofList (pairs : List (String × α)) : Members α :=
  pairs.foldl (fun ms (k, v) => ms.insert k v) []

theorem get?_insert_self (key : String) (value : α) (ms : Members α) :
    (ms.insert key value).get? key = some value := by
  induction ms with
  | nil => simp [insert, get?]
  | cons m rest ih => obtain ⟨k, v⟩ := m; simp only [insert]; grind [get?]

theorem get?_insert_of_ne {key other : String} (h : key ≠ other) (value : α) (ms : Members α) :
    (ms.insert key value).get? other = ms.get? other := by
  induction ms with
  | nil => simp [insert, get?, h]
  | cons m rest ih => obtain ⟨k, v⟩ := m; simp only [insert]; grind [get?]

end Members

namespace Json

def ofNat (n : Nat) : Json := .num (.int n)

def ofInt (n : Int) : Json := .num (.int n)

def object (pairs : List (String × Json)) : Json := .obj (Members.ofList pairs)

def members? : Json → Option (Members Json)
  | .obj ms => some ms
  | _ => none

/-- The member of an object, if the value is one that has it. -/
def get? (key : String) (v : Json) : Option Json := v.members?.bind (·.get? key)

end Json

end CrashCapture
