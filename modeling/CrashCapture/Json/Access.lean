import CrashCapture.Json.Basic

namespace CrashCapture.Json

def string? : Json → Option String
  | .str s => some s
  | _ => none

def int? : Json → Option Int
  | .num (.int n) => some n
  | _ => none

def elements : Json → List Json
  | .arr vs => vs
  | _ => []

def isNull : Json → Bool
  | .null => true
  | _ => false

def field (key : String) (v : Json) : Json := (v.get? key).getD .null

def put (v : Json) (key : String) (value : Json) : Json :=
  match v with
  | .obj ms => .obj (Members.insert key value ms)
  | v => v

def has (key : String) (v : Json) : Bool := !(v.field key).isNull

def stringAt? (key : String) (v : Json) : Option String := (v.field key).string?

def stringAt (key : String) (v : Json) : String := (v.stringAt? key).getD ""

def intAt? (key : String) (v : Json) : Option Int := (v.field key).int?

def intAt (key : String) (v : Json) : Int := (v.intAt? key).getD 0

def natAt? (key : String) (v : Json) : Option Nat := (v.intAt? key).map (·.toNat)

def natAt (key : String) (v : Json) : Nat := (v.natAt? key).getD 0

def boolAt (key : String) (v : Json) : Bool :=
  match v.field key with
  | .bool b => b
  | _ => false

def listAt (key : String) (v : Json) : List Json := (v.field key).elements

def stringsAt (key : String) (v : Json) : List String := (v.listAt key).filterMap string?

def ofOption {α : Type} (f : α → Json) : Option α → Json
  | some a => f a
  | none => .null

def ofStrings (ss : List String) : Json := .arr (ss.map .str)

mutual

/-- Changes every string of a value, but not the names of members. -/
def mapStrings (f : String → String) : Json → Json
  | .str s => .str (f s)
  | .arr vs => .arr (mapElements f vs)
  | .obj ms => .obj (mapMembers f ms)
  | v => v

def mapElements (f : String → String) : List Json → List Json
  | [] => []
  | v :: vs => mapStrings f v :: mapElements f vs

def mapMembers (f : String → String) : List (String × Json) → List (String × Json)
  | [] => []
  | (k, v) :: ms => (k, mapStrings f v) :: mapMembers f ms

end

end CrashCapture.Json
