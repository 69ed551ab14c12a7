namespace CrashCapture

/-- The content of a file, which may or may not be UTF-8 text. -/
abbrev Bytes := List UInt8

namespace Bytes

def ofString (s : String) : Bytes := s.toUTF8.toList

def text? (bs : Bytes) : Option String := String.fromUTF8? ⟨bs.toArray⟩

def isDigit (b : UInt8) : Bool := 48 ≤ b && b ≤ 57

def hexValue? (b : UInt8) : Option Nat :=
  if 48 ≤ b && b ≤ 57 then some (b.toNat - 48)
  else if 97 ≤ b && b ≤ 102 then some (b.toNat - 87)
  else if 65 ≤ b && b ≤ 70 then some (b.toNat - 55)
  else none

/-- The bytes that pairs of hexadecimal digits stand for. -/
def ofHex : List Char → Bytes
  | a :: b :: rest =>
    let digit (c : Char) : Nat := (hexValue? c.toNat.toUInt8).getD 0
    (digit a * 16 + digit b).toUInt8 :: ofHex rest
  | _ => []

def hexDigit (n : Nat) : UInt8 := if n < 10 then 48 + n.toUInt8 else 87 + n.toUInt8

/-- The digits of a number, at least one, the highest first. -/
def hexDigits (n : Nat) : Bytes :=
  if n < 16 then [hexDigit n] else hexDigits (n / 16) ++ [hexDigit (n % 16)]
termination_by n
decreasing_by omega

end Bytes

end CrashCapture
