import CrashCapture.Decimal.Shortest
import CrashCapture.Json.Basic
import CrashCapture.Text.Bytes

namespace CrashCapture

namespace Number

/-- Positional from a hundred-thousandth up to sixteen digits before the point, else with a signed
exponent; an integral number keeps one zero after the point. -/
def layout (d : Decimal.Digits) : String :=
  let ds := toString d.digits
  let n : Int := ds.length
  let point := n + d.exponent
  if 0 ≤ d.exponent ∧ point ≤ 16 then ds ++ "".pushn '0' d.exponent.toNat ++ ".0"
  else if 0 < point ∧ point ≤ 16 then
    .ofList (ds.toList.take point.toNat) ++ "." ++ .ofList (ds.toList.drop point.toNat)
  else if -5 < point ∧ point ≤ 0 then "0." ++ "".pushn '0' (-point).toNat ++ ds
  else
    let tail := ds.toList.drop 1
    .ofList (ds.toList.take 1) ++ (if tail.isEmpty then "" else "." ++ .ofList tail) ++
      (if 0 < point then "e+" else "e") ++ toString (point - 1)

def floatText (bits : UInt64) : String :=
  let sign := if bits.toNat < Nat.pow 2 63 then "" else "-"
  let magnitude := Decimal.Binary.ofBits bits
  if magnitude.mantissa = 0 then sign ++ "0.0" else sign ++ layout (Decimal.shortest magnitude)

def text : Number → String
  | int n => toString n
  | float bits => floatText bits

end Number

namespace Json

/-- Only the quote, the backslash and control characters are escaped. -/
def escapeByte (b : UInt8) : Bytes :=
  if b = 34 then [92, 34]
  else if b = 92 then [92, 92]
  else if b = 8 then [92, 98]
  else if b = 12 then [92, 102]
  else if b = 10 then [92, 110]
  else if b = 13 then [92, 114]
  else if b = 9 then [92, 116]
  else if b < 32 then [92, 117, 48, 48, Bytes.hexDigit (b.toNat / 16), Bytes.hexDigit (b.toNat % 16)]
  else [b]

def encodeString (s : String) : Bytes :=
  34 :: (Bytes.ofString s).flatMap escapeByte ++ [34]

mutual

def encode : Json → Bytes
  | .null => Bytes.ofString "null"
  | .bool b => Bytes.ofString (if b then "true" else "false")
  | .num n => Bytes.ofString n.text
  | .str s => encodeString s
  | .arr vs => 91 :: encodeElements vs ++ [93]
  | .obj ms => 123 :: encodeMembers ms ++ [125]

def encodeElements : List Json → Bytes
  | [] => []
  | [v] => encode v
  | v :: w :: vs => encode v ++ 44 :: encodeElements (w :: vs)

def encodeMembers : List (String × Json) → Bytes
  | [] => []
  | [(k, v)] => encodeString k ++ 58 :: encode v
  | (k, v) :: m :: ms => encodeString k ++ 58 :: encode v ++ 44 :: encodeMembers (m :: ms)

end

def newline (level : Nat) : Bytes := 10 :: List.replicate (2 * level) 32

mutual

/-- One element or member a line; what is empty stays on its line. -/
def encodePretty (level : Nat) : Json → Bytes
  | .arr [] => [91, 93]
  | .arr (v :: vs) => 91 :: prettyElements (level + 1) (v :: vs) ++ newline level ++ [93]
  | .obj [] => [123, 125]
  | .obj (m :: ms) => 123 :: prettyMembers (level + 1) (m :: ms) ++ newline level ++ [125]
  | v => encode v

def prettyElements (level : Nat) : List Json → Bytes
  | [] => []
  | [v] => newline level ++ encodePretty level v
  | v :: w :: vs => newline level ++ encodePretty level v ++ 44 :: prettyElements level (w :: vs)

def prettyMembers (level : Nat) : List (String × Json) → Bytes
  | [] => []
  | [(k, v)] => newline level ++ encodeString k ++ 58 :: 32 :: encodePretty level v
  | (k, v) :: m :: ms =>
    newline level ++ encodeString k ++ 58 :: 32 :: encodePretty level v ++
      44 :: prettyMembers level (m :: ms)

end

end Json

end CrashCapture
