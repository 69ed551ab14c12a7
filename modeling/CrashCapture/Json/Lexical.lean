import CrashCapture.Error
import CrashCapture.Json.Basic
import CrashCapture.Text.Bytes

namespace CrashCapture.Json

/-- What comes of reading text. Text that ends too early is told apart from text that is wrong. -/
abbrev Decode := Except DecodeError

def isBlank (b : UInt8) : Bool := b = 32 || b = 10 || b = 9 || b = 13

def skipBlanks (text : Bytes) : Bytes := text.dropWhile isBlank

def word : Bytes → Bytes → Decode Bytes
  | [], text => .ok text
  | _ :: _, [] => .error .truncated
  | w :: ws, b :: text => if b = w then word ws text else .error .malformed

def punctuation (b : UInt8) (text : Bytes) : Decode Bytes :=
  match skipBlanks text with
  | [] => .error .truncated
  | c :: rest => if c = b then .ok rest else .error .malformed

structure Numeral where
  negative : Bool
  whole : Bytes
  fraction : Option Bytes
  exponent : Option (Bool × Bytes)

/-- At least one digit. `early` is the error when the text ends instead. -/
def digits (early : DecodeError) (text : Bytes) : Decode (Bytes × Bytes) :=
  match text with
  | [] => .error early
  | b :: _ =>
    if Bytes.isDigit b then .ok (text.takeWhile Bytes.isDigit, text.dropWhile Bytes.isDigit)
    else .error .malformed

/-- A zero stands alone. -/
def wholePart (early : DecodeError) (text : Bytes) : Decode (Bytes × Bytes) := do
  let (ds, rest) ← digits early text
  if ds.head? = some 48 && ds.length ≠ 1 then .error .malformed else return (ds, rest)

def fractionPart (early : DecodeError) : Bytes → Decode (Option Bytes × Bytes)
  | 46 :: text => do
    let (ds, rest) ← digits early text
    return (some ds, rest)
  | text => return (none, text)

def exponentDigits (early : DecodeError) (negative : Bool) (text : Bytes) :
    Decode ((Option (Bool × Bytes)) × Bytes) := do
  let (ds, rest) ← digits early text
  return (some (negative, ds), rest)

def exponentPart (early : DecodeError) : Bytes → Decode ((Option (Bool × Bytes)) × Bytes)
  | b :: text =>
    if b = 101 || b = 69 then
      match text with
      | 43 :: text => exponentDigits early false text
      | 45 :: text => exponentDigits early true text
      | text => exponentDigits early false text
    else return (none, b :: text)
  | [] => return (none, [])

def numeral (early : DecodeError) (text : Bytes) : Decode (Numeral × Bytes) := do
  let (negative, text) := match text with
    | 45 :: text => (true, text)
    | text => (false, text)
  let (whole, text) ← wholePart early text
  let (fraction, text) ← fractionPart early text
  let (exponent, text) ← exponentPart early text
  return (⟨negative, whole, fraction, exponent⟩, text)

def decimal (ds : Bytes) : Nat := ds.foldl (fun n d => 10 * n + (d.toNat - 48)) 0

/-- Takes digits into a number of 64 bits while they fit, and returns those that do not. -/
def absorb (n : Nat) : Bytes → Nat × Bytes
  | [] => (n, [])
  | d :: ds =>
    let next := 10 * n + (d.toNat - 48)
    if next < Nat.pow 2 64 then absorb next ds else (n, d :: ds)

def powerOfTen (e : Nat) : Float := Float.ofScientific 1 false e

/-- Divides by a power of ten, by its largest double as often as needed. -/
def divideByPower : Nat → Float → Nat → Float
  | 0, x, _ => x
  | fuel + 1, x, e =>
    if e ≤ 308 then x / powerOfTen e
    else if x == 0 then x
    else divideByPower fuel (x / powerOfTen 308) (e - 308)

/-- A significand of 64 bits, rounded, times a power of ten, rounded again; none if it is infinite. -/
def scaled (significand : Nat) (e : Int) : Option Float :=
  let x := significand.toUInt64.toFloat
  if e < 0 then some (divideByPower 4 x (-e).toNat)
  else if e ≤ 308 then
    let y := x * powerOfTen e.toNat
    if y.isInf then none else some y
  else if significand = 0 then some x
  else none

namespace Numeral

/-- Ten times more for every digit of the whole part that did not fit, ten times less for every
digit of the fraction that did, and the written exponent. -/
def float (n : Numeral) : Option Float :=
  let (significand, dropped) := absorb 0 n.whole
  let fraction := n.fraction.getD []
  let (significand, unused) := absorb significand fraction
  let shift : Int := (dropped.length : Int) + unused.length - fraction.length
  let e := match n.exponent with
    | some (true, ds) => shift - decimal ds
    | some (false, ds) => shift + decimal ds
    | none => shift
  (scaled significand e).map fun x => if n.negative then -x else x

/-- An integer that fits in 64 bits, signed if it has a sign, is exact; all else is a double. -/
def number (n : Numeral) : Decode Number :=
  let value := decimal n.whole
  let exact := n.fraction.isNone && n.exponent.isNone &&
    (if n.negative then value ≠ 0 && value ≤ Nat.pow 2 63 else value < Nat.pow 2 64)
  if exact then .ok (.int (if n.negative then -value else value))
  else
    match n.float with
    | some x => .ok (.float x.toBits)
    | none => .error .malformed

end Numeral

def number (text : Bytes) : Decode (Number × Bytes) := do
  let (n, rest) ← numeral .truncated text
  return (← n.number, rest)

def hex4? (a b c d : UInt8) : Option Nat := do
  let a ← Bytes.hexValue? a
  let b ← Bytes.hexValue? b
  let c ← Bytes.hexValue? c
  let d ← Bytes.hexValue? d
  return ((a * 16 + b) * 16 + c) * 16 + d

def unescape? (b : UInt8) : Option UInt8 :=
  if b = 34 || b = 92 || b = 47 then some b
  else if b = 98 then some 8
  else if b = 102 then some 12
  else if b = 110 then some 10
  else if b = 114 then some 13
  else if b = 116 then some 9
  else none

def utf8 (n : Nat) : Bytes := Bytes.ofString (String.singleton (Char.ofNat n))

def isLeading (n : Nat) : Bool := 0xD800 ≤ n && n ≤ 0xDBFF

def isTrailing (n : Nat) : Bool := 0xDC00 ≤ n && n ≤ 0xDFFF

/-- The rest of a string after its opening quote, as bytes; `acc` is what came before, reversed. -/
def stringBody (acc : Bytes) : Bytes → Decode (Bytes × Bytes)
  | [] => .error .truncated
  | 34 :: rest => .ok (acc.reverse, rest)
  | 92 :: 117 :: a :: b :: c :: d :: rest =>
    match hex4? a b c d with
    | none => .error .malformed
    | some n =>
      if isTrailing n then .error .malformed
      else if isLeading n then
        match rest with
        | 92 :: 117 :: a :: b :: c :: d :: rest =>
          match hex4? a b c d with
          | none => .error .malformed
          | some m =>
            if isTrailing m then
              stringBody ((utf8 ((n - 0xD800) * 1024 + (m - 0xDC00) + 0x10000)).reverse ++ acc) rest
            else .error .malformed
        | 92 :: 117 :: _ => .error .truncated
        | [92] => .error .truncated
        | [] => .error .truncated
        | _ => .error .malformed
      else stringBody ((utf8 n).reverse ++ acc) rest
  | 92 :: 117 :: _ => .error .truncated
  | 92 :: b :: rest =>
    match unescape? b with
    | some c => stringBody (c :: acc) rest
    | none => .error .malformed
  | [92] => .error .truncated
  | b :: rest => if b < 32 then .error .malformed else stringBody (b :: acc) rest

/-- The rest of a string after its opening quote, which must be UTF-8. -/
def stringTail (text : Bytes) : Decode (String × Bytes) := do
  let (bs, rest) ← stringBody [] text
  match bs.text? with
  | some s => return (s, rest)
  | none => .error .malformed

/-- Passes over the rest of a string, whatever its characters are. -/
def skipString : Bytes → Decode Bytes
  | [] => .error .truncated
  | 34 :: rest => .ok rest
  | 92 :: 117 :: a :: b :: c :: d :: rest =>
    if (hex4? a b c d).isSome then skipString rest else .error .malformed
  | 92 :: 117 :: _ => .error .truncated
  | 92 :: b :: rest => if (unescape? b).isSome then skipString rest else .error .malformed
  | [92] => .error .truncated
  | b :: rest => if b < 32 then .error .malformed else skipString rest

end CrashCapture.Json
