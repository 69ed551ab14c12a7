import CrashCapture.Text.Bytes

namespace CrashCapture

/-- An identifier. It is written in lower case, in groups of 8, 4, 4, 4 and 12 digits or without
hyphens, and read in either case, also with a URN prefix or in braces. -/
structure Uuid where
  bits : BitVec 128
deriving DecidableEq, Repr

namespace Uuid

/-- A random identifier: version 4 and the standard variant replace six of the bits. -/
def ofRandom (raw : BitVec 128) : Uuid :=
  let cleared := raw &&& ~~~((0xF : BitVec 128) <<< 76 ||| (0x3 : BitVec 128) <<< 62)
  ⟨cleared ||| (0x4 : BitVec 128) <<< 76 ||| (0x2 : BitVec 128) <<< 62⟩

/-- The lowest `count` hexadecimal digits of a number, the highest of them first. -/
def lowDigits (n : Nat) : Nat → Bytes
  | 0 => []
  | count + 1 => lowDigits (n / 16) count ++ [Bytes.hexDigit (n % 16)]

def digits (u : Uuid) : Bytes := lowDigits u.bits.toNat 32

def ofBytes (bs : Bytes) : String := .ofList (bs.map fun b => Char.ofNat b.toNat)

def simple (u : Uuid) : String := ofBytes u.digits

def groups (ds : Bytes) : List Bytes :=
  [ds.take 8, (ds.drop 8).take 4, (ds.drop 12).take 4, (ds.drop 16).take 4, ds.drop 20]

def hyphenated (u : Uuid) : String := ofBytes (List.intercalate [45] (groups u.digits))

def parseDigits? (ds : Bytes) : Option Uuid := do
  let ns ← ds.mapM Bytes.hexValue?
  return ⟨.ofNat 128 (ns.foldl (fun n d => 16 * n + d) 0)⟩

def parseSimple? (ds : Bytes) : Option Uuid := if ds.length = 32 then parseDigits? ds else none

def parseHyphenated? (bs : Bytes) : Option Uuid :=
  if bs.length = 36 && [8, 13, 18, 23].all (fun i => bs[i]? = some 45) then
    parseDigits? ((bs.take 8) ++ (bs.drop 9).take 4 ++ (bs.drop 14).take 4 ++ (bs.drop 19).take 4 ++
      bs.drop 24)
  else none

def lowerByte (b : UInt8) : UInt8 := if 65 ≤ b && b ≤ 90 then b + 32 else b

def urn : Bytes := Bytes.ofString "urn:uuid:"

/-- The length of the text decides how it has to be written. -/
def parseBytes? (bs : Bytes) : Option Uuid :=
  if bs.length = 32 then parseSimple? bs
  else if bs.length = 36 then parseHyphenated? bs
  else if bs.length = 38 then
    if bs.head? = some 123 && bs.getLast? = some 125 then
      parseHyphenated? ((bs.drop 1).take 36)
    else none
  else if bs.length = 45 then
    if (bs.take 9).map lowerByte = urn then parseHyphenated? (bs.drop 9) else none
  else none

def parse? (s : String) : Option Uuid := parseBytes? (Bytes.ofString s)

end Uuid

end CrashCapture
