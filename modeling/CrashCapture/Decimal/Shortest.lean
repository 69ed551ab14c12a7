namespace CrashCapture.Decimal

structure Ratio where
  num : Nat
  den : Nat

namespace Ratio

def scale (n base : Nat) (e : Int) : Ratio :=
  if 0 ≤ e then ⟨n * Nat.pow base e.toNat, 1⟩ else ⟨n, Nat.pow base (-e).toNat⟩

def le (a b : Ratio) : Bool := a.num * b.den ≤ b.num * a.den

def lt (a b : Ratio) : Bool := a.num * b.den < b.num * a.den

def dist (a b : Ratio) : Ratio :=
  let x := a.num * b.den
  let y := b.num * a.den
  ⟨(x - y) + (y - x), a.den * b.den⟩

/-- The largest natural number that is not above `r / 10 ^ e`. -/
def floorScaled (r : Ratio) (e : Int) : Nat :=
  if 0 ≤ e then r.num / (r.den * Nat.pow 10 e.toNat) else r.num * Nat.pow 10 (-e).toNat / r.den

end Ratio

structure Binary where
  mantissa : Nat
  exponent : Int

namespace Binary

/-- The number whose sign bit is dropped from `bits`. -/
def ofBits (bits : UInt64) : Binary :=
  let e : Nat := (bits.toNat / Nat.pow 2 52) % Nat.pow 2 11
  let m := bits.toNat % Nat.pow 2 52
  if e = 0 then ⟨m, -1074⟩ else ⟨m + Nat.pow 2 52, (e : Int) - 1075⟩

def value (b : Binary) : Ratio := .scale b.mantissa 2 b.exponent

/-- Half way to the next number below, which is nearer when the mantissa is the smallest normal one. -/
def lower (b : Binary) : Ratio :=
  if b.mantissa = Nat.pow 2 52 ∧ -1074 < b.exponent then .scale (4 * b.mantissa - 1) 2 (b.exponent - 2)
  else .scale (2 * b.mantissa - 1) 2 (b.exponent - 1)

def upper (b : Binary) : Ratio := .scale (2 * b.mantissa + 1) 2 (b.exponent - 1)

/-- Whether a decimal rounds to the number: the ends of the interval do if the mantissa is even. -/
def reads (b : Binary) (d : Ratio) : Bool :=
  if b.mantissa % 2 = 0 then b.lower.le d && d.le b.upper else b.lower.lt d && d.lt b.upper

end Binary

structure Digits where
  digits : Nat
  exponent : Int
deriving Repr

/-- The better of the two neighbours of a number on the grid of multiples of `10 ^ e`, if one reads
back; of two the nearer, and the even one of a tie. -/
def onGrid (b : Binary) (e : Int) : Option Digits :=
  let below := b.value.floorScaled e
  let above := below + 1
  let value (n : Nat) : Ratio := .scale n 10 e
  match b.reads (value below) && below != 0, b.reads (value above) with
  | false, false => none
  | true, false => some ⟨below, e⟩
  | false, true => some ⟨above, e⟩
  | true, true =>
    let down := b.value.dist (value below)
    let up := b.value.dist (value above)
    if down.lt up || (!up.lt down && below % 2 = 0) then some ⟨below, e⟩ else some ⟨above, e⟩

/-- Tries the grids from `10 ^ e` down, each ten times finer. -/
def search (b : Binary) : Nat → Int → Digits
  | 0, e => ⟨b.value.floorScaled e, e⟩
  | fuel + 1, e => (onGrid b e).getD (search b fuel (e - 1))

def trim : Nat → Digits → Digits
  | 0, d => d
  | fuel + 1, d => if d.digits ≠ 0 ∧ d.digits % 10 = 0 then trim fuel ⟨d.digits / 10, d.exponent + 1⟩ else d

/-- Starts above the number: it is below `2 ^ n` for `n` bits, hence below `10 ^ (n * 31 / 100 + 1)`. -/
def shortest (b : Binary) : Digits :=
  let bits : Int := (b.mantissa.log2 : Int) + 1 + b.exponent
  let top : Int := Int.fdiv (bits * 30103) 100000 + 1
  trim 32 (search b 22 top)

end CrashCapture.Decimal
