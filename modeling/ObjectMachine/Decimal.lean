import ObjectMachine.Binary64
/-!
Decimal forms of floating-point numbers: the fewest digits that read back as the number, the nearest
number with one place, and the two ways of writing digits. All comparisons are exact, on natural
numbers.
-/
namespace ObjectMachine

/-- The number `digits * 10 ^ exponent`. -/
structure Decimal where
  /-- The digits, as a natural number. -/
  digits : Nat
  /-- The power of ten. -/
  exponent : Int
deriving DecidableEq

namespace Decimal

/-- A power of ten. -/
abbrev pow10 (k : Nat) : Nat := Nat.pow 10 k

/-- The number of decimal digits. -/
def width (n : Nat) : Nat := (Nat.toDigits 10 n).length

/-- The largest `d` with `10 ^ d ≤ num / den`. -/
def floorLog (num den : Nat) : Int :=
  let d : Int := (width num : Int) - width den
  if den * pow10 d.toNat ≤ num * pow10 (-d).toNat then d else d - 1

/-- The reals that round to one number: all between `low / den` and `high / den`, and the ends too
if `closed`. The number itself is `mid / den`. -/
structure Interval where
  /-- Numerator of the lower end. -/
  low : Nat
  /-- Numerator of the number. -/
  mid : Nat
  /-- Numerator of the upper end. -/
  high : Nat
  /-- The common denominator. -/
  den : Nat
  /-- Whether the ends belong to the interval. -/
  closed : Bool

namespace Interval

/-- The reals that round to the positive number `m * 2 ^ e`. The gap below a power of two is half
as wide, and ends belong to the number with the even mantissa. -/
def ofBinary (m : Nat) (e : Int) : Interval :=
  let scale := Binary64.pow2 e.toNat
  let below := if m = Binary64.pow2 52 ∧ -1074 < e then 1 else 2
  { low := (4 * m - below) * scale, mid := 4 * m * scale, high := (4 * m + 2) * scale
    den := 4 * Binary64.pow2 (-e).toNat, closed := m % 2 == 0 }

/-- Whether `c * 10 ^ k` lies in the interval. -/
def contains (r : Interval) (c : Nat) (k : Int) : Bool :=
  let x := c * pow10 k.toNat * r.den
  let low := r.low * pow10 (-k).toNat
  let high := r.high * pow10 (-k).toNat
  if r.closed then low ≤ x && x ≤ high else low < x && x < high

/-- The point of the grid of multiples of `10 ^ k` that lies in the interval and is nearest to the
number, the upper one if two are equally near. -/
def gridPoint? (r : Interval) (k : Int) : Option Nat :=
  let num := r.mid * pow10 (-k).toNat
  let den := r.den * pow10 k.toNat
  let c := num / den
  let upperNearer := den ≤ 2 * (num % den)
  match r.contains c k, r.contains (c + 1) k with
  | true, true => some (if upperNearer then c + 1 else c)
  | true, false => some c
  | false, true => some (c + 1)
  | false, false => none

/-- The first grid with a point in the interval, from coarse to fine. -/
def search (r : Interval) (k : Int) : Nat → Decimal
  | 0 => ⟨r.mid / r.den, 0⟩
  | n + 1 =>
    match r.gridPoint? k with
    | some c => ⟨c, k⟩
    | none => search r (k - 1) n

end Interval

/-- The same number without trailing zeros among its digits; `fuel` bounds their count. -/
def trimZeros (d : Decimal) : Nat → Decimal
  | 0 => d
  | fuel + 1 =>
    if d.digits % 10 = 0 ∧ d.digits ≠ 0 then trimZeros ⟨d.digits / 10, d.exponent + 1⟩ fuel else d

/-- The decimal of fewest digits that rounds to the positive number `m * 2 ^ e`; of those the
nearest. Seventeen digits always suffice. -/
def shortest (m : Nat) (e : Int) : Decimal :=
  let r := Interval.ofBinary m e
  (r.search (floorLog r.mid r.den) 17).trimZeros 17

/-- The digits as text. -/
def digitText (d : Decimal) : String := toString d.digits

/-- The number in positional notation, without a fraction if it is an integer. -/
def positional (d : Decimal) : String :=
  let cs := Nat.toDigits 10 d.digits
  if 0 ≤ d.exponent then String.ofList (cs ++ List.replicate d.exponent.toNat '0')
  else
    let places := (-d.exponent).toNat
    let padded := List.replicate (places + 1 - cs.length) '0' ++ cs
    let cut := padded.length - places
    String.ofList (padded.take cut ++ ['.'] ++ padded.drop cut)

/-- The number with one digit before the point and a power of ten. -/
def scientific (d : Decimal) : String :=
  let cs := Nat.toDigits 10 d.digits
  let power := d.exponent + (cs.length : Int) - 1
  let point := if 1 < cs.length then ['.'] else []
  String.ofList (cs.take 1 ++ point ++ cs.drop 1) ++ "e" ++ toString power

/-- The nearest number with one decimal place, a tie going to the even neighbour, in tenths. -/
def tenths (m : Nat) (e : Int) : Nat :=
  let num := m * Binary64.pow2 e.toNat * 10
  let den := Binary64.pow2 (-e).toNat
  let q := num / den
  let twice := 2 * (num % den)
  if twice < den ∨ (twice = den ∧ q % 2 = 0) then q else q + 1

end Decimal

/-- How programs see a number: an integer below `10 ^ 16` with one zero after the point, anything
else in positional notation with the fewest digits. -/
def numText (x : Binary64) : String :=
  match x.parts with
  | .nan => "nan"
  | .infinite negative => if negative then "-inf" else "inf"
  | .finite negative m e =>
    let sign := if negative then "-" else ""
    if x.isIntegral && x.truncate.natAbs < Decimal.pow10 16 then
      sign ++ toString x.truncate.natAbs ++ ".0"
    else sign ++ (Decimal.shortest m e).positional

/-- How a number stands in the written form of an instruction: fewest digits, a fraction always,
and a power of ten from `10 ^ 16` upwards and below `10 ^ -4`. -/
def numOperandText (x : Binary64) : String :=
  match x.parts with
  | .nan => "NaN"
  | .infinite negative => if negative then "-inf" else "inf"
  | .finite negative m e =>
    let sign := if negative then "-" else ""
    if m = 0 then sign ++ "0.0"
    else
      let d := Decimal.shortest m e
      let power := d.exponent + (Decimal.width d.digits : Int) - 1
      if 16 ≤ power ∨ power < -4 then sign ++ d.scientific
      else if 0 ≤ d.exponent then sign ++ d.positional ++ ".0"
      else sign ++ d.positional

/-- A share in percent with one place, at least five characters wide. -/
def percentText (x : Binary64) : String :=
  match x.parts with
  | .finite false m e =>
    let t := Decimal.tenths m e
    let text := toString (t / 10) ++ "." ++ toString (t % 10)
    String.ofList (List.replicate (5 - text.length) ' ') ++ text
  | _ => "  NaN"

end ObjectMachine
