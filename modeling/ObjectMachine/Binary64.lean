import ObjectMachine.Integer
/-!
Floating-point numbers as 64 bits. Arithmetic that rounds is left to the processor; what is done
here is exact: taking a number apart, putting one together, the remainder, and the choice of the
bits of a result that is not a number, which tell such results apart.
-/
namespace ObjectMachine

/-- A floating-point number, given by its bits: a sign, eleven bits of exponent and fifty-two of
fraction. -/
structure Binary64 where
  /-- The bits, the sign in the highest place. -/
  bits : UInt64
deriving DecidableEq

namespace Binary64

/-- A power of two. -/
abbrev pow2 (k : Nat) : Nat := Nat.pow 2 k

/-- What the bits of a number mean. -/
inductive Parts where
  /-- The number `mantissa * 2 ^ exponent`, with a sign. -/
  | finite (negative : Bool) (mantissa : Nat) (exponent : Int)
  /-- An infinity. -/
  | infinite (negative : Bool)
  /-- Not a number. -/
  | nan
deriving DecidableEq

/-- Takes a number apart. -/
def parts (x : Binary64) : Parts :=
  let bits : Nat := x.bits.toNat
  let negative : Bool := pow2 63 ≤ bits
  let biased : Nat := bits / pow2 52 % pow2 11
  let fraction : Nat := bits % pow2 52
  if biased = 2047 then
    if fraction = 0 then .infinite negative else .nan
  else if biased = 0 then .finite negative fraction (-1074)
  else .finite negative (fraction + pow2 52) ((biased : Int) - 1075)

/-- Builds the number `mantissa * 2 ^ exponent`, which must be representable. -/
def ofParts (negative : Bool) (mantissa : Nat) (exponent : Int) : Binary64 :=
  let sign : Nat := if negative then pow2 63 else 0
  if mantissa = 0 then ⟨UInt64.ofNat sign⟩
  else
    let target := max (exponent + (mantissa.log2 : Int) - 52) (-1074)
    let aligned :=
      if target ≤ exponent then mantissa * pow2 (exponent - target).toNat
      else mantissa / pow2 (target - exponent).toNat
    let magnitude :=
      if pow2 52 ≤ aligned then (target + 1074).toNat * pow2 52 + aligned else aligned
    ⟨UInt64.ofNat (sign + magnitude)⟩

/-! ### Particular numbers -/

/-- Zero. -/
def zero : Binary64 := ⟨0⟩

instance : Inhabited Binary64 := ⟨zero⟩

/-- The infinity above all numbers. -/
def infinity : Binary64 := ⟨0x7FF0000000000000⟩

/-- What is read where a text says that there is no number. -/
def nan : Binary64 := ⟨0x7FF8000000000000⟩

/-- The result of an operation on numbers that has no value. -/
def invalid : Binary64 := ⟨0xFFF8000000000000⟩

/-! ### Questions -/

/-- Whether the sign is a minus. -/
def isNegative (x : Binary64) : Bool := pow2 63 ≤ x.bits.toNat

/-- Whether the bits stand for no number. -/
def isNaN (x : Binary64) : Bool := x.parts == .nan

/-- Whether the bits stand for no number in the form that operations do not hand on unchanged. -/
def isSignaling (x : Binary64) : Bool := x.isNaN && x.bits.toNat % pow2 52 < pow2 51

/-- Whether the number is neither infinite nor missing. -/
def isFinite (x : Binary64) : Bool :=
  match x.parts with
  | .finite .. => true
  | _ => false

namespace Parts

/-- The integer part, cut toward zero; zero where there is none. -/
def truncate : Parts → Int
  | finite negative m e =>
    let magnitude : Nat := if 0 ≤ e then m * pow2 e.toNat else m / pow2 (-e).toNat
    if negative then -(magnitude : Int) else magnitude
  | _ => 0

/-- Whether the number is an integer. -/
def isIntegral : Parts → Bool
  | finite _ m e => 0 ≤ e || m % pow2 (-e).toNat == 0
  | _ => false

/-- The 64-bit integer nearest to the number cut toward zero; zero if it is not a number. -/
def saturate : Parts → Int64
  | nan => 0
  | infinite negative => if negative then Int64.minValue else Int64.maxValue
  | finite negative m e =>
    let i := (finite negative m e).truncate
    if i < Integer.least then Int64.minValue
    else if Integer.greatest < i then Int64.maxValue
    else Int64.ofInt i

end Parts

/-- The integer part, cut toward zero; zero where there is none. -/
def truncate (x : Binary64) : Int := x.parts.truncate

/-- Whether the number is an integer. -/
def isIntegral (x : Binary64) : Bool := x.parts.isIntegral

/-- The 64-bit integer nearest to the number cut toward zero; zero if it is not a number. -/
def saturate (x : Binary64) : Int64 := x.parts.saturate

/-! ### Order -/

/-- The place of a number in the order of all numbers. Without their sign, bits are ordered as the
numbers they stand for, and both zeros have the place zero. -/
def rank (x : Binary64) : Int :=
  if x.isNegative then (pow2 63 : Int) - x.bits.toNat else x.bits.toNat

/-- Whether two operands are numbers whose places are in a relation. -/
def compares (r : Int → Int → Bool) (x y : Binary64) : Bool :=
  !x.isNaN && !y.isNaN && r x.rank y.rank

/-- Whether two numbers are equal; what is not a number equals nothing. -/
def eq : Binary64 → Binary64 → Bool := compares fun a b => a == b

/-- Whether one number is less than another. -/
def lt : Binary64 → Binary64 → Bool := compares fun a b => a < b

/-- Whether one number is less than or equal to another. -/
def le : Binary64 → Binary64 → Bool := compares fun a b => a ≤ b

/-- Whether the number is a zero, of either sign. -/
def isZero (x : Binary64) : Bool := x.rank == 0

/-- Whether the number is less than zero. -/
def isBelowZero (x : Binary64) : Bool := x.lt zero

/-! ### Arithmetic -/

/-- The number with these bits, for the processor. -/
def toFloat (x : Binary64) : Float := Float.ofBits x.bits

/-- The bits of a result of the processor. -/
def ofFloat (x : Float) : Binary64 := ⟨x.toBits⟩

/-- The number nearest to an integer. -/
def ofInt (i : Int) : Binary64 := ofFloat (Float.ofInt i)

/-- The opposite: the sign is turned over, whatever the bits stand for. -/
def neg (x : Binary64) : Binary64 :=
  ⟨UInt64.ofNat (if x.isNegative then x.bits.toNat - pow2 63 else x.bits.toNat + pow2 63)⟩

/-- What an operation makes of an operand that is not a number: the highest bit of the fraction is
set, all others are kept. -/
def quiet (x : Binary64) : Binary64 :=
  if x.isSignaling then ⟨UInt64.ofNat (x.bits.toNat + pow2 51)⟩ else x

/-- The result of an operation on two numbers that rounds. An operand that is not a number is
handed on, the first one if neither is; an operation without a value has its own result. -/
def rounded (f : Float → Float → Float) (x y : Binary64) : Binary64 :=
  if x.isNaN then x.quiet
  else if y.isNaN then y.quiet
  else
    let r := f x.toFloat y.toFloat
    if r.isNaN then invalid else ofFloat r

/-- The sum. -/
def add : Binary64 → Binary64 → Binary64 := rounded (· + ·)

/-- The difference. -/
def sub : Binary64 → Binary64 → Binary64 := rounded (· - ·)

/-- The product. -/
def mul : Binary64 → Binary64 → Binary64 := rounded (· * ·)

/-- The quotient. -/
def div : Binary64 → Binary64 → Binary64 := rounded (· / ·)

/-- Whether the number is an odd integer. -/
def isOdd (x : Binary64) : Bool := x.isIntegral && x.truncate % 2 == 1

/-- The remainder of the division that rounds toward zero, which is always representable and has
the sign of the dividend. -/
def remainder (x y : Binary64) : Binary64 :=
  match x.parts, y.parts with
  | .nan, _ => x.quiet
  | _, .nan => y.quiet
  | .finite negative m e, .finite _ m' e' =>
    if m' = 0 then invalid
    else
      let low := min e e'
      let a := m * pow2 (e - low).toNat
      let b := m' * pow2 (e' - low).toNat
      ofParts negative (a % b) low
  | .finite .., .infinite _ => x
  | .infinite _, _ => invalid

/-- The power. The power zero and the base one give one also where the other operand is not a
number; otherwise such an operand is handed on, a base with a minus sign under an odd exponent as
its opposite. -/
def pow (x y : Binary64) : Binary64 :=
  if y.isNaN then
    if !x.isNaN && x.eq (ofInt 1) && !y.isSignaling then x else rounded (· + ·) x y
  else if x.isNaN then
    if y.isZero then (if x.isSignaling then x.quiet else ofInt 1)
    else if x.isNegative && y.isOdd then x.quiet.neg
    else x.quiet
  else rounded Float.pow x y

end Binary64

end ObjectMachine
