import ObjectMachine.Integer
import ObjectMachine.Binary64
/-!
Reading numbers from text. An integer is an optional sign and decimal digits. A number may have a
point, an exponent, or be one of the words for infinity and not-a-number in any case.
-/
namespace ObjectMachine.Numeral

/-- A decimal digit of the basic alphabet. -/
def isDigit (c : Char) : Bool := '0' ≤ c && c ≤ '9'

/-- The number that the digits write. -/
def value (digits : List Char) : Nat :=
  digits.foldl (fun n c => n * 10 + (c.toNat - 48)) 0

/-- A sign, if one stands first: whether it is a minus, and what follows. -/
def takeSign : List Char → Bool × List Char
  | '-' :: rest => (true, rest)
  | '+' :: rest => (false, rest)
  | rest => (false, rest)

/-- The digits without leading zeros. -/
def significant (digits : List Char) : List Char := digits.dropWhile (· = '0')

/-- Reads a 64-bit integer; with more than nineteen digits it is none. -/
def int? (cs : List Char) : Option Int64 :=
  let (negative, digits) := takeSign cs
  if digits.isEmpty || !digits.all isDigit then none
  else if 19 < (significant digits).length then none
  else
    let n := value digits
    Integer.ofInt? (if negative then -(n : Int) else n)

/-- How many digits are looked at. A point half-way between two neighbours of the format has fewer,
so of the digits behind them it only matters whether there is one that is not zero. -/
def precision : Nat := 800

/-- Digits with the same rounding, and what is to be added to the exponent: all digits behind the
first `precision` are cut off, and a digit one stands for them unless they are zeros. -/
def shorten (digits : List Char) : List Char × Int :=
  let tail := digits.drop precision
  if tail.isEmpty then (digits, 0)
  else
    (digits.take precision ++ [if tail.all (· = '0') then '0' else '1'], (tail.length : Int) - 1)

/-- The correctly rounded number of the digits times a power of ten. Beyond the range of exponents
of the format the answer is an infinity or zero, without computing the power. -/
def scaled (digits : List Char) (exponent : Int) : Binary64 :=
  let digits := significant digits
  let order := (digits.length : Int) + exponent
  if digits.isEmpty then .zero
  else if 310 < order then .infinity
  else if order < -330 then .zero
  else
    let (digits, shift) := shorten digits
    let exponent := exponent + shift
    .ofFloat (Float.ofScientific (value digits) (exponent < 0) exponent.natAbs)

/-- From this value on, an exponent takes no more digits. -/
def exponentLimit : Nat := 65536

/-- The value of the digits of an exponent. Digits that follow a value at the limit are passed
over: such an exponent is taken for smaller than it is written. -/
def exponentValue (digits : List Char) : Nat :=
  digits.foldl (fun n c => if n < exponentLimit then n * 10 + (c.toNat - 48) else n) 0

/-- The exponent after the mark `e`: an optional sign and digits, up to the end. -/
def exponent? (cs : List Char) : Option Int :=
  let (negative, digits) := takeSign cs
  if digits.isEmpty || !digits.all isDigit then none
  else some (if negative then -(exponentValue digits : Int) else exponentValue digits)

/-- Reads an unsigned number: digits, an optional fraction, an optional exponent, and at least one
digit before the exponent. -/
def magnitude? (cs : List Char) : Option Binary64 :=
  let whole := cs.takeWhile isDigit
  let rest := cs.dropWhile isDigit
  let (fraction, rest) :=
    match rest with
    | '.' :: rest => (rest.takeWhile isDigit, rest.dropWhile isDigit)
    | rest => ([], rest)
  if whole.isEmpty && fraction.isEmpty then none
  else
    let power? : Option Int :=
      match rest with
      | [] => some 0
      | c :: rest => if c = 'e' ∨ c = 'E' then exponent? rest else none
    power?.map fun power => scaled (whole ++ fraction) (power - fraction.length)

/-- Reads a number. -/
def num? (cs : List Char) : Option Binary64 :=
  let (negative, rest) := takeSign cs
  let word := String.ofList (rest.map Char.toLower)
  let magnitude : Option Binary64 :=
    if word == "inf" || word == "infinity" then some .infinity
    else if word == "nan" then some .nan
    else magnitude? rest
  magnitude.map fun x => if negative then x.neg else x

end ObjectMachine.Numeral
