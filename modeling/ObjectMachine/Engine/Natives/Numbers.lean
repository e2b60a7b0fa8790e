import ObjectMachine.Engine.Operators
import ObjectMachine.Integer
import ObjectMachine.Numeral
import ObjectMachine.Decimal
import ObjectMachine.Text.Blank
/-!
Numbers and truth values. Arithmetic on two integers stays exact, or gives a number when the result
does not fit; any other operand makes it floating-point arithmetic.
-/
namespace ObjectMachine

/-- The value of a number. -/
inductive Numeric where
  /-- An integer. -/
  | int (i : Int64)
  /-- Any other number. -/
  | num (x : Binary64)

namespace Numeric

/-- The value as a floating-point number, rounded if it is a large integer. -/
def widen : Numeric → Binary64
  | int i => .ofInt i.toInt
  | num x => x

/-- An exact result, or else a rounded one. -/
def orRounded (exact : Option Int64) (rounded : Binary64) : Numeric :=
  match exact with
  | some i => int i
  | none => num rounded

/-- An operation that is exact on integers where it can be. -/
def arith (exact : Int64 → Int64 → Option Int64) (rounded : Binary64 → Binary64 → Binary64)
    (a b : Numeric) : Numeric :=
  match a, b with
  | int i, int j => orRounded (exact i j) (rounded a.widen b.widen)
  | _, _ => num (rounded a.widen b.widen)

/-- The sum. -/
def add : Numeric → Numeric → Numeric := arith Integer.add? Binary64.add

/-- The difference. -/
def sub : Numeric → Numeric → Numeric := arith Integer.sub? Binary64.sub

/-- The product. -/
def mul : Numeric → Numeric → Numeric := arith Integer.mul? Binary64.mul

/-- The opposite. -/
def neg (a : Numeric) : Numeric :=
  match a with
  | int i => orRounded (Integer.neg? i) a.widen.neg
  | num x => num x.neg

/-- The quotient, always as a floating-point number. -/
def div (a b : Numeric) : Except Cause Numeric :=
  if b.widen.isZero then .error .divisionByZero else .ok (num (a.widen.div b.widen))

/-- The remainder with the sign of the divisor. -/
def floorMod (x y : Binary64) : Binary64 :=
  let r := x.remainder y
  if !r.isZero && r.isBelowZero != y.isBelowZero then r.add y else r

/-- The remainder with the sign of the divisor. -/
def mod (a b : Numeric) : Except Cause Numeric :=
  match a, b with
  | int i, int j => if j = 0 then .error .moduloByZero else .ok (int (Integer.floorMod i j))
  | _, _ =>
    if b.widen.isZero then .error .moduloByZero else .ok (num (floorMod a.widen b.widen))

/-- A power of floating-point numbers. -/
def roundedPow (x y : Binary64) : Except Cause Numeric :=
  if x.isZero && y.isBelowZero then .error .zeroPower else .ok (num (x.pow y))

/-- The power; exact for an integer with a natural exponent where it fits. -/
def pow (a b : Numeric) : Except Cause Numeric :=
  match a, b with
  | int i, int j =>
    if 0 ≤ j.toInt then .ok (orRounded (Integer.pow? i j.toInt.toNat) (a.widen.pow b.widen))
    else roundedPow a.widen b.widen
  | _, _ => roundedPow a.widen b.widen

/-- Whether two numbers are equal. -/
def eq (a b : Numeric) : Bool :=
  match a, b with
  | int i, int j => i == j
  | _, _ => a.widen.eq b.widen

/-- Whether one number is less than another. -/
def lt (a b : Numeric) : Bool :=
  match a, b with
  | int i, int j => i < j
  | _, _ => a.widen.lt b.widen

/-- Whether one number is less than or equal to another. -/
def le (a b : Numeric) : Bool :=
  match a, b with
  | int i, int j => i ≤ j
  | _, _ => a.widen.le b.widen

/-- Whether a number is not zero. -/
def isTrue : Numeric → Bool
  | int i => i != 0
  | num x => !x.isZero

/-- The text of a number. -/
def text : Numeric → String
  | int i => toString i.toInt
  | num x => numText x

/-- The payload of a number. -/
def payload : Numeric → Payload
  | int i => .int i
  | num x => .num x

/-- The number in a payload. -/
def ofPayload? : Payload → Option Numeric
  | .int i => some (int i)
  | .num x => some (num x)
  | _ => none

end Numeric

namespace Engine

/-- The number of an object. -/
def numeric (r : Ref) : Engine Numeric := do
  match Numeric.ofPayload? (← payload r) with
  | some n => return n
  | none => raise (.noNumber (← ask fun h => h.typeName r))

/-- Stores a number. -/
def newNumeric (n : Numeric) : Engine Ref := new n.payload

/-- Stores the result of an operation that may fail. -/
def newResult (result : Except Cause Numeric) : Engine Ref :=
  match result with
  | .ok n => newNumeric n
  | .error cause => raise cause

/-- Applies a function to the numbers of two objects. -/
def onNumbers {α : Type} (a b : Ref) (f : Numeric → Numeric → α) : Engine α := do
  let x ← numeric a
  let y ← numeric b
  return f x y

/-- Stores a payload as an instance of a Type, which is left out if it is the Type of the
payload. -/
def newFor (cls : Ref) (payload : Payload) : Engine Ref :=
  if cls = payload.typeRef then new payload else newOf cls payload

/-- The integer that a value converts to. -/
def toInteger (value : Ref) : Engine Int64 := do
  match ← payload value with
  | .int i => return i
  | .bool b => return if b then 1 else 0
  | .num x => if x.isFinite then return x.saturate else raise (.notFinite (numText x))
  | .str s =>
    match Numeral.int? (Text.trimBlanks s.toList) with
    | some i => return i
    | none => raise (.badLiteral .int s)
  | _ => raise (.noConversion (← ask fun h => h.typeName value) .int)

/-- The number that a value converts to. -/
def toNumber (value : Ref) : Engine Binary64 := do
  match ← payload value with
  | .int i => return .ofInt i.toInt
  | .num x => return x
  | .bool b => return if b then .ofInt 1 else .zero
  | .str s =>
    match Numeral.num? (Text.trimBlanks s.toList) with
    | some x => return x
    | none => raise (.badLiteral .num s)
  | _ => raise (.noConversion (← ask fun h => h.typeName value) .num)

/-- Runs a function on numbers. -/
def runNumber (f : NumberFunction) (args : List Ref) : Engine Ref := do
  match f, args with
  | .neg, [a] => newNumeric (← numeric a).neg
  | .bool, [a] => return .ofBool (← numeric a).isTrue
  | .str, [a] => newStr (← numeric a).text
  | .add, [a, b] => newNumeric (← onNumbers a b Numeric.add)
  | .sub, [a, b] => newNumeric (← onNumbers a b Numeric.sub)
  | .mul, [a, b] => newNumeric (← onNumbers a b Numeric.mul)
  | .div, [a, b] => newResult (← onNumbers a b Numeric.div)
  | .mod, [a, b] => newResult (← onNumbers a b Numeric.mod)
  | .pow, [a, b] => newResult (← onNumbers a b Numeric.pow)
  | .lt, [a, b] => return .ofBool (← onNumbers a b Numeric.lt)
  | .le, [a, b] => return .ofBool (← onNumbers a b Numeric.le)
  | .gt, [a, b] => return .ofBool (← onNumbers a b fun x y => Numeric.lt y x)
  | .ge, [a, b] => return .ofBool (← onNumbers a b fun x y => Numeric.le y x)
  | .eq, [a, b] =>
    match Numeric.ofPayload? (← payload b) with
    | none => return .no
    | some y => return .ofBool ((← numeric a).eq y)
  | .createNum, [cls, value] => newFor cls (.num (← toNumber value))
  | .createInt, [cls, value] => newFor cls (.int (← toInteger value))
  | _, _ => throw .dangling

/-- Runs a function on truth values or on `null`. -/
def runTruth (k : Reentry) (f : TruthFunction) (args : List Ref) : Engine Ref := do
  match f, args with
  | .bool, [a] => return a
  | .str, [a] =>
    match ← payload a with
    | .bool true => newStr "true"
    | _ => newStr "false"
  | .create, [_, value] => return .ofBool (← truthy k value)
  | .nullBool, [_] => return .no
  | .nullStr, [_] => newStr "null"
  | _, _ => throw .dangling

end Engine

end ObjectMachine
