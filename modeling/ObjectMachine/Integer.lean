/-!
Arithmetic on 64-bit integers that notices when a result does not fit. Each operation is the
operation on the integers followed by one range check.
-/
namespace ObjectMachine.Integer

/-- The least 64-bit integer, `-2 ^ 63`. -/
def least : Int := -9223372036854775808

/-- The greatest 64-bit integer, `2 ^ 63 - 1`. -/
def greatest : Int := 9223372036854775807

/-- The 64-bit integer with the given value; `none` if there is none. -/
def ofInt? (i : Int) : Option Int64 :=
  if least ≤ i ∧ i ≤ greatest then some (Int64.ofInt i) else none

/-- The sum, if it fits. -/
def add? (a b : Int64) : Option Int64 := ofInt? (a.toInt + b.toInt)

/-- The difference, if it fits. -/
def sub? (a b : Int64) : Option Int64 := ofInt? (a.toInt - b.toInt)

/-- The product, if it fits. -/
def mul? (a b : Int64) : Option Int64 := ofInt? (a.toInt * b.toInt)

/-- The opposite, if it fits. -/
def neg? (a : Int64) : Option Int64 := ofInt? (-a.toInt)

/-- The power with a natural exponent below `2 ^ 32`, if it fits. No power of a base beyond
`-1`, `0` and `1` with an exponent above 63 fits, so none is computed. -/
def pow? (base : Int64) (exponent : Nat) : Option Int64 :=
  if UInt32.size ≤ exponent then none
  else if base.toInt.natAbs ≤ 1 then
    ofInt? (Int.pow base.toInt (if exponent = 0 then 0 else 2 - exponent % 2))
  else if 63 < exponent then none
  else ofInt? (Int.pow base.toInt exponent)

/-- The remainder of the division that truncates; `none` if the divisor is zero or the quotient does not fit. -/
def rem? (a b : Int64) : Option Int64 :=
  if b = 0 then none else (ofInt? (a.toInt.tdiv b.toInt)).map fun _ => a % b

/-- Whether a remainder is neither zero nor of the sign of the divisor. -/
def strays (r b : Int64) : Bool := r != 0 && decide (r < 0) != decide (b < 0)

/-- The remainder of the division that rounds down: zero, or of the sign of the divisor. The quotient by `-1` may not
fit, but leaves nothing. -/
def floorMod (a b : Int64) : Int64 :=
  match rem? a b with
  | none => 0
  | some r => if strays r b then r + b else r

/-- The integer as a bit pattern read without sign. -/
def wrap (n : Nat) : Int64 := Int64.ofInt n

end ObjectMachine.Integer
