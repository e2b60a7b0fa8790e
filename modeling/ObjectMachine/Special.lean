import ObjectMachine.Text.Word
import ObjectMachine.Signature
/-!
Special methods: members with a fixed number of arguments, the receiver among them, through which
operators, conversions and hooks are looked up. Some of them have a meaning for every value.
-/
namespace ObjectMachine.Special

/-- How many arguments a special method takes. -/
inductive Arity where
  /-- Exactly so many. -/
  | exactly (count : Nat)
  /-- As many as its parameters allow. -/
  | variadic
deriving DecidableEq

/-- What an operator means for operands that do not define it. -/
inductive Fallback where
  /-- Operands are equal when they are the same object. -/
  | identity
  /-- Operands are unequal when they are not equal. -/
  | unequal
  /-- Every operand is true. -/
  | truth
  /-- The text names the Type of the operand. -/
  | typeText
deriving DecidableEq

/-- Special methods of the receiver alone. -/
def unary : List String := ["op_neg", "op_bool", "op_str", "op_len", "op_iter"]

/-- Special methods of the receiver and one more argument. -/
def binary : List String :=
  ["op_add", "op_sub", "op_mul", "op_div", "op_mod", "op_pow", "op_eq", "op_ne", "op_lt", "op_le",
    "op_gt", "op_ge", "op_contains", "op_get_item", "op_del_item", "hook_get", "hook_del"]

/-- Special methods of the receiver and two more arguments. -/
def ternary : List String := ["op_set_item", "hook_set"]

/-- Special methods that take what their parameters allow. -/
def variadics : List String := ["op_call", "init", "create"]

/-- Whether a name is the stem followed by a word. -/
def isHookFor (stem name : String) : Bool :=
  let cs := name.toList
  let word := cs.drop stem.length
  stem.toList.isPrefixOf cs && !word.isEmpty && word.all Text.isWordChar

/-- The number of arguments of the special method of that name. -/
def arity? (name : String) : Option Arity :=
  if name ∈ unary then some (.exactly 1)
  else if name ∈ binary then some (.exactly 2)
  else if name ∈ ternary then some (.exactly 3)
  else if name ∈ variadics then some .variadic
  else if isHookFor "hook_get_" name then some (.exactly 1)
  else if isHookFor "hook_set_" name then some (.exactly 2)
  else if isHookFor "hook_del_" name then some (.exactly 1)
  else none

/-- Whether only the first operand decides which method runs. -/
def isVariadic (name : String) : Bool := arity? name == some .variadic

/-- What an operator means for operands that do not define it. -/
def fallback? : String → Option Fallback
  | "op_eq" => some .identity
  | "op_ne" => some .unequal
  | "op_bool" => some .truth
  | "op_str" => some .typeText
  | _ => none

/-- The number of arguments that a member of this name must accept, but does not. -/
def refusedArity? (name : String) (signature : Signature) : Option Nat :=
  match arity? name with
  | some (.exactly count) => if signature.accepts count then none else some count
  | _ => none

/-- The number of operands of the operator of this name, if it is not the one given. -/
def wrongOperands? (name : String) (given : Nat) : Option Nat :=
  match arity? name with
  | some (.exactly count) => if count = given then none else some count
  | _ => none

end ObjectMachine.Special
