import ObjectMachine.Engine.Binding
import ObjectMachine.Special
/-!
Operators. The Types of the operands are asked in the order of their first occurrence, and the first
whose method fits the operands is the one that runs; choosing runs nothing. If none fits, the
operator may have a meaning for every value. Truth, text and equality are operators with a short cut.
-/
namespace ObjectMachine

/-- The method that an operator runs. -/
inductive Choice where
  /-- A function with the operands in their places. -/
  | invoke (call : Prepared)
  /-- A value that is called with the operands. -/
  | call (method : Ref)

namespace Heap

/-- The method of the first Type that fits the operands, or why each Type was passed over. -/
def choose (h : Heap) (name : String) (args : List Ref) :
    List Ref → Except (List ErrorBody) Choice
  | [] => .error []
  | type :: later =>
    match h.memberIn? (h.mro type) name with
    | none =>
      let cause := Raised.ofCause (.noTypeMember (h.nameOfType type) name)
      (h.choose name args later).mapError (cause.toErrorBody :: ·)
    | some method =>
      match h.prepare method args with
      | .ok (some call) => .ok (.invoke call)
      | .ok none => .ok (.call method)
      | .error e => (h.choose name args later).mapError (e.toErrorBody :: ·)

/-- The Types that are asked for an operator: those of the operands, or only that of the first if
the operator takes any number of them. -/
def operandTypes (h : Heap) (name : String) (args : List Ref) : List Ref :=
  ((if Special.isVariadic name then args.take 1 else args).map h.typeOf).eraseDups

end Heap

namespace Engine

/-- Applies an operator; `fallback` is what it means for operands that do not define it. -/
def dispatch (k : Reentry) (name : String) (args : List Ref)
    (fallback : Option (Engine Ref)) : Engine Ref :=
  keepingObjects args do
    match Special.wrongOperands? name args.length with
    | some expected => raise (.operandCount name expected args.length)
    | none =>
      let types ← ask fun h => h.operandTypes name args
      match ← ask fun h => h.choose name args types with
      | .ok (.invoke call) => holding (objectNodes call.args.toList) (k.invoke call)
      | .ok (.call method) => k.call method args
      | .error causes =>
        match fallback with
        | some x => x
        | none =>
          let names ← ask fun h => types.map h.nameOfType
          throw (.raised { Raised.ofCause (.noImplementation name names) with causes })

/-- The truth of a value. -/
def truthy (k : Reentry) (value : Ref) : Engine Bool := do
  let o ← load value
  match o.type, o.payload with
  | none, .null => return false
  | none, .bool b => return b
  | none, .int i => return i != 0
  | none, .num x => return !x.isZero
  | none, .str s => return !s.isEmpty
  | none, .list items => return !items.isEmpty
  | none, .map entries => return entries.size != 0
  | _, _ =>
    let result ← dispatch k "op_bool" [value] (some (pure .yes))
    match ← payload result with
    | .bool b => return b
    | _ => raise (.boolResult (← ask fun h => h.typeName result))

/-- The text that names the Type of a value. -/
def typeText (value : Ref) : Engine Ref := do
  let name ← ask fun h => h.typeName value
  newStr s!"<{name} object>"

/-- What an operator means for operands that do not define it. -/
def meaning (k : Reentry) (args : List Ref) : Special.Fallback → Engine Ref
  | .identity =>
    match args with
    | a :: b :: _ => return .ofBool (a == b)
    | _ => throw .dangling
  | .unequal => do
    let same :=
      match args with
      | a :: b :: _ => pure (Ref.ofBool (a == b))
      | _ => throw .dangling
    let equal ← dispatch k "op_eq" args (some same)
    return .ofBool (!(← truthy k equal))
  | .truth => return .yes
  | .typeText =>
    match args with
    | a :: _ => typeText a
    | _ => throw .dangling

/-- Applies an operator, with the meaning it has for every value if `anyValue` is set. -/
def callOperator (k : Reentry) (name : String) (args : List Ref) (anyValue : Bool) : Engine Ref :=
  dispatch k name args
    (if anyValue then (Special.fallback? name).map (meaning k args) else none)

/-- The text of a value. -/
def display (k : Reentry) (value : Ref) : Engine String := do
  let o ← load value
  match o.type, o.payload with
  | none, .str s => return s
  | _, _ =>
    let result ← callOperator k "op_str" [value] true
    match ← payload result with
    | .str s => return s
    | _ => raise (.strResult (← ask fun h => h.typeName result))

/-- The text of a value as it stands inside the text of another: a text is quoted. -/
def shown (k : Reentry) (value : Ref) : Engine String := do
  match ← payload value with
  | .str s => return s!"'{s}'"
  | _ => display k value

/-- Whether two values are equal; an object is always equal to itself. -/
def equals (k : Reentry) (a b : Ref) : Engine Bool := do
  if a = b then return true
  else
    let result ← callOperator k "op_eq" [a, b] true
    truthy k result

end Engine

end ObjectMachine
