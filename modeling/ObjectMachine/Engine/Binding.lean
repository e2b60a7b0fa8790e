import ObjectMachine.Engine.Reentry
/-!
Binding and matching. Binding fixes the first free argument of a function; matching puts arguments
in their places or says why they do not fit. Neither runs any code.
-/
namespace ObjectMachine

namespace Function

/-- The parameters that no bound argument fills. -/
def visibleParams (f : Function) : List Param := f.signature.visible f.bound.length

/-- Binds one more argument; a function without free parameters cannot be bound. -/
def bind (f : Function) (this : Ref) : Except Cause Function :=
  if f.visibleParams.isEmpty then .error (.unbindable f.name)
  else .ok { f with bound := f.bound ++ [this] }

end Function

namespace Heap

/-- The first member of that name in the Types of a chain. -/
def memberIn? (h : Heap) (chain : List Ref) (name : String) : Option Ref :=
  chain.findSome? fun type => h.ownMember? type name

/-- The error that a mismatch of arguments raises. -/
def mismatchError (h : Heap) (function : String) : Mismatch → Raised
  | .tooMany expected actual => .ofCause (.tooManyArguments function expected actual)
  | .missing param => .ofCause (.missingArgument function param)
  | .wrongType param expected value =>
    { Raised.ofCause
        (.argumentType function param (h.nameOfType expected) (h.typeName value)) with
      payload := [("argument", value), ("expected", expected)] }

/-- Puts arguments of a value in their places, those bound before in front. A value that is no
function has no places. -/
def prepare (h : Heap) (callee : Ref) (args : List Ref) : Except Raised (Option Prepared) :=
  match h.payload? callee with
  | some (.function f) =>
    match f.signature.matchArgs h.isInstance (f.bound ++ args) f.bound.length with
    | .ok matched => .ok (some ⟨f, matched⟩)
    | .error m => .error (h.mismatchError f.name m)
  | _ => .ok none

/-- Whether an error is one of a built-in kind. -/
def errorIs (h : Heap) (e : ErrorBody) (kind : ErrorKind) : Bool :=
  match e.type with
  | .builtin own => own.isSubkindOf kind
  | .custom type => h.isSubtype type kind.ref

end Heap

namespace Engine

/-- Binds a function to its first argument; any other value stays as it is. -/
def bindValue (value this : Ref) : Engine Ref := do
  match ← payload value with
  | .function f =>
    match f.bind this with
    | .ok bound => new (.function bound)
    | .error cause => raise cause
  | _ => return value

/-- Binds a value if there is one. -/
def bindFound (found : Option Ref) (this : Ref) : Engine (Option Ref) := do
  match found with
  | some value => return some (← bindValue value this)
  | none => return none

/-- Puts arguments of a value in their places. -/
def prepare (callee : Ref) (args : List Ref) : Engine (Option Prepared) := do
  let _ ← load callee
  match ← ask fun h => h.prepare callee args with
  | .ok prepared => return prepared
  | .error e => throw (.raised e)

/-- Whether an error is the end of an iteration. -/
def isStop (e : Raised) : Engine Bool := ask fun h => h.errorIs e.toErrorBody .iteratorStopped

end Engine

end ObjectMachine
