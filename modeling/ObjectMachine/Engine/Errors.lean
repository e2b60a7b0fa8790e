import ObjectMachine.Engine.Binding
/-!
Error objects. An error in flight gets an object when a program binds it, and an object that is
thrown becomes an error in flight again; both directions keep Type, message, trace and causes.
-/
namespace ObjectMachine

namespace ErrorBody

/-- The handle of the Type of an error. -/
def typeRef (e : ErrorBody) : Ref :=
  match e.type with
  | .builtin kind => kind.ref
  | .custom type => type

end ErrorBody

namespace Engine

/-- Stores the object of an error that has none yet, without the members that name its causes. -/
def newErrorObject (e : ErrorBody) (causes : List ErrorBody) : Engine (Ref × Ref) := do
  let object ← newOf e.typeRef (.error e.trace causes)
  let message ← newStr e.message
  return (object, message)

/-- Writes several members. -/
def writeMembers (object : Ref) (members : List (String × Ref)) : Engine Unit :=
  change object (.write members)

/-- The object of an error without causes: the one it has, brought up to date, or a new one. -/
def bodyObject (e : ErrorBody) : Engine Ref := do
  match e.value with
  | some object =>
    change object (.flight e.trace [])
    return object
  | none =>
    let (object, message) ← newErrorObject e []
    writeMembers object (("message", message) :: e.payload)
    return object

/-- The objects of several errors without causes. -/
def bodyObjects : List ErrorBody → Engine (List Ref)
  | [] => return []
  | e :: later => do
    let object ← bodyObject e
    let objects ← bodyObjects later
    return object :: objects

/-- The object of an error: the one it has, brought up to date, or a new one whose members show the
message, the payload and the causes. -/
def errorObject (e : Raised) : Engine Ref := do
  match e.value with
  | some object =>
    change object (.flight e.trace e.causes)
    return object
  | none =>
    let (object, message) ← newErrorObject e.toErrorBody e.causes
    let members := ("message", message) :: e.payload
    if e.causes.isEmpty then writeMembers object members
    else
      let objects ← bodyObjects e.causes
      let list ← newList objects
      writeMembers object (members ++ [("causes", list)])
    return object

/-- The error that arises from throwing a value: a text becomes a plain error, an error object
continues where it left off, and anything else is refused. -/
def thrown (value : Ref) : Engine Raised := do
  let value ←
    match ← payload value with
    | .str message =>
      errorObject
        { type := .builtin .error, message, value := none, trace := [], payload := []
          causes := [] }
    | _ => pure value
  let type ← ask fun h => h.typeOf value
  if !(← ask fun h => h.isSubtype type ErrorKind.error.ref) then
    raise (.thrownType (← ask fun h => h.typeName value))
  else
    let o ← load value
    let message ← ask fun h => ((o.members.get? "message").bind h.str?).getD ""
    let (trace, causes) :=
      match o.payload with
      | .error trace causes => (trace, causes)
      | _ => ([], [])
    let errorType :=
      match ErrorKind.ofRef? type with
      | some kind => ErrorType.builtin kind
      | none => .custom type
    return { type := errorType, message, value := some value, trace, payload := [], causes }

end Engine

end ObjectMachine
