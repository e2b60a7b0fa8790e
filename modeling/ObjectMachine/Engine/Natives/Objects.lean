import ObjectMachine.Engine.Iteration
import ObjectMachine.Engine.Calls
/-!
Types, functions, iterators, generators, errors, and the global functions.
-/
namespace ObjectMachine.Engine

/-- The function of an object. -/
def functionOf (r : Ref) : Engine Function := do
  match ← payload r with
  | .function f => return f
  | _ => unexpected "function" r

/-- The text of an error: its Type, and its message if there is one. -/
def errorText (k : Reentry) (error : Ref) : Engine String := do
  let o ← load error
  let message ←
    match o.members.get? "message" with
    | some message => display k message
    | none => pure ""
  let name ← ask fun h => h.typeName error
  return if message.isEmpty then name else s!"{name}: {message}"

/-- Runs a function on Types, functions, iterators, generators or errors. -/
def runObject (k : Reentry) (f : ObjectFunction) (args : List Ref) : Engine Ref := do
  match f, args with
  | .typeCall, cls :: args => instantiate k cls args
  | .typeStr, [type] =>
    let name ← ask fun h => h.nameOfType type
    newStr s!"<type {name}>"
  | .bind, [function, this] =>
    match (← functionOf function).bind this with
    | .ok bound => new (.function bound)
    | .error cause => raise cause
  | .functionStr, [function] =>
    let name := (← functionOf function).name
    newStr s!"<function {name}>"
  | .iteratorNext, [iterator] => iteratorNext iterator
  | .iteratorSelf, [iterator] => return iterator
  | .generatorNext, [generator] => generatorNext k generator
  | .errorCreate, cls :: args =>
    let message ←
      match args with
      | value :: _ => display k value
      | [] => pure ""
    let error ← newOf cls (.error [] [])
    let text ← newStr message
    writeMember error "message" text
    return error
  | .errorStr, [error] => newStr (← errorText k error)
  | _, _ => throw .dangling

/-- Prints the texts of values with a blank between them; `first` tells whether none was printed
yet. -/
def printAll (k : Reentry) (first : Bool) : List Ref → Engine Unit
  | [] => return ()
  | value :: later => do
    if !first then print " "
    let text ← display k value
    print text
    printAll k false later

/-- The name of an object that has one. -/
def nameOf (r : Ref) : Engine String := do
  match ← payload r with
  | .type info => return info.name
  | .function f => return f.name
  | .generator name _ => return name
  | _ => raise (.nameless (← ask fun h => h.typeName r))

/-- The length of a value, which has to be a natural number. -/
def lengthOf (k : Reentry) (value : Ref) : Engine Ref := do
  let result ← callOperator k "op_len" [value] false
  match ← payload result with
  | .int i =>
    if 0 ≤ i then return result else raise (.lenResult (← ask fun h => h.typeName result))
  | _ => raise (.lenResult (← ask fun h => h.typeName result))

/-- A view of an object that looks up members after a Type; a view of a view is one of the object
itself. -/
def viewOf (type value : Ref) : Engine Ref := do
  let target ←
    match ← payload value with
    | .baseView target _ => pure target
    | _ => pure value
  if ← ask fun h => h.isInstance target type then new (.baseView target type)
  else
    let name ← ask fun h => h.nameOfType type
    raise (.viewOf name (← ask fun h => h.typeName target))

/-- The text of a member name. -/
def memberName (r : Ref) : Engine String := do
  match ← payload r with
  | .str s => return s
  | _ => fail .memberName

/-- Runs a global function. -/
def runGlobal (k : Reentry) (f : GlobalFunction) (args : List Ref) : Engine Ref := do
  match f, args with
  | .print, values =>
    printAll k true values
    print "\n"
    return .null
  | .typeOf, [value] => ask fun h => h.typeOf value
  | .nameOf, [value] => newStr (← nameOf value)
  | .mro, [type] => newList (← ask fun h => h.mro type)
  | .isInstance, [value, type] => return .ofBool (← ask fun h => h.isInstance value type)
  | .len, [value] => lengthOf k value
  | .iter, [value] => getIterator k value
  | .next, [iterator] => iterateNext k iterator
  | .base, [type, value] => viewOf type value
  | .rawGet, [value, name] =>
    let name ← memberName name
    if value = .null then raise (.nullMember name)
    else
      match (← load value).members.get? name with
      | some member => return member
      | none => raise (.noMember (← ask fun h => h.typeName value) name)
  | .rawSet, [value, name, member] =>
    let name ← memberName name
    checkTarget value name
    writeMember value name member
    return .null
  | .hasMember, [value, name] =>
    let name ← memberName name
    if value = .null then return .no
    else return .ofBool (← lookupMember k value name .probe).isSome
  | _, _ => throw .dangling

end ObjectMachine.Engine
