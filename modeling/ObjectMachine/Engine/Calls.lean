import ObjectMachine.Engine.Members
import ObjectMachine.Heap.Scopes
/-!
Calls. A function runs one call deeper than its caller, in a scope of its own; anything else is
called through the member `op_call` of its Type. Calling a Type makes an instance of it.
-/
namespace ObjectMachine.Engine

/-- Defines the parameters of a function with their values. -/
def defineAll (s : ScopeRef) : List (Param × Ref) → Engine Unit
  | [] => return ()
  | (p, value) :: later => do
    define s p.name value
    defineAll s later

/-- Runs the code of a function in a new scope. A generator function does not run yet; a function
that hands out a value without being one is in error. -/
def runCode (k : Reentry) (f : Function) (code : Code) (outer : ScopeRef) (generator : Bool)
    (args : Matched) : Engine Ref := do
  let scope ← newScope outer
  defineAll scope (f.signature.params.zip args.fixed)
  match args.rest, f.signature.params.getLast? with
  | some rest, some p =>
    let list ← newList rest
    define scope p.name list
  | _, _ => pure ()
  let frame := Frame.start code scope
  if generator then new (.generator f.name (.fresh frame))
  else
    match ← k.runFrame frame with
    | .done value => return value.getD .null
    | .yielded .. => raise (.functionYielded f.name)

/-- Runs a function one call deeper. An error that leaves it remembers the call. -/
def invoke (k : Reentry) (native : Native → List Ref → Engine Ref) (call : Prepared) :
    Engine Ref := do
  let f := call.function
  calling f.name call.args.toList <|
    match f.body with
    | .native n => native n call.args.toList
    | .code code scope generator => runCode k f code scope generator call.args

/-- Calls a value. -/
def call (k : Reentry) (callee : Ref) (args : List Ref) : Engine Ref :=
  keepingObjects (callee :: args) do
    match ← prepare callee args with
    | some prepared => k.invoke prepared
    | none =>
      match ← ask fun h => h.memberIn? (h.mro (h.typeOf callee)) "op_call" with
      | some method => k.call method (callee :: args)
      | none => raise (.notCallable (← ask fun h => h.typeName callee))

/-- Makes an instance of a Type: by its constructor, or else as a plain object, which then is
initialised. The initialiser is looked up before the constructor runs. -/
def instantiate (k : Reentry) (type : Ref) (args : List Ref) : Engine Ref := do
  let create ← ask fun h => h.memberIn? (h.mro type) "create"
  let init ← ask fun h => h.memberIn? (h.mro type) "init"
  let made ←
    match create with
    | some create => holding (objectNodes init.toList) (k.call create (type :: args))
    | none =>
      if init.isNone && !args.isEmpty then
        raise (.noArguments (← ask fun h => h.nameOfType type))
      else newOf type .plain
  match init with
  | some init =>
    let bound ← bindValue init made
    let _ ← holding [.object made] (k.call bound args)
    return made
  | none => return made

end ObjectMachine.Engine
