import ObjectMachine.Heap.Boot
import ObjectMachine.Engine.Run
import ObjectMachine.Report
/-!
The machine as its host uses it. A request runs a computation from a fresh depth with the outer
scopes as its only roots, prints to the printer it is given, and ends with a value or a report.
Variables and collections need no request.
-/
namespace ObjectMachine

/-- Why a request gives no value. -/
inductive Failure where
  /-- An error that was not caught. -/
  | reported (report : Report)
  /-- The machine could not go on. -/
  | halted

namespace Machine

/-- The fuel of a request: more steps than any run takes. -/
def fuel : Nat := Nat.pow 2 60

/-- A machine at its start. -/
def boot (budget : Budget) (tracer : Tracer) : Machine :=
  let heap := Heap.boot.withBudget budget
  { heap, builtins := .builtins, globals := .globals, depth := 0, roots := #[]
    printer := .discarding, tracer := tracer.note (.bootstrapped heap.objects.live) }

/-- The scopes that are always kept. -/
def scopeRoots (m : Machine) : List Node := [.scope m.builtins, .scope m.globals]

/-- The machine at the start of a request. -/
def startRequest (m : Machine) (printer : Printer) : Machine :=
  let roots := m.scopeRoots.toArray
  match m with
  | ⟨heap, builtins, globals, _, _, _, tracer⟩ =>
    ⟨heap, builtins, globals, 0, roots, printer, tracer⟩

/-- Why a request gives no value, when its computation was interrupted. -/
def failureOf (m : Machine) (e : Interrupt) : Failure :=
  match Report.ofInterrupt? m.heap e with
  | some report => .reported report
  | none => .halted

/-- Takes note of why a request gives no value. -/
def noteFailure (m : Machine) : Failure → Machine
  | .reported report => { m with tracer := m.tracer.note (.failed report.typeName report.message) }
  | .halted => m

/-- Runs a computation as a request, and takes note of an error that ends it. -/
def request {α : Type} (m : Machine) (printer : Printer) (x : Engine α) :
    Except Failure α × Machine :=
  match x.run (m.startRequest printer) with
  | .ok a m => (.ok a, m)
  | .error e m => (.error (m.failureOf e), m.noteFailure (m.failureOf e))

/-- Runs code in the outer scope, with a new allowance of instructions. The result is the value
that the code returns, or else `null`. -/
def runCode (globals : ScopeRef) (code : Code) : Engine Ref := do
  Engine.act .beginRequest
  Engine.note (.executing code.size)
  match ← Engine.nested (Engine.runFrameWith fuel (Frame.start code globals)) with
  | .done value => return value.getD .null
  | .yielded .. => Engine.raise .programYielded

end Machine

/-- What a host can ask for. -/
inductive Request where
  /-- Runs code. -/
  | run (code : Code)
  /-- Calls a value. -/
  | call (callee : Ref) (args : List Ref)
  /-- Applies an operator, which has its meaning for every value. -/
  | operator (name : String) (args : List Ref)
  /-- Reads a member. -/
  | getMember (obj : Ref) (name : String)
  /-- Writes a member. -/
  | setMember (obj : Ref) (name : String) (value : Ref)

namespace Request

/-- The computation that serves a request. The result of a change is `null`. -/
def computation (globals : ScopeRef) : Request → Engine Ref
  | run code => Machine.runCode globals code
  | call callee args => Engine.callWith Machine.fuel callee args
  | operator name args => Engine.callOperator (Engine.reentry Machine.fuel) name args true
  | getMember obj name => Engine.getMember (Engine.reentry Machine.fuel) obj name
  | setMember obj name value => do
    Engine.setMember (Engine.reentry Machine.fuel) obj name value
    return .null

end Request

namespace Machine

/-- Serves a request. -/
def serve (m : Machine) (printer : Printer) (r : Request) : Except Failure Ref × Machine :=
  m.request printer (r.computation m.globals)

/-- Runs code. -/
def run (m : Machine) (printer : Printer) (code : Code) : Except Failure Ref × Machine :=
  m.serve printer (.run code)

/-- Calls a value. -/
def call (m : Machine) (printer : Printer) (callee : Ref) (args : List Ref) :
    Except Failure Ref × Machine :=
  m.serve printer (.call callee args)

/-- Applies an operator, which has its meaning for every value. -/
def callOperator (m : Machine) (printer : Printer) (name : String) (args : List Ref) :
    Except Failure Ref × Machine :=
  m.serve printer (.operator name args)

/-- Reads a member. -/
def getMember (m : Machine) (printer : Printer) (obj : Ref) (name : String) :
    Except Failure Ref × Machine :=
  m.serve printer (.getMember obj name)

/-- Writes a member. -/
def setMember (m : Machine) (printer : Printer) (obj : Ref) (name : String) (value : Ref) :
    Except Failure Unit × Machine :=
  let (result, m) := m.serve printer (.setMember obj name value)
  (result.map fun _ => (), m)

/-! ### Values -/

/-- The snapshot of a value. -/
def snapshot? (m : Machine) (r : Ref) : Option Snapshot := m.heap.snapshot? r

/-- Stores a snapshot. -/
def store (m : Machine) (s : Snapshot) : Except StoreFault Ref × Machine :=
  match m with
  | ⟨heap, builtins, globals, depth, roots, printer, tracer⟩ =>
    match s.store heap with
    | .ok r heap => (.ok r, ⟨heap, builtins, globals, depth, roots, printer, tracer⟩)
    | .error e heap => (.error e, ⟨heap, builtins, globals, depth, roots, printer, tracer⟩)

/-- The name of the Type of a value. -/
def typeName (m : Machine) (r : Ref) : String := m.heap.typeName r

/-- The names of the ancestors of a Type, itself first; none for other values. -/
def mroNames (m : Machine) (r : Ref) : List String := (m.heap.mro r).map m.heap.nameOfType

/-! ### Variables -/

/-- Changes the heap. -/
def updateHeap (m : Machine) (f : Heap → Heap) : Machine :=
  match m with
  | ⟨heap, builtins, globals, depth, roots, printer, tracer⟩ =>
    ⟨f heap, builtins, globals, depth, roots, printer, tracer⟩

/-- The value of a variable as the outer scope sees it. -/
def getGlobal? (m : Machine) (name : String) : Option Ref := m.heap.resolve? m.globals name

/-- Defines a variable in the outer scope. -/
def defineGlobal (m : Machine) (name : String) (value : Ref) : Machine :=
  m.updateHeap fun h => h.define m.globals name value

/-- The report that a name is not defined. -/
def undefinedReport (name : String) : Report :=
  let cause := Cause.undefinedName name
  .ofKind cause.kind cause.message

/-- Replaces the heap, or reports that a name is not defined. -/
def changeNamed (m : Machine) (name : String) (heap? : Option Heap) : Except Report Machine :=
  match heap? with
  | some heap => .ok { m with heap }
  | none => .error (undefinedReport name)

/-- Assigns to a variable as the outer scope sees it. -/
def setGlobal (m : Machine) (name : String) (value : Ref) : Except Report Machine :=
  m.changeNamed name (m.heap.assign? m.globals name value)

/-- Removes a variable of the outer scope. -/
def deleteGlobal (m : Machine) (name : String) : Except Report Machine :=
  m.changeNamed name (m.heap.undefine? m.globals name)

/-! ### Garbage -/

/-- Releases what neither the outer scopes nor the given values reach, and tells how many objects
that were. -/
def collect (m : Machine) (extra : List Ref) : Nat × Machine :=
  let (freed, heap) := m.heap.collect (objectNodes extra ++ m.scopeRoots)
  (freed, { m with heap, tracer := m.tracer.note (.collected freed) })

end Machine

end ObjectMachine
