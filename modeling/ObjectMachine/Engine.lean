import ObjectMachine.Operation
/-!
Computations on the machine. A computation is a tree of operations; what it does that spans other
computations (nesting a call, keeping nodes alive, catching an error) is a node around the tree that
it spans. So whatever all operations and all these nodes respect holds of everything the engine does.
`Engine.run` says what a computation does to a machine.
-/
namespace ObjectMachine

/-- How a run of code ends. -/
inductive Completion where
  /-- It is over, with a value if one was returned. -/
  | done (value : Option Ref)
  /-- It hands out a value and can be continued. -/
  | yielded (value : Ref) (frame : Frame)

/-- A computation on the machine. -/
inductive Engine : Type → Type 1 where
  /-- Ends with a value. -/
  | give {α : Type} (a : α) : Engine α
  /-- Ends with an interruption. -/
  | throw {α : Type} (e : Interrupt) : Engine α
  /-- Performs an operation. -/
  | act {α : Type} (o : Op α) : Engine α
  /-- Goes on with the value of a computation. -/
  | andThen {α β : Type} (x : Engine α) (f : α → Engine β) : Engine β
  /-- Keeps nodes alive during a computation, however it ends. -/
  | keeping {α : Type} (nodes : List Node) (x : Engine α) : Engine α
  /-- Marks a computation after which nodes are used, though it does not keep them alive. -/
  | holding {α : Type} (nodes : List Node) (x : Engine α) : Engine α
  /-- Executes an instruction: a defect remembers where it arose. -/
  | executing {α : Type} (site : Site) (x : Engine α) : Engine α
  /-- Runs a function one call deeper. An interruption that leaves it remembers the call. -/
  | calling {α : Type} (name : String) (args : List Ref) (x : Engine α) : Engine α
  /-- Runs other code one call deeper. -/
  | nested {α : Type} (x : Engine α) : Engine α
  /-- Runs a section of a protected block one call deeper, from its start or resumed. An error that
  can be caught is its result; any other interruption leaves the block. -/
  | inSection (phase : Phase) (resumed : Bool) (x : Engine Completion) :
    Engine (Except Raised Completion)
  /-- Runs a generator one call deeper. The outer result tells whether the call was refused, the
  inner one how it ended; an interruption that cannot be caught ends the generator. -/
  | resuming (generator : Ref) (name : String) (x : Engine Completion) :
    Engine (Except Raised (Except Raised Completion))
  /-- Catches an error. -/
  | catching {α : Type} (x : Engine α) : Engine (Except Raised α)
  /-- Drops any error, defect or exhausted budget, and gives no value instead. -/
  | forgiving {α : Type} (x : Engine α) : Engine (Option α)

namespace Engine

variable {α β : Type}

instance : Monad Engine where
  pure := give
  bind := andThen

instance : Inhabited (Engine α) := ⟨throw .dangling⟩

/-- The machine after a computation that keeps as many roots as there were before. -/
def dropRoots (count : Nat) : Outcome α → Outcome α
  | .ok a m => .ok a (m.truncateRoots count)
  | .error e m => .error e (m.truncateRoots count)

/-- What a computation does to a machine, when garbage is collected by a schedule. -/
def runUnder (due : Schedule) {α : Type} : Engine α → Machine → Outcome α
  | give a, m => .ok a m
  | throw e, m => .error e m
  | act o, m => o.perform due m
  | andThen x f, m =>
    match x.runUnder due m with
    | .ok a m => (f a).runUnder due m
    | .error e m => .error e m
  | keeping nodes x, m =>
    let count := m.roots.size
    dropRoots count (x.runUnder due (m.pushRoots nodes))
  | holding _ x, m => x.runUnder due m
  | executing site x, m =>
    match x.runUnder due m with
    | .ok a m => .ok a m
    | .error e m => .error (e.atSite site) m
  | calling name args x, m =>
    match m.enter with
    | .error e => .error (.ofExhaustion e) m
    | .ok m =>
      match x.runUnder due (m.observe (.call name)) with
      | .ok a m => .ok a (m.observe .leave).leave
      | .error e m => .error (e.withLayer name args) (m.observe .leave).leave
  | nested x, m =>
    match m.enter with
    | .error e => .error (.ofExhaustion e) m
    | .ok m =>
      match x.runUnder due m with
      | .ok a m => .ok a m.leave
      | .error e m => .error e m.leave
  | inSection _ _ x, m =>
    match m.enter with
    | .error e => .error (.ofExhaustion e) m
    | .ok m =>
      match x.runUnder due m with
      | .ok a m => .ok (.ok a) m.leave
      | .error (.raised e) m => .ok (.error e) m.leave
      | .error e m => .error e (m.leave.observe .tryExit)
  | resuming generator name x, m =>
    match m.enter with
    | .error e => .ok (.error (.ofExhaustion e)) m
    | .ok m =>
      match x.runUnder due (m.observe .resume) with
      | .ok a m => .ok (.ok (.ok a)) m.leave
      | .error (.raised e) m => .ok (.ok (.error e)) m.leave
      | .error e m =>
        .error (e.withLayer name [])
          (m.leave.withHeap fun h => h.modify generator (Change.generator .finished).apply)
  | catching x, m =>
    match x.runUnder due m with
    | .ok a m => .ok (.ok a) m
    | .error (.raised e) m => .ok (.error e) m
    | .error e m => .error e m
  | forgiving x, m =>
    match x.runUnder due m with
    | .ok a m => .ok (some a) m
    | .error e m => if e.isOfProgram then .ok none m else .error e m

/-- What a computation does to a machine. -/
def run (x : Engine α) (m : Machine) : Outcome α := x.runUnder Heap.collectionDue m

/-! ### Frequent computations -/

/-- Interrupts with an error that programs can catch. -/
def raise (c : Cause) : Engine α := act (.raise c)

/-- Interrupts because of a defect. -/
def fail (d : Defect) : Engine α := throw (.defect d [])

/-- A question to the heap. -/
def ask (f : Heap → α) : Engine α := act (.ask f)

/-- The object of a handle. -/
def load (r : Ref) : Engine Object := act (.load r)

/-- The payload of a handle. -/
def payload (r : Ref) : Engine Payload := do return (← load r).payload

/-- The scope of a handle. -/
def loadScope (s : ScopeRef) : Engine Scope := act (.loadScope s)

/-- Stores an object of the Type of its payload. -/
def new (payload : Payload) : Engine Ref := act (.store (.ofPayload payload none))

/-- Stores an object of a given Type. -/
def newOf (type : Ref) (payload : Payload) : Engine Ref :=
  act (.store (.ofPayload payload (some type)))

/-- Opens a scope within another. -/
def newScope (outer : ScopeRef) : Engine ScopeRef := act (.openScope outer)

/-- Changes the object of a handle. -/
def change (r : Ref) (c : Change) : Engine Unit := act (.change r c)

/-- Writes a member. -/
def writeMember (r : Ref) (name : String) (value : Ref) : Engine Unit :=
  change r (.write [(name, value)])

/-- Defines a variable. -/
def define (s : ScopeRef) (name : String) (value : Ref) : Engine Unit :=
  act (.define s name value)

/-- Books one instruction. -/
def tick : Engine Unit := act .tick

/-- Collects garbage if that is due. -/
def collectIfDue (nodes : Unit → List Node) : Engine Unit := act (.collectIfDue nodes)

/-- Adds roots. -/
def pushRoots (nodes : List Node) : Engine Unit := act (.pushRoots nodes)

/-- Reports an event to the observer. -/
def observe (e : Event) : Engine Unit := act (.observe fun _ => e)

/-- Reports an event at the current depth to the observer. -/
def observeAt (e : Nat → Event) : Engine Unit := act (.observe e)

/-- Reports a notice to the observer. -/
def note (n : Notice) : Engine Unit := act (.note n)

/-- Writes a text to the printer. -/
def print (s : String) : Engine Unit := act (.print s)

/-- Keeps objects alive during a computation. -/
def keepingObjects (refs : List Ref) (x : Engine α) : Engine α := keeping (objectNodes refs) x

/-- Stores an integer. -/
def newInt (i : Int64) : Engine Ref := new (.int i)

/-- Stores a number. -/
def newNum (x : Binary64) : Engine Ref := new (.num x)

/-- Stores a text. -/
def newStr (s : String) : Engine Ref := new (.str s)

/-- Stores a list. -/
def newList (items : List Ref) : Engine Ref := new (.list items.toArray)

/-- Interrupts because a payload is of another kind than was expected. -/
def unexpected (expected : String) (r : Ref) : Engine α := do
  fail (.payload expected (← payload r).label)

end Engine

end ObjectMachine
