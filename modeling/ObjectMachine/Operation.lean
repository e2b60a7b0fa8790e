import ObjectMachine.Machine
/-!
The operations of the machine. Everything that a computation does to the machine, apart from nesting
calls and keeping nodes alive, is one of these operations; `Op.perform` says what each does.
-/
namespace ObjectMachine

/-- A change to one object. A change of one kind of payload leaves an object with another kind of
payload as it is. -/
inductive Change where
  /-- Writes members, one after another. -/
  | write (members : List (String × Ref))
  /-- Removes a member. -/
  | erase (name : String)
  /-- Changes the items of a list. -/
  | items (f : Array Ref → Array Ref)
  /-- Changes the entries of a map. -/
  | entries (f : Entries → Entries)
  /-- Moves an iterator. -/
  | cursor (cursor : Cursor)
  /-- Puts a generator into a state. -/
  | generator (state : GeneratorState)
  /-- Replaces what an error object remembers of its flight. -/
  | flight (trace : List Layer) (causes : List ErrorBody)

namespace Change

/-- What a change does to a payload. -/
def onPayload (c : Change) (payload : Payload) : Payload :=
  match c, payload with
  | .items f, .list l => .list (f l)
  | .entries f, .map t => .map (f t)
  | .cursor next, .iterator _ => .iterator next
  | .generator state, .generator name _ => .generator name state
  | .flight trace causes, .error .. => .error trace causes
  | _, payload => payload

/-- What a change does to members. -/
def onMembers (c : Change) (members : Table String Ref) : Table String Ref :=
  match c with
  | .write new => new.foldl (fun t m => t.insert m.1 m.2) members
  | .erase name => members.erase name
  | _ => members

/-- What a change does to an object. -/
def apply (c : Change) (o : Object) : Object :=
  match o with
  | ⟨type, members, payload⟩ => ⟨type, c.onMembers members, c.onPayload payload⟩

end Change

/-- How a computation ends: with a value or an interruption, and the machine as it then is. -/
abbrev Outcome : Type → Type := EStateM.Result Interrupt Machine

/-- When garbage is collected during a run. -/
abbrev Schedule : Type := Heap → Bool

/-- An operation of the machine. -/
inductive Op : Type → Type 1 where
  /-- A question to the heap. -/
  | ask {α : Type} (f : Heap → α) : Op α
  /-- Reads the object of a handle. -/
  | load (r : Ref) : Op Object
  /-- Reads the scope of a handle. -/
  | loadScope (s : ScopeRef) : Op Scope
  /-- Books and stores an object. -/
  | store (o : Object) : Op Ref
  /-- Books and stores a Type. -/
  | storeType (name : String) (parents : List Ref) : Op (Except Lineage.Fault Ref)
  /-- Books and opens a scope within another. -/
  | openScope (outer : ScopeRef) : Op ScopeRef
  /-- Changes the object of a handle. -/
  | change (r : Ref) (c : Change) : Op Unit
  /-- Defines a variable. -/
  | define (s : ScopeRef) (name : String) (value : Ref) : Op Unit
  /-- Assigns to a variable, if there is one. -/
  | assign (s : ScopeRef) (name : String) (value : Ref) : Op Unit
  /-- Removes a variable, if there is one. -/
  | undefine (s : ScopeRef) (name : String) : Op Unit
  /-- Books one instruction. -/
  | tick : Op Unit
  /-- Collects garbage if that is due; the roots and the given nodes are kept. -/
  | collectIfDue (nodes : Unit → List Node) : Op Unit
  /-- Adds roots. -/
  | pushRoots (nodes : List Node) : Op Unit
  /-- Reports an event at the current depth to the observer. -/
  | observe (e : Nat → Event) : Op Unit
  /-- Reports a notice to the observer. -/
  | note (n : Notice) : Op Unit
  /-- Writes a text to the printer. -/
  | print (s : String) : Op Unit
  /-- Starts counting the instructions of a new request. -/
  | beginRequest : Op Unit
  /-- Interrupts with an error that programs can catch. -/
  | raise {α : Type} (c : Cause) : Op α

namespace Op

/-- Changes the heap and gives a value, unless a budget refuses. -/
def onHeap {α : Type} (f : Heap → Except Exhaustion α × Heap) (m : Machine) : Outcome α :=
  match m with
  | ⟨heap, builtins, globals, depth, roots, printer, tracer⟩ =>
    match f heap with
    | (.ok a, heap) => .ok a ⟨heap, builtins, globals, depth, roots, printer, tracer⟩
    | (.error e, heap) =>
      .error (.ofExhaustion e) ⟨heap, builtins, globals, depth, roots, printer, tracer⟩

/-- Writes a text to the printer, which may refuse it. -/
def printTo (s : String) (m : Machine) : Outcome Unit :=
  match m with
  | ⟨heap, builtins, globals, depth, roots, printer, tracer⟩ =>
    match printer.write s with
    | (true, printer) => .ok () ⟨heap, builtins, globals, depth, roots, printer, tracer⟩
    | (false, printer) =>
      .error (.raised (.ofCause (.printFailed Printer.refusal)))
        ⟨heap, builtins, globals, depth, roots, printer, tracer⟩

/-- Performs an operation. -/
def perform (due : Schedule) {α : Type} (o : Op α) (m : Machine) : Outcome α :=
  match o with
  | ask f => .ok (f m.heap) m
  | load r =>
    match m.heap.object? r with
    | some o => .ok o m
    | none => .error .dangling m
  | loadScope s =>
    match m.heap.scope? s with
    | some scope => .ok scope m
    | none => .error .dangling m
  | store o => onHeap (fun h => h.allocate o) m
  | storeType name parents => onHeap (fun h => h.allocateType name parents) m
  | openScope outer => onHeap (fun h => h.allocateScope ⟨.empty, some outer⟩) m
  | change r c =>
    if m.heap.objects.occupied r.slot then .ok () (m.withHeap fun h => h.modify r c.apply)
    else .error .dangling m
  | define s name value => .ok () (m.withHeap fun h => h.define s name value)
  | assign s name value => .ok () (m.withHeap fun h => (h.assign? s name value).getD h)
  | undefine s name => .ok () (m.withHeap fun h => (h.undefine? s name).getD h)
  | tick => onHeap Heap.tick m
  | collectIfDue nodes => .ok () (if due m.heap then m.collectWith (nodes ()) else m)
  | pushRoots nodes => .ok () (m.pushRoots nodes)
  | observe e => .ok () (m.observe e)
  | note n => .ok () (m.note n)
  | print s => printTo s m
  | beginRequest => .ok () (m.withHeap Heap.beginRequest)
  | raise c => .error (.raised (.ofCause c)) m

end Op

end ObjectMachine
