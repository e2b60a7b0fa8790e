import ObjectMachine.Heap.Scopes
import ObjectMachine.Heap.Collection
import ObjectMachine.Trace
import ObjectMachine.Printer
import ObjectMachine.Cause
import ObjectMachine.Opcode
/-!
The machine, and the ways in which a computation on it is interrupted. A machine counts the calls
that are nested and lists the nodes that computations under way hold.
-/
namespace ObjectMachine

/-- A program that breaks a rule of the machine itself. -/
inductive Defect where
  /-- Not enough operands. -/
  | stackUnderflow
  /-- A jump to a tag that is not there. -/
  | unknownTag (tag : String)
  /-- A body that is not closed. -/
  | unclosedBody (tag : String)
  /-- More map entries than can be counted. -/
  | mapCount
  /-- A scope closed that was not opened in this frame. -/
  | baseScope
  /-- A scope closed that has none around it. -/
  | outermostScope
  /-- No body for a function. -/
  | functionBody (tag : String)
  /-- No body for a Type. -/
  | classBody (tag : String)
  /-- No section to protect. -/
  | guardedBody (block : String)
  /-- No operand for a default. -/
  | missingDefault
  /-- A payload of another kind than was expected. -/
  | payload (expected found : String)
  /-- A member name that is no text. -/
  | memberName
  /-- A generator asked for an item that is none. -/
  | notGenerator
deriving DecidableEq

namespace Defect

/-- The wording of a defect. -/
def message : Defect → String
  | stackUnderflow => "operand stack underflow"
  | unknownTag tag => s!"jump to unknown tag '{tag}'"
  | unclosedBody tag => s!"body end tag '{tag}' not found"
  | mapCount => "map operand count overflows"
  | baseScope => "cannot exit the frame's base scope"
  | outermostScope => "scope has no outer scope"
  | functionBody tag => s!"function body '{tag}' not found"
  | classBody tag => s!"class body '{tag}' not found"
  | guardedBody block => s!"try block '{block}' has no try body"
  | missingDefault => "missing default operand"
  | payload expected found => s!"expected {expected}, found {found}"
  | memberName => "member name is not a string"
  | notGenerator => "generator_next called on a non-generator"

end Defect

/-- Where an instruction stands. -/
structure Site where
  /-- The opcode. -/
  op : Opcode
  /-- Its position in the frame. -/
  ip : Nat
deriving DecidableEq

/-- Why a computation ends without a value. -/
inductive Interrupt where
  /-- An error that programs can catch. -/
  | raised (error : Raised)
  /-- An exhausted budget, which no program can catch. -/
  | exhausted (error : Raised)
  /-- A defect of the program, with the instructions that were under way, innermost first. -/
  | defect (defect : Defect) (sites : List Site)
  /-- A handle of a vacant slot. -/
  | dangling
  /-- A 64-bit computation beyond its range. -/
  | overflow
  /-- The computation was cut off. -/
  | outOfFuel
deriving DecidableEq

/-- The state of the machine. -/
structure Machine where
  /-- The objects and scopes. -/
  heap : Heap
  /-- The outermost scope, which holds what is built in. -/
  builtins : ScopeRef
  /-- The scope of the host and of top-level code. -/
  globals : ScopeRef
  /-- How many calls are nested at the moment. -/
  depth : Nat
  /-- Nodes that a collection has to keep because a computation under way holds them. -/
  roots : Array Node
  /-- Where printed text goes. -/
  printer : Printer
  /-- The observer. -/
  tracer : Tracer

namespace Raised

/-- The error that arises from a cause. -/
def ofCause (c : Cause) : Raised :=
  { type := .builtin c.kind, message := c.message, value := none, trace := [], payload := []
    causes := [] }

/-- The error that reports an exhausted budget. -/
def ofExhaustion (e : Exhaustion) : Raised :=
  { type := .builtin e.kind, message := e.message, value := none, trace := [], payload := []
    causes := [] }

/-- The error after it passed through a call. -/
def withLayer (e : Raised) (function : String) (args : List Ref) : Raised :=
  { e with trace := e.trace ++ [⟨function, args⟩] }

end Raised

namespace Interrupt

/-- The interruption by an exhausted budget. Programs can catch only that calls are nested too
deeply. -/
def ofExhaustion (e : Exhaustion) : Interrupt :=
  match e with
  | .recursion _ => .raised (.ofExhaustion e)
  | _ => .exhausted (.ofExhaustion e)

/-- The interruption after it passed through a call. -/
def withLayer (function : String) (args : List Ref) : Interrupt → Interrupt
  | raised e => raised (e.withLayer function args)
  | exhausted e => exhausted (e.withLayer function args)
  | other => other

/-- The interruption after it passed through an instruction. -/
def atSite (site : Site) : Interrupt → Interrupt
  | defect d sites => defect d (sites ++ [site])
  | other => other

/-- Whether the interruption is one of the program, and not of the machine that runs it. -/
def isOfProgram : Interrupt → Bool
  | raised _ | exhausted _ | defect .. => true
  | dangling | overflow | outOfFuel => false

end Interrupt

namespace Machine

/-- The machine with another heap. -/
def withHeap (m : Machine) (f : Heap → Heap) : Machine :=
  match m with
  | ⟨heap, builtins, globals, depth, roots, printer, tracer⟩ =>
    ⟨f heap, builtins, globals, depth, roots, printer, tracer⟩

/-- Reports an event at the current depth to the observer. -/
def observe (m : Machine) (e : Nat → Event) : Machine :=
  match m with
  | ⟨heap, builtins, globals, depth, roots, printer, tracer⟩ =>
    ⟨heap, builtins, globals, depth, roots, printer, tracer.observe (e depth)⟩

/-- Reports a notice to the observer. -/
def note (m : Machine) (n : Notice) : Machine :=
  match m with
  | ⟨heap, builtins, globals, depth, roots, printer, tracer⟩ =>
    ⟨heap, builtins, globals, depth, roots, printer, tracer.note n⟩

/-- Nests one call deeper, unless the budget refuses. -/
def enter (m : Machine) : Except Exhaustion Machine :=
  match m with
  | ⟨heap, builtins, globals, depth, roots, printer, tracer⟩ =>
    match heap.budget.checkDepth depth with
    | .ok () => .ok ⟨heap, builtins, globals, depth + 1, roots, printer, tracer⟩
    | .error e => .error e

/-- Returns to the caller's depth. -/
def leave (m : Machine) : Machine :=
  match m with
  | ⟨heap, builtins, globals, depth, roots, printer, tracer⟩ =>
    ⟨heap, builtins, globals, depth - 1, roots, printer, tracer⟩

/-- Adds roots. -/
def pushRoots (m : Machine) (nodes : List Node) : Machine :=
  match m with
  | ⟨heap, builtins, globals, depth, roots, printer, tracer⟩ =>
    ⟨heap, builtins, globals, depth, nodes.foldl Array.push roots, printer, tracer⟩

/-- Drops all roots but the first ones. -/
def truncateRoots (m : Machine) (count : Nat) : Machine :=
  match m with
  | ⟨heap, builtins, globals, depth, roots, printer, tracer⟩ =>
    ⟨heap, builtins, globals, depth, roots.shrink count, printer, tracer⟩

/-- Releases what neither the roots nor the given nodes reach. -/
def collectWith (m : Machine) (nodes : List Node) : Machine :=
  match m with
  | ⟨heap, builtins, globals, depth, roots, printer, tracer⟩ =>
    let (freed, heap) := heap.collect (roots.toList ++ nodes)
    ⟨heap, builtins, globals, depth, roots, printer,
      tracer.note (.collectedDuringRun freed depth)⟩

end Machine

end ObjectMachine
