import ObjectMachine.Engine.Calls
import ObjectMachine.Engine.Errors
import ObjectMachine.Engine.Frames
/-!
Protected blocks. The guarded section and the cleanup share the scope around the block; the handler
has a scope of its own, which holds the error. The cleanup runs once, whichever way the block is
left by an end, a return or an error that can be caught, and its own return or error replaces what
was pending. A section that hands out a value waits on the frame and is continued from there.
-/
namespace ObjectMachine

/-- The sections of a protected block, and where the code after it starts. -/
structure Sections where
  /-- The section that is protected. -/
  guarded : Code
  /-- The section that handles errors. -/
  handler : Option Code
  /-- The section that runs in any case. -/
  cleanup : Option Code
  /-- The position after the last section. -/
  next : Nat

namespace Sections

/-- Finds the sections of a block behind the current instruction. -/
def find? (f : Frame) (block : String) : Option Sections :=
  let part? (name : String) := f.code.bodyFrom? (f.ip + 1) (block ++ "." ++ name)
  (part? "try").map fun guarded =>
    let handler := part? "catch"
    let cleanup := part? "finally"
    let last (b : Option Code.Body) := (b.map Code.Body.stop).getD 0
    { guarded := guarded.code
      handler := handler.map Code.Body.code
      cleanup := cleanup.map Code.Body.code
      next := max (max guarded.stop (last handler)) (last cleanup) + 1 }

end Sections

/-- What an instruction does to its frame. -/
inductive Step where
  /-- Goes on to the next instruction. -/
  | next (frame : Frame)
  /-- Goes on at a position. -/
  | jump (target : Nat) (frame : Frame)
  /-- Hands out a value and goes on to the next instruction when continued. -/
  | yielded (value : Ref) (frame : Frame)
  /-- Hands out a value and executes the same instruction when continued. -/
  | suspended (value : Ref) (frame : Frame)

/-- How a section ends. -/
inductive SectionEnd where
  /-- It hands out a value and waits. -/
  | yielded (value : Ref) (frame : Frame)
  /-- It is over, with a value if one was returned, or with an error that can be caught. -/
  | ended (result : Except Raised (Option Ref))

namespace Engine

/-- Runs a section one call deeper, keeping the pending outcome alive. -/
def runSection (k : Reentry) (phase : Phase) (resumed : Bool) (pending : Pending) (body : Frame) :
    Engine SectionEnd := do
  match ← inSection phase resumed (keeping pending.links (k.runFrame body)) with
  | .ok (.yielded value body) => return .yielded value body
  | .ok (.done value) => return .ended (.ok value)
  | .error e => return .ended (.error e)

/-- The frame with a section that waits in it. -/
def park (f : Frame) (phase : Phase) (pending : Pending) (body : Frame) : Frame :=
  { f with parked := ⟨phase, pending, body.toActivation⟩ :: body.parked }

/-- Leaves a block with what was pending. -/
def finishBlock (f : Frame) (next : Nat) (pending : Pending) : Engine Step := do
  observeAt .tryExit
  match pending with
  | .proceed => return .jump next f
  | .leave value => return .jump next { f with returned := some value }
  | .rethrow e => throw (.raised e)

/-- Runs or continues the cleanup. -/
def runCleanup (k : Reentry) (f : Frame) (next : Nat) (resumed : Bool) (pending : Pending)
    (body : Frame) : Engine Step := do
  match ← runSection k .cleanup resumed pending body with
  | .yielded value body => return .suspended value (park f .cleanup pending body)
  | .ended (.ok (some value)) => finishBlock f next (.leave value)
  | .ended (.ok none) => finishBlock f next pending
  | .ended (.error e) => finishBlock f next (.rethrow e)

/-- Starts the cleanup, if there is one, with an outcome that is pending meanwhile. -/
def startCleanup (k : Reentry) (f : Frame) (sections : Sections) (pending : Pending) :
    Engine Step :=
  match sections.cleanup with
  | some code => runCleanup k f sections.next false pending (Frame.start code f.scope)
  | none => finishBlock f sections.next pending

/-- Runs or continues the handler. -/
def runHandler (k : Reentry) (f : Frame) (sections : Sections) (resumed : Bool) (body : Frame) :
    Engine Step := do
  match ← runSection k .handler resumed .proceed body with
  | .yielded value body => return .suspended value (park f .handler .proceed body)
  | .ended (.ok (some value)) => startCleanup k f sections (.leave value)
  | .ended (.ok none) => startCleanup k f sections .proceed
  | .ended (.error e) => startCleanup k f sections (.rethrow e)

/-- Starts the handler with an error. -/
def startHandler (k : Reentry) (f : Frame) (sections : Sections) (binding : Option String)
    (code : Code) (e : Raised) : Engine Step := do
  let scope ← newScope f.scope
  match binding with
  | some name =>
    let error ← errorObject e
    define scope name error
  | none => pure ()
  runHandler k f sections false (Frame.start code scope)

/-- Runs or continues the guarded section. -/
def runGuarded (k : Reentry) (f : Frame) (sections : Sections) (binding : Option String)
    (resumed : Bool) (body : Frame) : Engine Step := do
  match ← runSection k .guarded resumed .proceed body with
  | .yielded value body => return .suspended value (park f .guarded .proceed body)
  | .ended (.ok (some value)) => startCleanup k f sections (.leave value)
  | .ended (.ok none) => startCleanup k f sections .proceed
  | .ended (.error e) =>
    match sections.handler with
    | some code => startHandler k f sections binding code e
    | none => startCleanup k f sections (.rethrow e)

/-- Executes a protected block, or continues the section that waits in it. -/
def protect (k : Reentry) (f : Frame) (block : String) (binding : Option String) :
    Engine Step := do
  match Sections.find? f block with
  | none => fail (.guardedBody block)
  | some sections =>
    match f.parked with
    | [] =>
      observeAt .tryEnter
      runGuarded k f sections binding false (Frame.start sections.guarded f.scope)
    | ⟨phase, pending, body⟩ :: inner =>
      let f := { f with parked := [] }
      let body : Frame := ⟨body, inner⟩
      match phase with
      | .guarded => runGuarded k f sections binding true body
      | .handler => runHandler k f sections true body
      | .cleanup => runCleanup k f sections.next true pending body

end Engine

end ObjectMachine
