import ObjectMachine.Engine.Instructions
/-!
The entry points of the engine, tied together. Every entry point takes fuel and hands less of it to
the entry points that it uses, so that the definitions are total; a run that ends within its fuel
ends in the same way with more.
-/
namespace ObjectMachine.Engine

mutual

/-- Calls a value. -/
def callWith : Nat → Ref → List Ref → Engine Ref
  | 0, _, _ => throw .outOfFuel
  | n + 1, callee, args =>
    call ⟨callWith n, invokeWith n, runFrameWith n, drainWith n⟩ callee args

/-- Runs a function with arguments that fit. -/
def invokeWith : Nat → Prepared → Engine Ref
  | 0, _ => throw .outOfFuel
  | n + 1, prepared =>
    let k : Reentry := ⟨callWith n, invokeWith n, runFrameWith n, drainWith n⟩
    invoke k (runNative k) prepared

/-- Runs a frame until it ends or hands out a value. -/
def runFrameWith : Nat → Frame → Engine Completion
  | 0, _ => throw .outOfFuel
  | n + 1, f => do
    match ← runInstruction ⟨callWith n, invokeWith n, runFrameWith n, drainWith n⟩ f with
    | .running f => runFrameWith n f
    | .complete completion => return completion

/-- Takes all items from an iterator. -/
def drainWith : Nat → Ref → List Ref → Engine (List Ref)
  | 0, _, _ => throw .outOfFuel
  | n + 1, iterator, taken =>
    drain ⟨callWith n, invokeWith n, runFrameWith n, drainWith n⟩ iterator taken

end

/-- The entry points with a given amount of fuel. -/
def reentry (fuel : Nat) : Reentry :=
  ⟨callWith fuel, invokeWith fuel, runFrameWith fuel, drainWith fuel⟩

end ObjectMachine.Engine
