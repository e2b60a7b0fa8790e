import ObjectMachine.Engine
/-!
How the parts of the engine call one another. Almost everything the engine does can run a program's
functions, so the parts are written against a record of the entry points they may use; the record is
filled in one place only.
-/
namespace ObjectMachine

/-- A function with arguments that fit its parameters. -/
structure Prepared where
  /-- The function. -/
  function : Function
  /-- Its arguments, in their places. -/
  args : Matched

/-- The entry points of the engine. -/
structure Reentry where
  /-- Calls a value with arguments. -/
  call : Ref → List Ref → Engine Ref
  /-- Runs a function with arguments that fit. -/
  invoke : Prepared → Engine Ref
  /-- Runs a frame until it ends or hands out a value. -/
  runFrame : Frame → Engine Completion
  /-- Takes all items from an iterator; those taken before come last first. -/
  drain : Ref → List Ref → Engine (List Ref)

end ObjectMachine
