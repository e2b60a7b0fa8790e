import ObjectMachine.Engine.Natives.Numbers
import ObjectMachine.Engine.Natives.Texts
import ObjectMachine.Engine.Natives.Collections
import ObjectMachine.Engine.Natives.Objects
/-!
What the built-in functions do.
-/
namespace ObjectMachine.Engine

/-- Runs a built-in function. -/
def runNative (k : Reentry) (native : Native) (args : List Ref) : Engine Ref :=
  match native with
  | .number f => runNumber f args
  | .truth f => runTruth k f args
  | .text f => runText k f args
  | .list f => runList k f args
  | .map f => runMap k f args
  | .range f => runRange f args
  | .object f => runObject k f args
  | .global f => runGlobal k f args

end ObjectMachine.Engine
