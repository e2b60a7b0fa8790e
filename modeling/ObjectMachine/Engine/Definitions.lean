import ObjectMachine.Engine.Calls
import ObjectMachine.Engine.Frames
import ObjectMachine.Special
import ObjectMachine.Lineage
/-!
Definitions of functions and Types. A function takes its defaults from the operands and remembers
the scope it was made in. The body of a Type runs in a scope whose variables become the members of
the Type.
-/
namespace ObjectMachine.Engine

/-- The value of a variable. -/
def readVariable (s : ScopeRef) (name : String) : Engine Ref := do
  match ← ask fun h => h.resolve? s name with
  | some value => return value
  | none => raise (.undefinedName name)

/-- The declared Type of a parameter. -/
def declaredType (s : ScopeRef) (spec : ParamSpec) : Engine (Option Ref) := do
  match spec.typeName with
  | none => return none
  | some name =>
    let type ← readVariable s name
    if ← ask fun h => h.isType type then return some type
    else raise (.notDeclarable name spec.name)

/-- The parameters that the descriptions and the defaults give. -/
def parameters (s : ScopeRef) : List ParamSpec → List Ref → Engine (List Param)
  | [], _ => return []
  | spec :: later, defaults => do
    let type ← declaredType s spec
    let (default, defaults) ←
      if spec.hasDefault then
        match defaults with
        | value :: defaults => pure (some value, defaults)
        | [] => fail .missingDefault
      else pure (none, defaults)
    let params ← parameters s later defaults
    return { name := spec.name, type, default, rest := spec.rest } :: params

/-- Makes a function. -/
def makeFunction (f : Frame) (name body : String) (specs : List ParamSpec) (generator : Bool) :
    Engine (Ref × Frame) := do
  let count := specs.countP ParamSpec.hasDefault
  let (defaults, f) ← popMany f count
  let params ← parameters f.scope specs defaults
  match Signature.ofParams params with
  | .error fault => raise (.badParameters fault)
  | .ok signature =>
    match f.code.bodyFrom? 0 body with
    | none => fail (.functionBody body)
    | some found =>
      observe (.makeFunction name count)
      let function ←
        new (.function
          { name, signature, body := .code found.code f.scope generator, bound := [] })
      return (function, f)

/-- Checks the parents of a Type: Types, none of them twice. -/
def checkParents (name : String) : List Ref → List Ref → Engine Unit
  | _, [] => return ()
  | seen, parent :: later => do
    if !(← ask fun h => h.isType parent) then
      raise (.parentType name (← ask fun h => h.typeName parent))
    else if seen.contains parent then
      raise (.duplicateParent (← ask fun h => h.nameOfType parent) name)
    else checkParents name (parent :: seen) later

/-- The cause of a missing ancestor order. -/
def lineageCause (parents : List String) : Lineage.Fault → Cause
  | .selfParent => .selfParent
  | .inconsistent => .inconsistentParents parents
  | .tooLong => .lineageTooLong

/-- Stores a Type, unless its ancestors have no order. -/
def newType (name : String) (parents : List Ref) : Engine Ref := do
  match ← act (.storeType name parents) with
  | .ok type => return type
  | .error fault => raise (lineageCause (← ask fun h => parents.map h.nameOfType) fault)

/-- Turns the variables of a body into members of a Type. Functions under the name of a special
method have to accept its arguments. -/
def addMembers (type : Ref) (name : String) : List (String × Ref) → Engine Unit
  | [] => return ()
  | (member, value) :: later => do
    let refused :=
      match ← payload value with
      | .function f => if f.bound.isEmpty then Special.refusedArity? member f.signature else none
      | _ => none
    match refused with
    | some count => raise (.specialArity name member count)
    | none =>
      writeMember type member value
      addMembers type name later

/-- Makes a Type. -/
def makeClass (k : Reentry) (f : Frame) (name body : String) (count : Nat) :
    Engine (Ref × Frame) := do
  let (parents, f) ← popMany f count
  checkParents name [] parents
  let type ← newType name (if parents.isEmpty then [Kind.object.ref] else parents)
  match f.code.bodyFrom? 0 body with
  | none => fail (.classBody body)
  | some found =>
    let scope ← newScope f.scope
    match ← nested (keepingObjects [type] (k.runFrame (Frame.start found.code scope))) with
    | .yielded .. => raise (.classYielded name)
    | .done _ =>
      let s ← loadScope scope
      addMembers type name s.vars.entries
      observe (.makeClass name (← ask fun h => (h.mro type).length))
      return (type, f)

end ObjectMachine.Engine
