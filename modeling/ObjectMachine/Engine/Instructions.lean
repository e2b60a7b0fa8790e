import ObjectMachine.Engine.Definitions
import ObjectMachine.Engine.Protection
import ObjectMachine.Engine.Natives
/-!
The effect of each instruction, and the run of one instruction: it is booked, garbage is collected
if that is due, the observer is told, and the operands are kept alive while the instruction may run
other code.
-/
namespace ObjectMachine.Engine

/-- Takes an operand, and goes on with a result pushed in its place. -/
def replaceTop (f : Frame) (x : Ref → Engine Ref) : Engine Step := do
  let (operand, f) ← pop f
  let result ← x operand
  return .next (f.push result)

/-- Goes on at a tag if a condition holds. -/
def branch (f : Frame) (tag : String) (taken : Bool) : Engine Step := do
  if taken then return .jump (← target f tag) f else return .next f

/-- Executes an opcode. -/
def execute (k : Reentry) (f : Frame) (op : Opcode) : Engine Step := do
  match op with
  | .pushInt i => return .next (f.push (← newInt i))
  | .pushNum x => return .next (f.push (← newNum x))
  | .pushStr s => return .next (f.push (← newStr s))
  | .pushBool b => return .next (f.push (.ofBool b))
  | .pushNull => return .next (f.push .null)
  | .pop count =>
    let (_, f) ← popMany f count
    return .next f
  | .dup => return .next (f.push (← peek f))
  | .swap =>
    match f.stack with
    | b :: a :: stack => return .next (f.withStack (a :: b :: stack))
    | _ => fail .stackUnderflow
  | .buildList count =>
    let (items, f) ← popMany f count
    return .next (f.push (← newList items))
  | .buildMap count =>
    if UInt64.size ≤ 2 * count then fail .mapCount
    else
      let (operands, f) ← popMany f (2 * count)
      return .next (f.push (← newMap operands))
  | .getVar name => return .next (f.push (← readVariable f.scope name))
  | .defineVar name =>
    let (value, f) ← pop f
    define f.scope name value
    return .next f
  | .setVar name =>
    let (value, f) ← pop f
    assign f.scope name value
    return .next f
  | .deleteVar name =>
    undefine f.scope name
    return .next f
  | .getMember name => replaceTop f fun obj => getMember k obj name
  | .setMember name =>
    let (value, f) ← pop f
    let (obj, f) ← pop f
    setMember k obj name value
    return .next f
  | .deleteMember name =>
    let (obj, f) ← pop f
    deleteMember k obj name
    return .next f
  | .call argc =>
    let (args, f) ← popMany f argc
    replaceTop f fun callee => k.call callee args
  | .callSpread =>
    let (list, f) ← pop f
    let (callee, f) ← pop f
    match ← payload list with
    | .list items => return .next (f.push (← k.call callee items.toList))
    | _ => raise (.spreadArguments (← ask fun h => h.typeName list))
  | .operator name argc =>
    let (args, f) ← popMany f argc
    return .next (f.push (← callOperator k name args true))
  | .enterScope =>
    let scope ← newScope f.scope
    return .next { f with scope }
  | .exitScope =>
    if f.scope = f.baseScope then fail .baseScope
    else
      match (← loadScope f.scope).outer with
      | some scope => return .next { f with scope }
      | none => fail .outermostScope
  | .jump tag => branch f tag true
  | .jumpIfTrue tag =>
    let (condition, f) ← pop f
    branch f tag (← truthy k condition)
  | .jumpIfFalse tag =>
    let (condition, f) ← pop f
    branch f tag (!(← truthy k condition))
  | .typeTest tag =>
    let (type, f) ← pop f
    let value ← peek f
    if ← ask fun h => h.isType type then
      branch f tag (!(← ask fun h => h.isInstance value type))
    else raise (.testedType (← ask fun h => h.typeName type))
  | .negate => replaceTop f fun value => return .ofBool (!(← truthy k value))
  | .same =>
    let (b, f) ← pop f
    replaceTop f fun a => return .ofBool (a == b)
  | .iterNext tag =>
    let iterator ← peek f
    match ← catching (iterateNext k iterator) with
    | .ok item => return .next (f.push item)
    | .error e =>
      if ← isStop e then
        let (_, f) ← pop f
        branch f tag true
      else throw (.raised e)
  | .bodyStart closing =>
    match f.code.findTagFrom? (f.ip + 1) closing with
    | some stop => return .jump (stop + 1) f
    | none => fail (.unclosedBody closing)
  | .bodyEnd | .nop => return .next f
  | .makeFunction name body params generator =>
    let (function, f) ← makeFunction f name body params generator
    return .next (f.push function)
  | .makeClass name body parents =>
    let (type, f) ← makeClass k f name body parents
    return .next (f.push type)
  | .throwValue =>
    let (value, _) ← pop f
    throw (.raised (← thrown value))
  | .tryBlock block binding => protect k f block binding
  | .returnValue =>
    let (value, f) ← pop f
    return .next { f with returned := some value }
  | .yieldValue =>
    let (value, f) ← pop f
    return .yielded value f
where
  /-- Assigns to a variable. -/
  assign (s : ScopeRef) (name : String) (value : Ref) : Engine Unit := do
    let known ← ask fun h => isDiscardName name || (h.binding? s name).isSome
    if known then act (.assign s name value)
    else raise (.undefinedName name)
  /-- Removes a variable. -/
  undefine (s : ScopeRef) (name : String) : Engine Unit := do
    if (← loadScope s).vars.contains name then
      act (.undefine s name)
    else raise (.undefinedName name)

/-- How far one instruction brings a frame. -/
inductive Progress where
  /-- To another instruction. -/
  | running (frame : Frame)
  /-- To the end, or to a value handed out. -/
  | complete (completion : Completion)

/-- The frame after a step. -/
def settle (ip : Nat) : Step → Progress
  | .next f => proceed { f with ip := ip + 1 }
  | .jump target f => proceed { f with ip := target }
  | .yielded value f => .complete (.yielded value { f with ip := ip + 1 })
  | .suspended value f => .complete (.yielded value f)
where
  /-- A frame with a value to return is over. -/
  proceed (f : Frame) : Progress :=
    match f.returned with
    | some value => .complete (.done (some value))
    | none => .running f

/-- Runs one instruction of a frame. Behind the last one the frame is over. -/
def runInstruction (k : Reentry) (f : Frame) : Engine Progress := do
  match f.code.at? f.ip with
  | none => return .complete (.done none)
  | some instruction =>
    tick
    collectIfDue fun _ => f.links
    observeAt (.instruction f.ip instruction.op.name f.stack.length)
    let held := if instruction.op.runsCode then f.links else []
    let step ←
      executing ⟨instruction.op, f.ip⟩ (keeping held (execute k f instruction.op))
    return settle f.ip step

end ObjectMachine.Engine
