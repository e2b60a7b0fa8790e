import ObjectMachine.Binary64
/-!
Instructions. Jump targets are tags, not positions, so a bracketed stretch of code can be cut out
and run on its own. The comment on each opcode gives its effect on the operand stack, the top of
the stack on the right.
-/
namespace ObjectMachine

/-- A parameter as a function-making instruction describes it. -/
structure ParamSpec where
  /-- The name under which the body sees the argument. -/
  name : String
  /-- Whether a default value is taken from the operand stack. -/
  hasDefault : Bool
  /-- Whether the parameter collects all further arguments. -/
  rest : Bool
  /-- The variable that holds the declared Type. -/
  typeName : Option String
deriving DecidableEq

/-- What an instruction does. -/
inductive Opcode where
  /-- Pushes an integer: `[] -> [value]`. -/
  | pushInt (value : Int64)
  /-- Pushes a number: `[] -> [value]`. -/
  | pushNum (value : Binary64)
  /-- Pushes a text: `[] -> [value]`. -/
  | pushStr (value : String)
  /-- Pushes a truth value: `[] -> [value]`. -/
  | pushBool (value : Bool)
  /-- Pushes `null`: `[] -> [null]`. -/
  | pushNull
  /-- Drops operands: `[a1 .. an] -> []`. -/
  | pop (count : Nat)
  /-- Doubles the top operand: `[a] -> [a a]`. -/
  | dup
  /-- Exchanges the two top operands: `[a b] -> [b a]`. -/
  | swap
  /-- Makes a list: `[a1 .. an] -> [list]`. -/
  | buildList (count : Nat)
  /-- Makes a map: `[k1 v1 .. kn vn] -> [map]`. -/
  | buildMap (count : Nat)
  /-- Reads a variable: `[] -> [value]`. -/
  | getVar (name : String)
  /-- Defines a variable in the current scope: `[value] -> []`. -/
  | defineVar (name : String)
  /-- Assigns to the innermost variable of that name: `[value] -> []`. -/
  | setVar (name : String)
  /-- Removes a variable from the current scope: `[] -> []`. -/
  | deleteVar (name : String)
  /-- Reads a member: `[object] -> [value]`. -/
  | getMember (name : String)
  /-- Writes a member: `[object value] -> []`. -/
  | setMember (name : String)
  /-- Removes a member: `[object] -> []`. -/
  | deleteMember (name : String)
  /-- Calls: `[callee a1 .. an] -> [result]`. -/
  | call (argc : Nat)
  /-- Calls with the items of a list: `[callee list] -> [result]`. -/
  | callSpread
  /-- Applies an operator: `[a1 .. an] -> [result]`. -/
  | operator (name : String) (argc : Nat)
  /-- Opens a scope: `[] -> []`. -/
  | enterScope
  /-- Closes the innermost scope: `[] -> []`. -/
  | exitScope
  /-- Continues at a tag: `[] -> []`. -/
  | jump (target : String)
  /-- Continues at a tag if the operand is true: `[condition] -> []`. -/
  | jumpIfTrue (target : String)
  /-- Continues at a tag if the operand is false: `[condition] -> []`. -/
  | jumpIfFalse (target : String)
  /-- Continues at a tag unless the value is an instance of the Type: `[value type] -> [value]`. -/
  | typeTest (target : String)
  /-- Negates a truth value: `[value] -> [negation]`. -/
  | negate
  /-- Compares identities: `[a b] -> [same]`. -/
  | same
  /-- Advances an iterator, or drops it and continues at a tag when it has ended:
  `[iterator] -> [iterator item]` or `[iterator] -> []`. -/
  | iterNext (target : String)
  /-- Opens a bracketed body; running into it continues after its end: `[] -> []`. -/
  | bodyStart (closing : String)
  /-- Closes a bracketed body: `[] -> []`. -/
  | bodyEnd
  /-- Makes a function from a body: `[defaults] -> [function]`. -/
  | makeFunction (name body : String) (params : List ParamSpec) (generator : Bool)
  /-- Makes a Type from a body: `[parents] -> [type]`. -/
  | makeClass (name body : String) (parents : Nat)
  /-- Raises an error: `[value] -> stops`. -/
  | throwValue
  /-- Runs the sections of a protected block: `[] -> []`. -/
  | tryBlock (block : String) (binding : Option String)
  /-- Ends the frame with a value: `[value] -> stops`. -/
  | returnValue
  /-- Hands out a value and waits: `[value] -> []`. -/
  | yieldValue
  /-- Does nothing: `[] -> []`. -/
  | nop
deriving DecidableEq

/-- An opcode with the tag that marks its place, if any. -/
structure Instruction where
  /-- What is done. -/
  op : Opcode
  /-- The tag of this place. -/
  tag : Option String
deriving DecidableEq

namespace Opcode

/-- The name of the opcode. -/
def name : Opcode → String
  | pushInt _ => "PushInt"
  | pushNum _ => "PushNum"
  | pushStr _ => "PushStr"
  | pushBool _ => "PushBool"
  | pushNull => "PushNull"
  | pop _ => "Pop"
  | dup => "Dup"
  | swap => "Swap"
  | buildList _ => "BuildList"
  | buildMap _ => "BuildMap"
  | getVar _ => "GetVar"
  | defineVar _ => "DefineVar"
  | setVar _ => "SetVar"
  | deleteVar _ => "DeleteVar"
  | getMember _ => "GetMember"
  | setMember _ => "SetMember"
  | deleteMember _ => "DeleteMember"
  | call _ => "Call"
  | callSpread => "CallSpread"
  | operator .. => "Operator"
  | enterScope => "EnterScope"
  | exitScope => "ExitScope"
  | jump _ => "Jump"
  | jumpIfTrue _ => "JumpIfTrue"
  | jumpIfFalse _ => "JumpIfFalse"
  | typeTest _ => "TypeTest"
  | negate => "Not"
  | same => "Is"
  | iterNext _ => "IterNext"
  | bodyStart _ => "BodyStart"
  | bodyEnd => "BodyEnd"
  | makeFunction .. => "MakeFunction"
  | makeClass .. => "MakeClass"
  | throwValue => "Throw"
  | tryBlock .. => "Try"
  | returnValue => "Return"
  | yieldValue => "Yield"
  | nop => "Nop"

/-- Whether executing the opcode may run other code, so that its operands have to be kept alive
meanwhile. -/
def runsCode : Opcode → Bool
  | getMember _ | setMember _ | deleteMember _ | call _ | callSpread | operator .. | jumpIfTrue _
  | jumpIfFalse _ | negate | iterNext _ | makeClass .. | tryBlock .. => true
  | _ => false

end Opcode

end ObjectMachine
