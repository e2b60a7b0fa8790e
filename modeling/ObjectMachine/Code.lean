import ObjectMachine.Opcode
/-!
Code is a sequence of instructions. A slice is code again, with positions counted from its own
start, and `bodyFrom?` cuts out what stands between a body's opening and closing instruction.
-/
namespace ObjectMachine

/-- A sequence of instructions. -/
structure Code where
  /-- The instructions, in order. -/
  instructions : Array Instruction
deriving DecidableEq

namespace Code

/-- The code of a list of instructions. -/
def ofList (l : List Instruction) : Code := ⟨l.toArray⟩

/-- The number of instructions. -/
def size (c : Code) : Nat := c.instructions.size

/-- The instruction at a position. -/
def at? (c : Code) (i : Nat) : Option Instruction := c.instructions[i]?

/-- The instructions as a list. -/
def toList (c : Code) : List Instruction := c.instructions.toList

/-- The first of the `n` positions from `i` on that carries the tag. -/
def searchTag (instructions : Array Instruction) (tag : String) : Nat → Nat → Option Nat
  | 0, _ => none
  | n + 1, i =>
    match instructions[i]? with
    | some instruction =>
      if instruction.tag = some tag then some i else searchTag instructions tag n (i + 1)
    | none => none

/-- The first position at or after `start` that carries the tag. -/
def findTagFrom? (c : Code) (start : Nat) (tag : String) : Option Nat :=
  searchTag c.instructions tag (c.size - start) start

/-- The first position that carries the tag. -/
def findTag? (c : Code) (tag : String) : Option Nat := c.findTagFrom? 0 tag

/-- The instructions from `start` up to, and without, `stop`. -/
def slice (c : Code) (start stop : Nat) : Code := ⟨c.instructions.extract start stop⟩

/-- A body found in code. -/
structure Body where
  /-- The position of the opening instruction. -/
  start : Nat
  /-- The position of the closing instruction. -/
  stop : Nat
  /-- What stands between them. -/
  code : Code

/-- The body whose opening instruction is the first at or after `start` with the tag. There is none
if that instruction opens no body, or if nothing after it carries the closing tag. -/
def bodyFrom? (c : Code) (start : Nat) (tag : String) : Option Body :=
  match c.findTagFrom? start tag with
  | none => none
  | some opening =>
    match c.at? opening with
    | some { op := .bodyStart closing, .. } =>
      (c.findTagFrom? (opening + 1) closing).map fun stop =>
        { start := opening, stop, code := c.slice (opening + 1) stop }
    | _ => none

end Code

end ObjectMachine
