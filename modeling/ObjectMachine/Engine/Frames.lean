import ObjectMachine.Engine.Reentry
/-!
Operands and jumps of a frame.
-/
namespace ObjectMachine

namespace Frame

/-- Pushes an operand. -/
def push (f : Frame) (value : Ref) : Frame := { f with stack := value :: f.stack }

/-- Replaces the operands. -/
def withStack (f : Frame) (stack : List Ref) : Frame := { f with stack }

end Frame

namespace Engine

/-- Takes the top operand. -/
def pop (f : Frame) : Engine (Ref × Frame) :=
  match f.stack with
  | value :: stack => return (value, f.withStack stack)
  | [] => fail .stackUnderflow

/-- The top operand. -/
def peek (f : Frame) : Engine Ref :=
  match f.stack with
  | value :: _ => return value
  | [] => fail .stackUnderflow

/-- Takes several operands, the one pushed first in front. -/
def popMany (f : Frame) (count : Nat) : Engine (List Ref × Frame) :=
  if f.stack.length < count then fail .stackUnderflow
  else return ((f.stack.take count).reverse, f.withStack (f.stack.drop count))

/-- The position of a tag. -/
def target (f : Frame) (tag : String) : Engine Nat :=
  match f.code.findTag? tag with
  | some i => return i
  | none => fail (.unknownTag tag)

end Engine

end ObjectMachine
