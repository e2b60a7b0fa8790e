import ObjectMachine.Code
/-!
Assembly of code. Statements describe code with nested blocks; the assembler lays them out as a flat
sequence, hands out labels that no other statement receives, and attaches each tag to the
instruction that follows it.
-/
namespace ObjectMachine

/-- A piece of code to be laid out. -/
inductive Statement where
  /-- One instruction. -/
  | op (op : Opcode)
  /-- A tag for the next instruction. -/
  | label (tag : String)
  /-- Pushes a label that is handed out now, as a text. -/
  | fresh (stem : String)
  /-- Pushes an integer. -/
  | int (value : Int64)
  /-- Pushes a text. -/
  | str (value : String)
  /-- Reads a variable. -/
  | get (name : String)
  /-- Defines a variable. -/
  | define (name : String)
  /-- Applies an operator. -/
  | operator (name : String) (argc : Nat)
  /-- A bracketed body. -/
  | body (tag : String) (block : List Statement)
  /-- A function, and the instruction that makes it. -/
  | function (name : String) (params : List ParamSpec) (generator : Bool) (block : List Statement)
  /-- A Type, and the instruction that makes it. -/
  | typeDef (name : String) (parents : Nat) (block : List Statement)
  /-- A protected block with its handler and its cleanup, if any. -/
  | protect (binding : Option String) (block : List Statement)
      (handler cleanup : Option (List Statement))
  /-- A loop over the items of an iterable. -/
  | forEach (name : String) (iterable block : List Statement)

/-- Code under construction. -/
structure Assembler where
  /-- The instructions laid out so far. -/
  emitted : Array Instruction
  /-- A tag that waits for an instruction. -/
  pendingTag : Option String
  /-- How many labels were handed out. -/
  labels : Nat

namespace Assembler

/-- Nothing laid out yet. -/
def empty : Assembler := ⟨#[], none, 0⟩

/-- Appends an instruction, which takes the waiting tag. -/
def emit (a : Assembler) (op : Opcode) : Assembler :=
  { a with emitted := a.emitted.push { op, tag := a.pendingTag }, pendingTag := none }

/-- Sets the tag of the next instruction. A tag that is still waiting gets an instruction of its
own. -/
def label (a : Assembler) (tag : String) : Assembler :=
  let a := if a.pendingTag.isSome then a.emit .nop else a
  { a with pendingTag := some tag }

/-- Hands out a label with the given stem. -/
def freshLabel (a : Assembler) (stem : String) : String × Assembler :=
  let n := a.labels + 1
  (stem ++ "#" ++ toString n, { a with labels := n })

/-- The tag that closes a body. -/
def closingTag (tag : String) : String := tag ++ ".end"

/-- Opens a body. -/
def openBody (a : Assembler) (tag : String) : Assembler :=
  (a.label tag).emit (.bodyStart (closingTag tag))

/-- Closes a body. -/
def closeBody (a : Assembler) (tag : String) : Assembler :=
  (a.label (closingTag tag)).emit .bodyEnd

mutual

/-- Lays out one statement. -/
def statement (a : Assembler) : Statement → Assembler
  | .op op => a.emit op
  | .label tag => a.label tag
  | .fresh stem =>
    let (tag, a) := a.freshLabel stem
    a.emit (.pushStr tag)
  | .int value => a.emit (.pushInt value)
  | .str value => a.emit (.pushStr value)
  | .get name => a.emit (.getVar name)
  | .define name => a.emit (.defineVar name)
  | .operator name argc => a.emit (.operator name argc)
  | .body tag inner => (block (a.openBody tag) inner).closeBody tag
  | .function name params generator inner =>
    let (tag, a) := a.freshLabel ("fn." ++ name)
    ((block (a.openBody tag) inner).closeBody tag).emit (.makeFunction name tag params generator)
  | .typeDef name parents inner =>
    let (tag, a) := a.freshLabel ("class." ++ name)
    ((block (a.openBody tag) inner).closeBody tag).emit (.makeClass name tag parents)
  | .protect binding inner handler cleanup =>
    let (tag, a) := a.freshLabel "try"
    let a := a.emit (.tryBlock tag binding)
    let a := (block (a.openBody (tag ++ ".try")) inner).closeBody (tag ++ ".try")
    let a := part? a (tag ++ ".catch") handler
    part? a (tag ++ ".finally") cleanup
  | .forEach name iterable inner =>
    let (head, a) := a.freshLabel "loop"
    let (done, a) := a.freshLabel "loop.done"
    let a := (block (a.emit (.getVar "iter")) iterable).emit (.call 1)
    let a := ((a.label head).emit (.iterNext done)).emit (.defineVar name)
    let a := (block a inner).emit (.jump head)
    (a.label done).emit .nop

/-- Lays out statements one after another. -/
def block (a : Assembler) : List Statement → Assembler
  | [] => a
  | s :: rest => block (statement a s) rest

/-- Lays out a section of a protected block, if there is one. -/
def part? (a : Assembler) (tag : String) : Option (List Statement) → Assembler
  | none => a
  | some inner => (block (a.openBody tag) inner).closeBody tag

end

/-- The code laid out. A tag that still waits gets an instruction of its own. -/
def finish (a : Assembler) : Code :=
  ⟨(if a.pendingTag.isSome then a.emit .nop else a).emitted⟩

end Assembler

/-- The code that a list of statements describes. -/
def assemble (statements : List Statement) : Code := (Assembler.empty.block statements).finish

end ObjectMachine
