import ObjectMachine.Engine.Members
import ObjectMachine.Engine.Operators
import ObjectMachine.Integer
/-!
Iteration. Built-in iterators and generators are advanced here; any other iterator has a member
`next`. The end of an iteration is an error, which loops catch.
-/
namespace ObjectMachine.Engine

/-- The iterator of a value; iterators and generators are their own. -/
def getIterator (k : Reentry) (value : Ref) : Engine Ref := do
  match ← payload value with
  | .iterator _ | .generator .. => return value
  | _ => callOperator k "op_iter" [value] false

/-- The item at a cursor and the cursor behind it. -/
def advance (cursor : Cursor) : Engine (Ref × Cursor) := do
  match cursor with
  | .list list index =>
    match ← payload list with
    | .list items =>
      match items[index]? with
      | some item => return (item, .list list (index + 1))
      | none => raise .stopped
    | _ => unexpected "list" list
  | .text text offset =>
    match ← payload text with
    | .str s =>
      match String.Pos.Raw.get? s ⟨offset⟩ with
      | some c =>
        let item ← newStr (String.singleton c)
        return (item, .text text (offset + c.utf8Size))
      | none => raise .stopped
    | _ => unexpected "string" text
  | .range next stop step =>
    if (if 0 < step then next < stop else stop < next) then
      let item ← newInt next
      return (item, .range ((Integer.add? next step).getD stop) stop step)
    else raise .stopped
  | .keys map index =>
    match ← payload map with
    | .map entries =>
      match entries.entryAt? index with
      | some (_, key, _) => return (key, .keys map (index + 1))
      | none => raise .stopped
    | _ => unexpected "map" map

/-- The next item of a built-in iterator. -/
def iteratorNext (iterator : Ref) : Engine Ref := do
  match ← payload iterator with
  | .iterator cursor =>
    let (item, cursor) ← advance cursor
    change iterator (.cursor cursor)
    return item
  | _ => unexpected "iterator" iterator

/-- Resumes a generator at a frame; `before` is its state until the call is nested. -/
def resume (k : Reentry) (generator : Ref) (name : String) (frame : Frame)
    (before : GeneratorState) : Engine Ref := do
  change generator (.generator .running)
  match ← resuming generator name (k.runFrame frame) with
  | .error e =>
    change generator (.generator before)
    throw (.raised e)
  | .ok (.ok (.yielded value frame)) =>
    observeAt .suspend
    change generator (.generator (.suspended frame))
    return value
  | .ok (.ok (.done _)) =>
    change generator (.generator .finished)
    raise .stopped
  | .ok (.error e) =>
    change generator (.generator .finished)
    throw (.raised (e.withLayer name []))

/-- The next item of a generator. -/
def generatorNext (k : Reentry) (generator : Ref) : Engine Ref := do
  match ← payload generator with
  | .generator name .running => raise (.alreadyRunning name)
  | .generator _ .finished => raise .stopped
  | .generator name (.fresh frame) => resume k generator name frame (.fresh frame)
  | .generator name (.suspended frame) => resume k generator name frame (.suspended frame)
  | _ => fail .notGenerator

/-- The next item of an iterator. -/
def iterateNext (k : Reentry) (iterator : Ref) : Engine Ref := do
  match ← payload iterator with
  | .iterator _ => iteratorNext iterator
  | .generator .. => generatorNext k iterator
  | _ =>
    let next ← getMember k iterator "next"
    k.call next []

/-- Takes one more item, or ends with those taken. -/
def drain (k : Reentry) (iterator : Ref) (taken : List Ref) : Engine (List Ref) := do
  match ← catching (iterateNext k iterator) with
  | .ok item =>
    pushRoots [.object item]
    k.drain iterator (item :: taken)
  | .error e => if ← isStop e then return taken.reverse else throw (.raised e)

/-- All items of an iterable. -/
def collectItems (k : Reentry) (iterable : Ref) : Engine (List Ref) := do
  let iterator ← getIterator k iterable
  keepingObjects [iterator] (drain k iterator [])

end ObjectMachine.Engine
