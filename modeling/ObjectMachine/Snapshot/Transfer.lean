import ObjectMachine.Snapshot
import ObjectMachine.Heap
/-!
The way of values between the heap and the host. Taking a snapshot unfolds the objects that a value
holds, down to a fixed depth, and cuts where a container is its own ancestor; storing is possible
for data only.
-/
namespace ObjectMachine

namespace Payload

/-- What stands for a container that is not taken apart again. -/
def placeholder : Payload → String
  | list _ => "[...]"
  | map _ => "\x7b...\x7d"
  | _ => "<...>"

end Payload

namespace Heap

/-! ### Taking -/

/-- How many containers may stand inside one another in a snapshot. -/
def snapshotDepth : Nat := 100

/-- The snapshot of an object that is no container. -/
def leafSnapshot? (h : Heap) (r : Ref) (o : Object) : Option Snapshot :=
  match o.payload with
  | .null => some .null
  | .bool b => some (.bool b)
  | .int i => some (.int i)
  | .num x => some (.num x)
  | .str s => some (.str s)
  | .range range => some (.range range.start range.stop range.step)
  | .type info => some (.type info.name)
  | .function f => some (.function f.name)
  | .iterator _ => some .iterator
  | .generator name _ => some (.generator name)
  | .error .. =>
    some (.error (h.typeName r) (((o.members.get? "message").bind h.str?).getD ""))
  | .plain | .list _ | .map _ | .baseView .. => none

/-- The snapshot of a value that stands inside the containers of `path`, with room for so many more
of them; `none` if a handle leads to a vacant slot. -/
def snapshotWithin? (h : Heap) : Nat → List Ref → Ref → Option Snapshot
  | 0, _, r =>
    (h.object? r).map fun o => (h.leafSnapshot? r o).getD (.cycle o.payload.placeholder)
  | room + 1, path, r => do
    let o ← h.object? r
    match h.leafSnapshot? r o with
    | some leaf => return leaf
    | none =>
      if path.contains r then return .cycle o.payload.placeholder
      else
        match o.payload with
        | .list items =>
          return .list (← items.toList.mapM fun v => h.snapshotWithin? room (r :: path) v)
        | .map entries =>
          let pairs ← entries.values.mapM fun e => do
            let key ← h.snapshotWithin? room (r :: path) e.1
            let value ← h.snapshotWithin? room (r :: path) e.2
            return (key, value)
          return .map pairs
        | .baseView target _ => h.snapshotWithin? room (r :: path) target
        | _ =>
          let members ← o.members.entries.mapM fun e => do
            let value ← h.snapshotWithin? room (r :: path) e.2
            return (e.1, value)
          return .plain (h.typeName r) members

/-- The snapshot of a value. -/
def snapshot? (h : Heap) (r : Ref) : Option Snapshot := h.snapshotWithin? snapshotDepth [] r

end Heap

/-! ### Storing -/

/-- Why a snapshot cannot be stored. -/
inductive StoreFault where
  /-- Not data. -/
  | notData (kindName : String)
  /-- The budget refuses. -/
  | exhausted (exhaustion : Exhaustion)
deriving DecidableEq

namespace StoreFault

/-- The wording of a fault. -/
def message : StoreFault → String
  | notData kindName => s!"'{kindName}' is not a valid input value"
  | exhausted e => e.kind.name ++ ": " ++ e.message

end StoreFault

namespace Snapshot

/-- Books and stores an object for the host. -/
def storePayload (payload : Payload) : EStateM StoreFault Heap Ref := fun h =>
  match h.allocate (.ofPayload payload none) with
  | (.ok r, h) => .ok r h
  | (.error e, h) => .error (.exhausted e) h

mutual

/-- Stores a snapshot: the parts of a container first, in order. -/
def store : Snapshot → EStateM StoreFault Heap Ref
  | null => return .null
  | bool b => return .ofBool b
  | int i => storePayload (.int i)
  | num x => storePayload (.num x)
  | str s => storePayload (.str s)
  | list items => do
    let refs ← storeItems items
    storePayload (.list refs.toArray)
  | map entries => do
    let stored ← storeEntries .empty entries
    storePayload (.map stored)
  | other => throw (.notData other.kindName)

/-- Stores the items of a list. -/
def storeItems : List Snapshot → EStateM StoreFault Heap (List Ref)
  | [] => return []
  | v :: later => do
    let r ← store v
    let refs ← storeItems later
    return r :: refs

/-- Stores the entries of a map and writes them over those in `done`. -/
def storeEntries (done : Entries) :
    List (Snapshot × Snapshot) → EStateM StoreFault Heap Entries
  | [] => return done
  | (key, v) :: later => do
    let keyObject ← store key
    let value ← store v
    let h ← get
    storeEntries (done.put (h.keyOf keyObject) keyObject value) later

end

end Snapshot

end ObjectMachine
