import ObjectMachine.Arena
import ObjectMachine.Budget
import ObjectMachine.Object
import ObjectMachine.Binary64
import ObjectMachine.Integer
import ObjectMachine.Lineage
/-!
The heap: an arena of objects and an arena of scopes, with the budget that allocations are booked
on. Questions about Types are total: a handle of a vacant slot has the root Type and no ancestors.
-/
namespace ObjectMachine

/-- All objects and scopes, and the budget for more. -/
structure Heap where
  /-- The objects. -/
  objects : Arena Object
  /-- The scopes. -/
  scopes : Arena Scope
  /-- What may still be consumed. -/
  budget : Budget
  /-- Allocations since the last collection. -/
  sinceCollection : Nat

namespace Heap

/-- The object of a handle. -/
def object? (h : Heap) (r : Ref) : Option Object := h.objects.get? r.slot

/-- The scope of a handle. -/
def scope? (h : Heap) (s : ScopeRef) : Option Scope := h.scopes.get? s.slot

/-- The payload of a handle. -/
def payload? (h : Heap) (r : Ref) : Option Payload := (h.object? r).map Object.payload

/-- Stores an object without booking it. -/
def place (h : Heap) (o : Object) : Ref × Heap :=
  match h with
  | ⟨objects, scopes, budget, since⟩ =>
    let (slot, objects) := objects.insert o
    (⟨slot⟩, ⟨objects, scopes, budget, since⟩)

/-- Stores a scope without booking it. -/
def placeScope (h : Heap) (s : Scope) : ScopeRef × Heap :=
  match h with
  | ⟨objects, scopes, budget, since⟩ =>
    let (slot, scopes) := scopes.insert s
    (⟨slot⟩, ⟨objects, scopes, budget, since⟩)

/-- Books an allocation; nothing changes if the budget refuses it. -/
def book (h : Heap) : Except Exhaustion Unit × Heap :=
  match h with
  | ⟨objects, scopes, budget, since⟩ =>
    match budget.allocate with
    | .ok budget => (.ok (), ⟨objects, scopes, budget, since + 1⟩)
    | .error e => (.error e, ⟨objects, scopes, budget, since⟩)

/-- Books and stores an object. -/
def allocate (h : Heap) (o : Object) : Except Exhaustion Ref × Heap :=
  match h.book with
  | (.ok (), h) =>
    let (r, h) := h.place o
    (.ok r, h)
  | (.error e, h) => (.error e, h)

/-- Books and stores a scope. -/
def allocateScope (h : Heap) (s : Scope) : Except Exhaustion ScopeRef × Heap :=
  match h.book with
  | (.ok (), h) =>
    let (r, h) := h.placeScope s
    (.ok r, h)
  | (.error e, h) => (.error e, h)

/-- Changes the object of a handle. -/
def modify (h : Heap) (r : Ref) (f : Object → Object) : Heap :=
  match h with
  | ⟨objects, scopes, budget, since⟩ => ⟨objects.modify r.slot f, scopes, budget, since⟩

/-- Changes the scope of a handle. -/
def modifyScope (h : Heap) (s : ScopeRef) (f : Scope → Scope) : Heap :=
  match h with
  | ⟨objects, scopes, budget, since⟩ => ⟨objects, scopes.modify s.slot f, budget, since⟩

/-- Writes a member of an object. -/
def setMember (h : Heap) (r : Ref) (name : String) (value : Ref) : Heap :=
  h.modify r fun o => { o with members := o.members.insert name value }

/-- Books one instruction. -/
def tick (h : Heap) : Except Exhaustion Unit × Heap :=
  match h with
  | ⟨objects, scopes, budget, since⟩ =>
    let (result, budget) := budget.tick
    (result, ⟨objects, scopes, budget, since⟩)

/-- Starts counting the instructions of a new request. -/
def beginRequest (h : Heap) : Heap :=
  match h with
  | ⟨objects, scopes, budget, since⟩ => ⟨objects, scopes, budget.beginRequest, since⟩

/-- Whether a collection is due. -/
def collectionDue (h : Heap) : Bool := h.budget.collectionDue h.sinceCollection

/-- Exchanges the budget, and starts counting the allocations for the next collection. -/
def withBudget (h : Heap) (budget : Budget) : Heap :=
  { h with budget, sinceCollection := 0 }

/-! ### Types -/

/-- What a Type is made of, if the handle is one of a Type. -/
def typeInfo? (h : Heap) (r : Ref) : Option TypeInfo :=
  match h.payload? r with
  | some (.type info) => some info
  | _ => none

/-- Whether a handle is one of a Type. -/
def isType (h : Heap) (r : Ref) : Bool := (h.typeInfo? r).isSome

/-- The Type of an object. -/
def typeOf (h : Heap) (r : Ref) : Ref := ((h.object? r).map Object.typeRef).getD Kind.object.ref

/-- The name of a Type; a question mark if it is none. -/
def nameOfType (h : Heap) (type : Ref) : String := ((h.typeInfo? type).map TypeInfo.name).getD "?"

/-- The name of the Type of an object. -/
def typeName (h : Heap) (r : Ref) : String := h.nameOfType (h.typeOf r)

/-- The ancestors of a Type, itself first; none if it is no Type. -/
def mro (h : Heap) (type : Ref) : List Ref := ((h.typeInfo? type).map TypeInfo.mro).getD []

/-- Whether one Type is, or inherits from, another. -/
def isSubtype (h : Heap) (sub sup : Ref) : Bool := sub == sup || (h.mro sub).contains sup

/-- Whether an object is an instance of a Type. -/
def isInstance (h : Heap) (r type : Ref) : Bool := h.isSubtype (h.typeOf r) type

/-- Books and stores a Type. Its ancestors are found when it has its handle; without an order of
them it stays without ancestors. -/
def allocateType (h : Heap) (name : String) (parents : List Ref) :
    Except Exhaustion (Except Lineage.Fault Ref) × Heap :=
  match h.allocate (.ofPayload (.type { name, parents := [], mro := [] }) none) with
  | (.error e, h) => (.error e, h)
  | (.ok type, h) =>
    match Lineage.linearize type parents h.mro with
    | .error fault => (.ok (.error fault), h)
    | .ok mro =>
      (.ok (.ok type), h.modify type fun o => { o with payload := .type { name, parents, mro } })

/-! ### Typed views -/

/-- The text of an object that holds one. -/
def str? (h : Heap) (r : Ref) : Option String :=
  match h.payload? r with
  | some (.str s) => some s
  | _ => none

/-- The integer of an object that holds one. -/
def int? (h : Heap) (r : Ref) : Option Int64 :=
  match h.payload? r with
  | some (.int i) => some i
  | _ => none

/-- The truth value of an object that holds one. -/
def bool? (h : Heap) (r : Ref) : Option Bool :=
  match h.payload? r with
  | some (.bool b) => some b
  | _ => none

/-- The own member of an object. -/
def ownMember? (h : Heap) (r : Ref) (name : String) : Option Ref :=
  (h.object? r).bind fun o => o.members.get? name

/-- The identity of an object as a map key. -/
def keyOf (h : Heap) (r : Ref) : Key :=
  match h.payload? r with
  | some .null => .null
  | some (.bool b) => .bool b
  | some (.int i) => .int i
  | some (.num x) =>
    match if x.isIntegral then Integer.ofInt? x.truncate else none with
    | some i => .int i
    | none => .num x
  | some (.str s) => .str s
  | _ => .object r

end Heap

end ObjectMachine
