import ObjectMachine.Heap
import ObjectMachine.Object.Links
/-!
Collection of garbage. Marking proceeds in waves: a wave marks the nodes that were found and finds
the nodes they hold; sweeping vacates what was not marked.
-/
namespace ObjectMachine

/-- Which slots are marked. -/
structure Marks where
  /-- The marks of the objects. -/
  objects : Array Bool
  /-- The marks of the scopes. -/
  scopes : Array Bool

namespace Marks

/-- Whether a node is marked. -/
def marked (m : Marks) : Node → Bool
  | .object r => m.objects[r.slot]?.getD false
  | .scope s => m.scopes[s.slot]?.getD false

/-- Whether a node has a slot. -/
def inRange (m : Marks) : Node → Bool
  | .object r => r.slot < m.objects.size
  | .scope s => s.slot < m.scopes.size

/-- Marks a node. -/
def mark (m : Marks) (n : Node) : Marks :=
  match m, n with
  | ⟨objects, scopes⟩, .object r => ⟨objects.setIfInBounds r.slot true, scopes⟩
  | ⟨objects, scopes⟩, .scope s => ⟨objects, scopes.setIfInBounds s.slot true⟩

/-- Marks the nodes that have a slot and are not marked yet, and lists them. -/
def markAll (m : Marks) : List Node → List Node → List Node × Marks
  | found, [] => (found, m)
  | found, n :: rest =>
    if m.inRange n && !m.marked n then (m.mark n).markAll (n :: found) rest
    else m.markAll found rest

end Marks

namespace Heap

/-- The nodes that a node holds. -/
def linksOf (h : Heap) : Node → List Node
  | .object r => ((h.object? r).map Object.links).getD []
  | .scope s => ((h.scope? s).map Scope.links).getD []

/-- Marks waves of nodes until one finds nothing new, at most `waves` of them. -/
def spread (h : Heap) (m : Marks) (wave : List Node) : Nat → Marks
  | 0 => m
  | waves + 1 =>
    let (found, m) := m.markAll [] wave
    if found.isEmpty then m else h.spread m (found.flatMap h.linksOf) waves

/-- No node is marked. -/
def noMarks (h : Heap) : Marks :=
  ⟨Array.replicate h.objects.size false, Array.replicate h.scopes.size false⟩

/-- The nodes that are alive whatever the roots are. -/
def permanentRoots : List Node := objectNodes (Ref.singletons ++ builtinTypeRefs)

/-- Marks everything that can be reached from the roots. Every wave but the last marks a slot, so
there are no more waves than slots and one. -/
def reached (h : Heap) (roots : List Node) : Marks :=
  h.spread h.noMarks (permanentRoots ++ roots) (h.objects.size + h.scopes.size + 1)

/-- Releases everything that cannot be reached from the roots, and tells how many objects that
were. -/
def collect (h : Heap) (roots : List Node) : Nat × Heap :=
  let m := h.reached roots
  let objects := h.objects.doomed fun i => m.marked (.object ⟨i⟩)
  let scopes := h.scopes.doomed fun i => m.marked (.scope ⟨i⟩)
  (objects.length,
    { objects := h.objects.release objects
      scopes := h.scopes.release scopes
      budget := h.budget.free (objects.length + scopes.length)
      sinceCollection := 0 })

/-! ### Census -/

/-- A count of what a heap holds. -/
structure Census where
  /-- Occupied object slots. -/
  liveObjects : Nat
  /-- Vacant object slots. -/
  freeSlots : Nat
  /-- All object slots. -/
  totalSlots : Nat
  /-- Occupied scope slots. -/
  liveScopes : Nat
  /-- Objects by the name of their payload, in the order of the names. -/
  byLabel : List (String × Nat)
  /-- All allocations on the budget, if there is an account. -/
  allocations : Option Nat

/-- The names of all payloads, in order. -/
def payloadLabels : List String :=
  ["BaseView", "Bool", "Error", "Function", "Generator", "Int", "Iterator", "List", "Map", "Null",
    "Num", "Plain", "Range", "Str", "Type"]

/-- Counts what the heap holds. -/
def census (h : Heap) : Census :=
  let labels := h.objects.items.map fun o => o.payload.label
  { liveObjects := h.objects.live
    freeSlots := h.objects.free.length
    totalSlots := h.objects.size
    liveScopes := h.scopes.live
    byLabel := (payloadLabels.map fun l => (l, labels.count l)).filter fun e => e.2 != 0
    allocations := h.budget.allocations? }

end Heap

end ObjectMachine
