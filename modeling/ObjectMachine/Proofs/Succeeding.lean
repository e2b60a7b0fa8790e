import ObjectMachine.Proofs.Operators
import ObjectMachine.Proofs.RoundTrip
/-!
Computations that are sure to give a value. A computation may be cut short by the budget for objects and by the
limit of depth; what else can go wrong is its own affair. So a computation succeeds at a cost of so many objects if it
gives a value wherever the budget has room for them; the costs of computations that follow one another add up.
-/
namespace ObjectMachine

namespace Machine

variable {m m' m'' : Machine} {n k : Nat}

/-! ### Room for calls -/

/-- So many more calls can be nested in one another. -/
def CanNest (m : Machine) (n : Nat) : Prop := ∀ limit, m.heap.depthLimit = some limit → m.depth + n ≤ limit

instance (m : Machine) (n : Nat) : Decidable (m.CanNest n) :=
  match limited : m.heap.depthLimit with
  | none => .isTrue fun _ some => by rw [limited] at some; cases some
  | some limit => decidable_of_iff (m.depth + n ≤ limit) <| by simp [CanNest, limited]

theorem CanNest.of_nesting_eq (can : m.CanNest n) (same : m'.nesting = m.nesting) : m'.CanNest n := by
  obtain ⟨depth, limits⟩ := Prod.ext_iff.mp same
  intro limit limited
  rw [show m'.depth = m.depth from depth]
  exact can limit (limits.symm.trans limited)

/-- Where calls can be nested one is, and takes its room. -/
theorem CanNest.exists_enter (can : m.CanNest (n + 1)) : ∃ inner, m.enter = .ok inner ∧ inner.CanNest n := by
  have allowed : m.heap.budget.checkDepth m.depth = .ok () := by
    rw [Budget.checkDepth_eq]
    cases limited : m.heap.budget.depthLimit with
    | none => rfl
    | some limit =>
      have := can limit limited
      exact if_neg (by omega)
  obtain ⟨heap, builtins, globals, depth, roots, printer, tracer⟩ := m
  refine ⟨⟨heap, builtins, globals, depth + 1, roots, printer, tracer⟩, ?_, ?_⟩
  · simp only [enter, allowed]
  · intro limit limited
    have : depth + (n + 1) ≤ limit := can limit limited
    show depth + 1 + n ≤ limit
    omega

theorem printer_of_enter {inner : Machine} (entered : m.enter = .ok inner) : inner.printer = m.printer := by
  simp only [enter] at entered
  split at entered <;> cases entered
  rfl

/-! ### What objects cost -/

/-- A machine has taken room for no more than so many objects, and all it had is as it was. -/
structure Spends (m : Machine) (n : Nat) (m' : Machine) : Prop where
  /-- Objects were only added. -/
  retains : m.heap.Retains m'.heap
  /-- The room that is left. -/
  rooms : ∀ k, m.heap.HasRoom (n + k) → m'.heap.HasRoom k
  /-- The depth is the same. -/
  nesting : m'.nesting = m.nesting
  /-- The roots are the same. -/
  roots : m'.roots = m.roots
  /-- Nothing was printed. -/
  printer : m'.printer = m.printer

namespace Spends

theorem refl (w : m.heap.objects.WellFormed) : m.Spends 0 m :=
  ⟨.refl w, fun k room => by rwa [Nat.zero_add] at room, rfl, rfl, rfl⟩

theorem trans (first : m.Spends n m') (later : m'.Spends k m'') : m.Spends (n + k) m'' where
  retains := first.retains.trans later.retains
  rooms j room := later.rooms j (first.rooms (k + j) (by rwa [Nat.add_assoc] at room))
  nesting := later.nesting.trans first.nesting
  roots := later.roots.trans first.roots
  printer := later.printer.trans first.printer

theorem wellFormed (spends : m.Spends n m') : m'.heap.objects.WellFormed := spends.retains.adds.wellFormed

theorem mono (spends : m.Spends n m') (le : n ≤ k) : m.Spends k m' where
  retains := spends.retains
  rooms j room := spends.rooms j (room.mono (Nat.add_le_add_right le j))
  nesting := spends.nesting
  roots := spends.roots
  printer := spends.printer

end Spends

end Machine

/-! ### Success -/

namespace Engine

variable {due : Schedule} {α β : Type} {m m' : Machine} {x : Engine α} {f : α → Engine β} {n k : Nat}
  {good : α → Heap → Prop} {good' : β → Heap → Prop}

/-- A computation gives a good value at a cost of no more than so many objects, if the budget has room for them. -/
def Succeeds (due : Schedule) (x : Engine α) (n : Nat) (good : α → Heap → Prop) (m : Machine) : Prop :=
  m.heap.HasRoom n → ∃ a m', x.runUnder due m = .ok a m' ∧ m.Spends n m' ∧ good a m'.heap

/-- Two computations that run alike succeed alike. -/
theorem Succeeds.of_runUnder_eq {y : Engine α} (succeeds : Succeeds due y n good m)
    (same : x.runUnder due m = y.runUnder due m) : Succeeds due x n good m := by
  intro room
  rw [same]
  exact succeeds room

theorem Succeeds.mono {good' : α → Heap → Prop} (succeeds : Succeeds due x n good m)
    (imp : ∀ a h, good a h → good' a h) : Succeeds due x n good' m := by
  intro room
  obtain ⟨a, m', ran, spends, holds⟩ := succeeds room
  exact ⟨a, m', ran, spends, imp a _ holds⟩

theorem Succeeds.pure (due : Schedule) (w : m.heap.objects.WellFormed) {a : α} (holds : good a m.heap) :
    Succeeds due (Pure.pure a) 0 good m :=
  fun _ => ⟨a, m, rfl, .refl w, holds⟩

/-- One computation after another costs what both cost. -/
theorem Succeeds.bind (first : Succeeds due x n good m)
    (later : ∀ a m', m.Spends n m' → good a m'.heap → Succeeds due (f a) k good' m') :
    Succeeds due (x >>= f) (n + k) good' m := by
  intro room
  obtain ⟨a, m₁, ran, spends, holds⟩ := first (room.mono (Nat.le_add_right n k))
  obtain ⟨b, m₂, ran', spends', holds'⟩ := later a m₁ spends holds (spends.rooms k room)
  refine ⟨b, m₂, ?_, spends.trans spends', holds'⟩
  rw [runUnder_bind, ran]
  exact ran'

/-- What goes on from a value that costs nothing costs what the rest costs. -/
theorem Succeeds.bind_of_ok {a : α} (ran : x.runUnder due m = .ok a m) (later : Succeeds due (f a) k good' m) :
    Succeeds due (x >>= f) k good' m :=
  later.of_runUnder_eq (by rw [runUnder_bind, ran])

/-- An object is stored at the cost of one. -/
theorem succeeds_new (due : Schedule) (w : m.heap.objects.WellFormed) (payload : Payload) :
    Succeeds due (new payload) 1 (fun r h => h.object? r = some (.ofPayload payload none)) m := by
  intro room
  obtain ⟨r, h, allocated, stores, rooms⟩ := Heap.exists_allocate_ok (.ofPayload payload none) w room
  obtain ⟨heap, builtins, globals, depth, roots, printer, tracer⟩ := m
  refine ⟨r, ⟨h, builtins, globals, depth, roots, printer, tracer⟩, ?_, ?_, ?_⟩
  · simp only [new, runUnder, Op.perform, Op.onHeap, allocated]
  · have limit := heap.depthLimit_allocate (.ofPayload payload none)
    rw [allocated] at limit
    exact ⟨⟨.of_stores stores, stores.scopes⟩, fun k => (rooms k).mpr, Prod.ext rfl limit, rfl, rfl⟩
  · exact (stores.object? r).trans (if_pos rfl)

/-- Roots do not matter for success, and are as before in the end. -/
theorem Succeeds.keeping {nodes : List Node} (succeeds : Succeeds due x n good (m.pushRoots nodes)) :
    Succeeds due (keeping nodes x) n good m := by
  intro room
  obtain ⟨a, m₁, ran, spends, holds⟩ := succeeds room
  have roots : (m₁.truncateRoots m.roots.size).roots = m.roots := by
    show m₁.roots.shrink m.roots.size = m.roots
    rw [spends.roots]
    exact congrArg Machine.roots (m.truncateRoots_pushRoots nodes)
  refine ⟨a, m₁.truncateRoots m.roots.size, ?_, ?_, holds⟩
  · simp only [runUnder, ran, dropRoots]
  · exact ⟨spends.retains, spends.rooms, spends.nesting, roots, spends.printer⟩

/-- A call that can be nested succeeds if it does one deeper. -/
theorem Succeeds.calling {inner : Machine} {name : String} {args : List Ref} (entered : m.enter = .ok inner)
    (succeeds : Succeeds due x n good (inner.observe (.call name))) :
    Succeeds due (calling name args x) n good m := by
  have heap : inner.heap = m.heap := Machine.heap_of_enter entered
  intro room
  obtain ⟨a, m₁, ran, spends, holds⟩ := succeeds (heap ▸ room)
  have nesting : m₁.nesting = inner.nesting := spends.nesting
  have roots : m₁.roots = inner.roots := spends.roots
  have printer : m₁.printer = inner.printer := spends.printer
  refine ⟨a, (m₁.observe .leave).leave, ?_, ?_, holds⟩
  · simp only [runUnder, entered, ran]
  · constructor
    · exact heap ▸ spends.retains
    · exact heap ▸ spends.rooms
    · exact Machine.nesting_leave entered nesting
    · exact roots.trans (Machine.roots_of_enter entered)
    · exact printer.trans (Machine.printer_of_enter entered)

end Engine

end ObjectMachine
