import ObjectMachine.Proofs.Arenas
import ObjectMachine.Proofs.Balance
/-!
What stays where it is. An operation leaves a payload in its slot that it does not change, unless it is a
collection; and a collection leaves what the roots keep. So the functions that the roots keep stay as they
are throughout a computation, and what is kept at its start is kept at its end.
-/
namespace ObjectMachine

namespace Heap

variable {h : Heap} {r : Ref} {p : Payload}

/-- What an object holds is what its payload holds, and more. -/
theorem mem_linksOf_of_payload? {l : Node} (found : h.payload? r = some p) (link : l ∈ p.links) :
    l ∈ h.linksOf (.object r) := by
  obtain ⟨o, at_r, rfl⟩ := Option.map_eq_some_iff.mp found
  simp only [linksOf, at_r, Option.map_some, Option.getD_some]
  exact List.mem_append_right _ link

end Heap

/-! ### What the roots keep -/

namespace Machine

variable {m m' : Machine} {o : Ref}

theorem Keeps.mono (keeps : m.Keeps o) (roots : ∀ n ∈ m.roots.toList, n ∈ m'.roots.toList)
    (functions : ∀ c f, m.Keeps c → m.heap.payload? c = some (.function f) →
      m'.heap.payload? c = some (.function f)) : m'.Keeps o := by
  induction keeps with
  | root mem => exact .root (roots _ mem)
  | function kept found link ih => exact .function ih (functions _ _ kept found) link

theorem Keeps.of_eq (keeps : m.Keeps o) (heap : m'.heap = m.heap) (roots : m'.roots = m.roots) : m'.Keeps o :=
  keeps.mono (fun _ mem => roots ▸ mem) fun _ _ _ found => heap ▸ found

/-- What the roots keep is marked, whatever else is. -/
theorem Keeps.marked (keeps : m.Keeps o) (nodes : List Node) (slot : m.heap.hasSlot (.object o)) :
    (m.heap.reached (m.roots.toList ++ nodes)).marked (.object o) := by
  induction keeps with
  | root mem =>
    refine Heap.marked_reached_of_root (List.mem_append_right _ ?_) slot
    exact List.mem_append_left _ mem
  | @function c r f kept found link ih =>
    obtain ⟨object, at_c, -⟩ := Option.map_eq_some_iff.mp found
    have marked := ih (Heap.hasSlot_of_object? at_c)
    exact Heap.marked_reached_of_link marked (Heap.mem_linksOf_of_payload? found link) slot

end Machine

/-! ### Operations -/

namespace Op

variable {due : Schedule} {α : Type} {rights : Rights} {m : Machine} {r : Ref}

/-- The object that an operation changes, and how. -/
def change? : Op α → Option (Ref × Change)
  | change r c => some (r, c)
  | _ => none

/-- What becomes of a slot as an operation is performed. -/
inductive Leaves (due : Schedule) (m : Machine) (o : Op α) (r : Ref) (h : Heap) : Prop where
  /-- It holds what it held. -/
  | same (at_r : h.object? r = m.heap.object? r)
  /-- It was vacant and holds a new object, which is no generator that runs. -/
  | stored (new : Object) (vacant : m.heap.object? r = none) (at_r : h.object? r = some new)
      (idle : ∀ name, new.payload ≠ .generator name .running)
  /-- Its object is changed. -/
  | changed (c : Change) (changes : o.change? = some (r, c))
      (at_r : h.object? r = (m.heap.object? r).map c.apply)
  /-- It is vacated by a collection, because the roots do not keep its object. -/
  | released (collects : due m.heap = true) (unkept : m.Keeps r → m.heap.object? r = none)
      (at_r : h.object? r = none)

theorem Leaves.of_objects_eq {o : Op α} {h : Heap} (same : h.objects = m.heap.objects) (r : Ref) :
    o.Leaves due m r h :=
  .same (by simp only [Heap.object?, same])

theorem Leaves.of_stores {o : Op α} {r' : Ref} {new : Object} {h : Heap} (stores : m.heap.Stores r' new h)
    (idle : ∀ name, new.payload ≠ .generator name .running) (r : Ref) : o.Leaves due m r h := by
  have at_r := stores.object? r
  split at at_r
  · rename_i here
    exact .stored new (here ▸ stores.vacant) at_r idle
  · exact .same at_r

/-- What an operation that is permitted leaves of each slot. -/
theorem leaves_perform (o : Op α) (w : m.heap.objects.WellFormed) (permitted : o.Permitted rights) (r : Ref) :
    o.Leaves due m r (o.perform due m).machine.heap := by
  cases o with
  | load r' =>
    simp only [perform]
    split <;> exact .same rfl
  | loadScope s =>
    simp only [perform]
    split <;> exact .same rfl
  | store new =>
    rw [perform, heap_onHeap]
    cases stored : m.heap.allocate new with
    | mk result h' =>
      cases result with
      | error e => exact .of_objects_eq (Heap.allocate_error stored).1 r
      | ok r' =>
        refine .of_stores (Heap.stores_of_allocate w stored) (fun name runs => ?_) r
        have free : new.payload.isReserved = false := permitted
        rw [runs] at free
        cases free
  | storeType name parents =>
    rw [perform, heap_onHeap]
    cases stored : m.heap.allocateType name parents with
    | mk result h' =>
      cases result with
      | error e => exact .of_objects_eq (Heap.allocateType_error stored) r
      | ok result =>
        obtain ⟨r', info, stores, -⟩ := Heap.stores_of_allocateType w stored
        exact .of_stores stores (by simp [Object.ofPayload]) r
  | openScope outer =>
    rw [perform, heap_onHeap]
    exact .of_objects_eq (m.heap.objects_allocateScope _) r
  | change r' c =>
    simp only [perform]
    split
    · have at_r := m.heap.object?_modify r' c.apply r
      split at at_r
      · rename_i here
        exact .changed c (here ▸ rfl) at_r
      · exact .same at_r
    · exact .same rfl
  | define s name value => exact .of_objects_eq (m.heap.objects_define s name value) r
  | assign s name value => exact .of_objects_eq (m.heap.objects_assign s name value) r
  | undefine s name => exact .of_objects_eq (m.heap.objects_undefine s name) r
  | tick =>
    rw [perform, heap_onHeap]
    exact .same rfl
  | collectIfDue nodes =>
    simp only [perform]
    split
    · rename_i collects
      have at_r := m.heap.object?_collect (m.roots.toList ++ nodes ()) r
      split at at_r
      · exact .same at_r
      · rename_i unmarked
        refine .released collects (fun keeps => ?_) at_r
        by_contra occupied
        obtain ⟨object, found⟩ := Option.ne_none_iff_exists'.mp occupied
        exact unmarked (keeps.marked (nodes ()) (Heap.hasSlot_of_object? found))
    · exact .same rfl
  | print s =>
    simp only [perform, printTo]
    split <;> exact .same rfl
  | beginRequest => exact permitted.elim
  | _ => exact .same rfl

/-- A payload that an operation does not change stays in its slot, except that a collection may vacate the
slot if the roots do not keep the object. -/
theorem payload?_perform {p : Payload} (o : Op α) (w : m.heap.objects.WellFormed)
    (permitted : o.Permitted rights) (spares : ∀ c, o.change? = some (r, c) → c.onPayload p = p)
    (found : m.heap.payload? r = some p) :
    (o.perform due m).machine.heap.payload? r = some p ∨
      (o.perform due m).machine.heap.object? r = none ∧ due m.heap = true ∧ ¬ m.Keeps r := by
  obtain ⟨object, occupied, rfl⟩ := Option.map_eq_some_iff.mp found
  have leaves : o.Leaves due m r _ := o.leaves_perform w permitted r
  cases leaves with
  | same at_r => exact .inl ((Heap.payload?_congr at_r).trans found)
  | stored new vacant => exact absurd (vacant.symm.trans occupied) nofun
  | changed c changes at_r =>
    left
    rw [Heap.payload?, at_r, occupied]
    exact congrArg some (spares c changes)
  | released collects unkept at_r =>
    exact .inr ⟨at_r, collects, fun keeps => absurd ((unkept keeps).symm.trans occupied) nofun⟩

theorem wellFormed_perform (o : Op α) (w : m.heap.objects.WellFormed) (defining : o.Defining) :
    (o.perform due m).machine.heap.objects.WellFormed :=
  (o.step_perform due m defining).objects w

/-- The data of an object that an operation stores. -/
def Makes (p : Payload) : Op α → Prop
  | store o => p = o.payload
  | storeType .. => p.isType
  | _ => False

/-- Where data comes from that is in a slot after an operation. -/
inductive Origin (o : Op α) (h : Heap) (r : Ref) (p : Payload) : Prop where
  /-- It was there. -/
  | kept (found : h.payload? r = some p)
  /-- The operation changed what was there. -/
  | changed (c : Change) (q : Payload) (changes : o.change? = some (r, c)) (found : h.payload? r = some q)
      (became : p = c.onPayload q)
  /-- The operation stored it. -/
  | made (makes : o.Makes p)

theorem Origin.of_objects_eq {o : Op α} {h : Heap} {p : Payload} (same : h.objects = m.heap.objects)
    (found : h.payload? r = some p) : o.Origin m.heap r p :=
  .kept (by rw [← found]; simp only [Heap.payload?, Heap.object?, same])

theorem Origin.of_stores {o : Op α} {h : Heap} {r' : Ref} {new : Object} {p : Payload}
    (stores : m.heap.Stores r' new h) (makes : o.Makes new.payload) (found : h.payload? r = some p) :
    o.Origin m.heap r p := by
  have at_r := stores.object? r
  split at at_r
  · rw [Heap.payload?, at_r] at found
    cases found
    exact .made makes
  · exact .kept ((Heap.payload?_congr at_r).symm.trans found)

/-- After an operation the slots are in order, and all data has an origin. -/
theorem origin_perform (due : Schedule) (o : Op α) (w : m.heap.objects.WellFormed) :
    (o.perform due m).machine.heap.objects.WellFormed ∧
      ∀ r p, (o.perform due m).machine.heap.payload? r = some p → o.Origin m.heap r p := by
  have still (h : Heap) (same : h.objects = m.heap.objects) :
      h.objects.WellFormed ∧ ∀ r p, h.payload? r = some p → o.Origin m.heap r p :=
    ⟨same ▸ w, fun _ _ found => .of_objects_eq same found⟩
  cases o with
  | load r' =>
    simp only [perform]
    split <;> exact still _ rfl
  | loadScope s =>
    simp only [perform]
    split <;> exact still _ rfl
  | store new =>
    rw [perform, heap_onHeap]
    cases stored : m.heap.allocate new with
    | mk result h' =>
      cases result with
      | error e => exact still _ (Heap.allocate_error stored).1
      | ok r' =>
        have stores := Heap.stores_of_allocate w stored
        exact ⟨stores.wellFormed, fun _ _ found => .of_stores stores rfl found⟩
  | storeType name parents =>
    rw [perform, heap_onHeap]
    cases stored : m.heap.allocateType name parents with
    | mk result h' =>
      cases result with
      | error e => exact still _ (Heap.allocateType_error stored)
      | ok result =>
        obtain ⟨r', info, stores, -⟩ := Heap.stores_of_allocateType w stored
        exact ⟨stores.wellFormed, fun _ _ found => .of_stores stores rfl found⟩
  | openScope outer =>
    rw [perform, heap_onHeap]
    exact still _ (m.heap.objects_allocateScope _)
  | change r' c =>
    simp only [perform]
    split
    · refine ⟨w.modify _ _, fun r p found => ?_⟩
      replace found : (m.heap.modify r' c.apply).payload? r = some p := found
      rw [Heap.payload?_modify] at found
      split at found
      · rename_i here
        obtain ⟨q, before, became⟩ := Option.map_eq_some_iff.mp found
        exact .changed c q (here ▸ rfl) before became.symm
      · exact .kept found
    · exact still _ rfl
  | define s name value => exact still _ (m.heap.objects_define s name value)
  | assign s name value => exact still _ (m.heap.objects_assign s name value)
  | undefine s name => exact still _ (m.heap.objects_undefine s name)
  | tick =>
    rw [perform, heap_onHeap]
    exact still _ rfl
  | collectIfDue nodes =>
    simp only [perform]
    split
    · refine ⟨Heap.wellFormed_collect w _, fun r p found => ?_⟩
      obtain ⟨o, at_r, rfl⟩ := Option.map_eq_some_iff.mp found
      exact .kept (Option.map_eq_some_iff.mpr ⟨o, Heap.object?_of_collect at_r, rfl⟩)
    · exact still _ rfl
  | print s =>
    simp only [perform, printTo]
    split <;> exact still _ rfl
  | _ => exact still _ rfl

end Op

/-! ### Computations -/

namespace Machine

/-- The second machine has the roots of the first one, and the functions that these keep. -/
structure Retains (r : Rights) (m m' : Machine) : Prop where
  /-- The slots are in order. -/
  wellFormed : m'.heap.objects.WellFormed
  /-- The roots are still there. -/
  roots : m.AddsRoots r m'
  /-- The functions are as they were. -/
  functions : ∀ c f, m.Keeps c → m.heap.payload? c = some (.function f) →
    m'.heap.payload? c = some (.function f)

variable {r : Rights} {m m' m'' : Machine} {o : Ref}

theorem AddsRoots.subset (added : m.AddsRoots r m') : ∀ n ∈ m.roots.toList, n ∈ m'.roots.toList := by
  obtain ⟨more, roots, -⟩ := added
  intro n mem
  rw [roots]
  exact List.mem_append_left _ mem

theorem Retains.keeps (retains : m.Retains r m') (keeps : m.Keeps o) : m'.Keeps o :=
  keeps.mono retains.roots.subset retains.functions

theorem Retains.of_eq (w : m.heap.objects.WellFormed) (heap : m'.heap = m.heap) (roots : m'.roots = m.roots) :
    m.Retains r m' :=
  ⟨heap ▸ w, .of_eq roots, fun _ _ _ found => heap ▸ found⟩

theorem Retains.trans (first : m.Retains r m') (later : m'.Retains r m'') : m.Retains r m'' := by
  refine ⟨later.wellFormed, first.roots.trans later.roots, fun c f keeps found => ?_⟩
  exact later.functions c f (first.keeps keeps) (first.functions c f keeps found)

theorem keeps_pushRoots (m : Machine) (nodes : List Node) (keeps : m.Keeps o) : (m.pushRoots nodes).Keeps o := by
  refine keeps.mono (fun n mem => ?_) fun _ _ _ found => found
  rw [roots_pushRoots]
  exact List.mem_append_left _ mem

end Machine

namespace Engine

/-- What the roots keep at the start of a computation, they keep at its end. -/
theorem carries_retains (due : Schedule) : Rights.Carries due fun r m m' =>
    m.heap.objects.WellFormed → m.Retains r m' where
  refl _ _ w := .of_eq w rfl rfl
  trans first later w := (first w).trans (later (first w).wellFormed)
  act o permitted w := by
    refine ⟨o.wellFormed_perform w permitted.defining, o.perform_addsRoots due _ permitted, ?_⟩
    intro c f keeps found
    have constant (c : Change) : c.onPayload (.function f) = .function f := by cases c <;> rfl
    exact (o.payload?_perform w permitted (fun c _ => constant c) found).resolve_right
      fun gone => gone.2.2 keeps
  keeping nodes inner w := by
    have retains := inner w
    refine ⟨retains.wellFormed, .of_eq retains.roots.truncate, fun c f keeps found => ?_⟩
    exact retains.functions c f (Machine.keeps_pushRoots _ nodes keeps) found
  nested {r m inside m'} entered inner w := by
    have start : m.Retains r inside :=
      .of_eq w (Machine.heap_of_enter entered) (Machine.roots_of_enter entered)
    have retains : m.Retains r m' := start.trans (inner start.wellFormed)
    exact retains.trans (.of_eq retains.wellFormed rfl rfl)
  observe _ _ _ w := .of_eq w rfl rfl
  finish m generator _ w := by
    refine ⟨w.modify _ _, .of_eq rfl, fun c f _ found => ?_⟩
    rw [Machine.heap_withHeap, Heap.payload?_modify, found]
    exact ite_self _
  generator _ inner := fun w => ⟨(inner w).wellFormed, (inner w).roots, (inner w).functions⟩

end Engine

end ObjectMachine
