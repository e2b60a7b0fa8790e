import ObjectMachine.Proofs.Garbage
import ObjectMachine.Proofs.KindAgreement
import ObjectMachine.Proofs.Passages
/-!
The arenas. Throughout a session the free lists name exactly the vacant slots, each once, and the first
object slots hold the singletons. So an allocation gets a vacant slot and touches no other, and one that
the budget refuses changes nothing.
-/
namespace ObjectMachine

/-! ### Counting slots -/

namespace Arena

variable {α : Type} {a : Arena α}

/-- The items are those that are found slot by slot. -/
theorem items_eq_filterMap (a : Arena α) : a.items = (List.range a.size).filterMap a.get? := by
  have slots : a.slots.toList = (List.range a.size).map a.get? := by
    refine List.ext_getElem (by simp [size]) fun i lt _ => ?_
    have bound : i < a.slots.size := by simpa using lt
    simp [get?, Array.getElem?_eq_getElem bound]
  rw [items, slots, List.filterMap_map]
  rfl

/-- There are as many items as occupied slots. -/
theorem live_eq_countP (a : Arena α) : a.live = (List.range a.size).countP a.occupied := by
  rw [live, items_eq_filterMap, List.length_filterMap_eq_countP]
  rfl

/-- Every slot is occupied or free. -/
theorem WellFormed.live_add_free (w : a.WellFormed) : a.live + a.free.length = a.size := by
  have vacant : a.free.Perm ((List.range a.size).filter fun i => !a.occupied i) := by
    refine (List.perm_ext_iff_of_nodup w.nodup_free (List.nodup_range.filter _)).mpr fun i => ?_
    rw [w.mem_free_iff, List.mem_filter, List.mem_range, Bool.not_eq_true', occupied,
      Option.isSome_eq_false_iff, Option.isNone_iff_eq_none]
  calc a.live + a.free.length
      = (List.range a.size).countP a.occupied + (List.range a.size).countP (!a.occupied ·) := by
        rw [live_eq_countP, vacant.length_eq, ← List.countP_eq_length_filter]
    _ = a.size := by
        have split := List.length_eq_countP_add_countP a.occupied (l := List.range a.size)
        simp only [List.length_range, Bool.not_eq_true, Bool.decide_eq_false] at split
        exact split.symm

end Arena

namespace Heap

variable {h h' : Heap}

/-! ### What an allocation does -/

theorem scopes_allocate (h : Heap) (o : Object) : (h.allocate o).2.scopes = h.scopes := by
  rw [← h.scopes_book]
  simp only [allocate]
  split <;> rename_i booked <;> simp only [booked, place]

theorem scopes_allocateType (h : Heap) (name : String) (parents : List Ref) :
    (h.allocateType name parents).2.scopes = h.scopes := by
  rw [← h.scopes_allocate (.ofPayload (.type { name, parents := [], mro := [] }) none)]
  simp only [allocateType]
  split
  · rename_i stored
    rw [stored]
  · rename_i stored
    rw [stored]
    split <;> rfl

/-- A new scope is stored in a vacant slot. -/
structure StoresScope (h : Heap) (s : ScopeRef) (scope : Scope) (h' : Heap) : Prop where
  /-- The slot was vacant. -/
  vacant : h.scope? s = none
  /-- It holds the scope; all other slots are as before. -/
  scope? : ∀ s', h'.scope? s' = if s' = s then some scope else h.scope? s'
  /-- The free list stays well formed. -/
  wellFormed : h'.scopes.WellFormed
  /-- The objects are as before. -/
  objects : h'.objects = h.objects

theorem stores_of_allocateScope {scope : Scope} {s : ScopeRef} (w : h.scopes.WellFormed)
    (stored : h.allocateScope scope = (.ok s, h')) : h.StoresScope s scope h' := by
  have objects := h.objects_book
  have scopes := h.scopes_book
  simp only [allocateScope] at stored
  split at stored
  · rename_i booked
    rw [booked] at objects scopes
    simp only [placeScope, Prod.mk.injEq, Except.ok.injEq] at stored objects scopes
    obtain ⟨rfl, rfl⟩ := stored
    rw [scopes]
    refine ⟨w.get?_insert_slot scope, ?_, w.insert scope, objects⟩
    rintro ⟨slot⟩
    simp only [Heap.scope?, w.get?_insert scope slot, ScopeRef.mk.injEq]
  · cases stored

/-- What the budget refuses to book changes nothing. -/
theorem eq_of_book_error {e : Exhaustion} (refused : h.book = (.error e, h')) : h' = h := by
  simp only [book] at refused
  split at refused <;> cases refused
  rfl

theorem eq_of_allocate_error {o : Object} {e : Exhaustion}
    (refused : h.allocate o = (.error e, h')) : h' = h := by
  simp only [allocate] at refused
  split at refused
  · cases refused
  · rename_i booked
    cases refused
    exact eq_of_book_error booked

theorem eq_of_allocateScope_error {scope : Scope} {e : Exhaustion}
    (refused : h.allocateScope scope = (.error e, h')) : h' = h := by
  simp only [allocateScope] at refused
  split at refused
  · cases refused
  · rename_i booked
    cases refused
    exact eq_of_book_error booked

theorem eq_of_allocateType_error {name : String} {parents : List Ref} {e : Exhaustion}
    (refused : h.allocateType name parents = (.error e, h')) : h' = h := by
  simp only [allocateType] at refused
  split at refused
  · rename_i objectRefused
    cases refused
    exact eq_of_allocate_error objectRefused
  · split at refused <;> cases refused

end Heap

/-! ### What a step keeps -/

/-- A payload that every change leaves as it is. -/
def Payload.Constant (p : Payload) : Prop := ∀ c : Change, c.onPayload p = p

namespace Payload

theorem constant_null : Constant null := fun c => by cases c <;> rfl

theorem constant_bool (b : Bool) : Constant (bool b) := fun c => by cases c <;> rfl

theorem constant_type (info : TypeInfo) : Constant (type info) := fun c => by cases c <;> rfl

end Payload

namespace Heap

variable {h h' : Heap} {p : Payload} {r : Ref}

theorem payload?_congr (same : h'.object? r = h.object? r) : h'.payload? r = h.payload? r :=
  congrArg (Option.map Object.payload) same

theorem objects_changeAll (w : h.objects.WellFormed) (changes : List (Ref × Change)) :
    (h.changeAll changes).objects.WellFormed := by
  induction changes generalizing h with
  | nil => exact w
  | cons c later ih => exact ih (w.modify _ _)

theorem scopes_changeAll (h : Heap) (changes : List (Ref × Change)) :
    (h.changeAll changes).scopes = h.scopes := by
  induction changes generalizing h with
  | nil => rfl
  | cons c later ih => exact ih (h.modify c.1 c.2.apply)

theorem payload?_changeAll (constant : p.Constant) (found : h.payload? r = some p)
    (changes : List (Ref × Change)) : (h.changeAll changes).payload? r = some p := by
  induction changes generalizing h with
  | nil => exact found
  | cons c later ih =>
    refine ih ?_
    rw [payload?_modify, found]
    split
    · exact congrArg some (constant c.2)
    · rfl

/-- A constant payload stays in its slot, unless the step is a collection that does not reach it. -/
theorem Step.payload?_or_collect (step : h.Step h') (w : h.objects.WellFormed) (constant : p.Constant)
    (found : h.payload? r = some p) :
    h'.payload? r = some p ∨ ∃ roots, h' = (h.collect roots).2 ∧ ¬ (h.reached roots).marked (.object r) := by
  obtain ⟨o, at_r, rfl⟩ := Option.map_eq_some_iff.mp found
  have elsewhere {r₁ : Ref} {o₁ : Object} {h₁ : Heap} (stores : h.Stores r₁ o₁ h₁) :
      h₁.payload? r = some o.payload := by
    have other : r ≠ r₁ := by
      rintro rfl
      rw [stores.vacant] at at_r
      cases at_r
    exact (payload?_congr (by rw [stores.object?, if_neg other])).trans found
  cases step with
  | store o₁ data =>
    left
    cases stored : h.allocate o₁ with
    | mk result h₁ =>
      cases result with
      | error e => rw [eq_of_allocate_error stored, found]
      | ok r₁ => exact elsewhere (stores_of_allocate w stored)
  | storeType name parents some =>
    left
    cases stored : h.allocateType name parents with
    | mk result h₁ =>
      cases result with
      | error e => rw [eq_of_allocateType_error stored, found]
      | ok result =>
        obtain ⟨r₁, info, stores, -⟩ := stores_of_allocateType w stored
        exact elsewhere stores
  | openScope s =>
    have same : (h.allocateScope s).2.object? r = h.object? r := by
      simp only [object?, objects_allocateScope]
    exact .inl ((payload?_congr same).trans found)
  | change changes => exact .inl (payload?_changeAll constant found changes)
  | bind s f => exact .inl found
  | tick => exact .inl found
  | beginRequest => exact .inl found
  | collect roots =>
    by_cases marked : (h.reached roots).marked (.object r)
    · have same : (h.collect roots).2.object? r = h.object? r := by rw [object?_collect, if_pos marked]
      exact .inl ((payload?_congr same).trans found)
    · exact .inr ⟨roots, rfl, marked⟩

/-- A constant payload stays in its slot, except that a collection may vacate the slot. -/
theorem Step.payload? (step : h.Step h') (w : h.objects.WellFormed) (constant : p.Constant)
    (found : h.payload? r = some p) :
    h'.payload? r = some p ∨ h'.object? r = none ∧ .object r ∉ permanentRoots := by
  obtain ⟨o, at_r, -⟩ := Option.map_eq_some_iff.mp found
  rcases step.payload?_or_collect w constant found with kept | ⟨roots, rfl, unmarked⟩
  · exact .inl kept
  · refine .inr ⟨by rw [object?_collect, if_neg unmarked], fun permanent => unmarked ?_⟩
    exact marked_reached_of_root (List.mem_append_left _ permanent) (hasSlot_of_object? at_r)

/-- Every step keeps the free list of the objects in order. -/
theorem Step.objects (step : h.Step h') (w : h.objects.WellFormed) : h'.objects.WellFormed := by
  cases step with
  | store o data =>
    cases stored : h.allocate o with
    | mk result h₁ =>
      cases result with
      | error e => rwa [eq_of_allocate_error stored]
      | ok r => exact (stores_of_allocate w stored).wellFormed
  | storeType name parents some =>
    cases stored : h.allocateType name parents with
    | mk result h₁ =>
      cases result with
      | error e => rwa [eq_of_allocateType_error stored]
      | ok result =>
        obtain ⟨r, info, stores, -⟩ := stores_of_allocateType w stored
        exact stores.wellFormed
  | openScope s => rwa [objects_allocateScope]
  | change changes => exact objects_changeAll w changes
  | bind s f => exact w
  | tick => exact w
  | beginRequest => exact w
  | collect roots => exact wellFormed_collect w roots

/-- Every step keeps the free list of the scopes in order. -/
theorem Step.scopes (step : h.Step h') (w : h.scopes.WellFormed) : h'.scopes.WellFormed := by
  cases step with
  | store o data => rwa [scopes_allocate]
  | storeType name parents some => rwa [scopes_allocateType]
  | openScope s =>
    cases stored : h.allocateScope s with
    | mk result h₁ =>
      cases result with
      | error e => rwa [eq_of_allocateScope_error stored]
      | ok r => exact (stores_of_allocateScope w stored).wellFormed
  | change changes => rwa [scopes_changeAll]
  | bind s f => exact w.modify _ _
  | tick => exact w
  | beginRequest => exact w
  | collect roots => exact w.release_doomed _

/-! ### Sessions -/

/-- The handles and the payloads of the singletons. -/
def singletonPayloads : List (Ref × Payload) :=
  [(.null, .null), (.yes, .bool true), (.no, .bool false)]

/-- Both free lists are in order, and the first slots hold the singletons. -/
structure Orderly (h : Heap) : Prop where
  /-- The object slots are in order. -/
  objects : h.objects.WellFormed
  /-- The scope slots are in order. -/
  scopes : h.scopes.WellFormed
  /-- The singletons are where they belong. -/
  singletons : ∀ s ∈ singletonPayloads, h.payload? s.1 = some s.2

theorem mem_singletons {s : Ref × Payload} (mem : s ∈ singletonPayloads) :
    s.1 ∈ Ref.singletons ∧ s.2.Constant := by
  simp only [singletonPayloads, List.mem_cons, List.not_mem_nil, or_false] at mem
  rcases mem with rfl | rfl | rfl
  · exact ⟨by decide, Payload.constant_null⟩
  · exact ⟨by decide, Payload.constant_bool true⟩
  · exact ⟨by decide, Payload.constant_bool false⟩

/-- Every step keeps a heap in order: a collection cannot vacate the slots of the singletons, which
are permanent roots. -/
theorem Orderly.step (orderly : h.Orderly) (step : h.Step h') : h'.Orderly := by
  refine ⟨step.objects orderly.objects, step.scopes orderly.scopes, fun s mem => ?_⟩
  obtain ⟨singleton, constant⟩ := mem_singletons mem
  have kept := step.payload? orderly.objects constant (orderly.singletons s mem)
  exact kept.resolve_right fun gone => gone.2 (mem_permanentRoots_of_singleton singleton)

theorem orderly_boot : boot.Orderly where
  objects := wellFormed_boot
  scopes := .of_full (by decide +kernel) (by decide +kernel)
  singletons := by decide +kernel

theorem Orderly.withBudget (orderly : h.Orderly) (budget : Budget) : (h.withBudget budget).Orderly :=
  ⟨orderly.objects, orderly.scopes, orderly.singletons⟩

end Heap

namespace Machine

/-- The heaps of a session are all in order. -/
theorem orderly_of_mem_passage {budget : Budget} {tracer : Tracer} {actions : List HostAction} {h : Heap}
    (mem : h ∈ (boot budget tracer).passage actions) : h.Orderly := by
  refine (boot budget tracer).invariant_passage actions ?_ (fun _ _ _ _ step orderly => orderly.step step)
    h mem
  rw [heap_boot]
  exact Heap.orderly_boot.withBudget budget

/-- In every heap of a session the free lists name each vacant slot once and no other, the first slots
hold the singletons, and every slot is counted as occupied or as free. So an object or a scope that is
stored gets a vacant slot and touches no other slot, and one that the budget refuses changes nothing. -/
theorem arenas_in_order (budget : Budget) (tracer : Tracer) (actions : List HostAction) (h : Heap)
    (mem : h ∈ (boot budget tracer).passage actions) :
    h.objects.WellFormed ∧ h.scopes.WellFormed ∧
    h.payload? ⟨0⟩ = some .null ∧ h.payload? ⟨1⟩ = some (.bool true) ∧
    h.payload? ⟨2⟩ = some (.bool false) ∧
    h.census.liveObjects + h.census.freeSlots = h.census.totalSlots ∧
    (∀ o, match h.allocate o with
      | (.ok r, h') => h.Stores r o h'
      | (.error _, h') => h' = h) ∧
    (∀ name parents, match h.allocateType name parents with
      | (.ok _, h') => ∃ r info, h.Stores r (.ofPayload (.type info) none) h'
      | (.error _, h') => h' = h) ∧
    ∀ scope, match h.allocateScope scope with
      | (.ok s, h') => h.StoresScope s scope h'
      | (.error _, h') => h' = h := by
  have orderly := orderly_of_mem_passage mem
  have singleton := orderly.singletons
  simp only [Heap.singletonPayloads, List.forall_mem_cons] at singleton
  obtain ⟨null, yes, no, -⟩ := singleton
  refine ⟨orderly.objects, orderly.scopes, null, yes, no, orderly.objects.live_add_free, ?_, ?_, ?_⟩
  · intro o
    split
    · rename_i stored
      exact Heap.stores_of_allocate orderly.objects stored
    · rename_i refused
      exact Heap.eq_of_allocate_error refused
  · intro name parents
    split
    · rename_i stored
      obtain ⟨r, info, stores, -⟩ := Heap.stores_of_allocateType orderly.objects stored
      exact ⟨r, info, stores⟩
    · rename_i refused
      exact Heap.eq_of_allocateType_error refused
  · intro scope
    split
    · rename_i stored
      exact Heap.stores_of_allocateScope orderly.scopes stored
    · rename_i refused
      exact Heap.eq_of_allocateScope_error refused

/-- One object may be stored. A list is refused after its item, and leaves the heap with the item. -/
theorem arenas_in_order_at_limit :
    let m := boot (.ofLimits ⟨none, some 1, none, none, none⟩) .silent
    let h := (m.afterSession [.store (.list [.int 1])]).heap
    let list : Object := .ofPayload (.list #[]) none
    h ∈ m.passage [.store (.list [.int 1])] ∧
      h.census.liveObjects = Heap.boot.census.liveObjects + 1 ∧
      h.census.liveObjects + h.census.freeSlots = h.census.totalSlots ∧ (h.allocate list).2 = h := by
  intro m h list
  have mem : h ∈ m.passage _ := m.heap_afterSession_mem_passage _
  have refused : (h.allocate list).1 = .error (.allocation 1 2) := by decide +kernel
  have live : h.census.liveObjects = Heap.boot.census.liveObjects + 1 := by decide +kernel
  obtain ⟨-, -, -, -, -, counts, stores, -⟩ := arenas_in_order _ _ _ h mem
  clear_value h
  refine ⟨mem, live, counts, ?_⟩
  have unchanged := stores list
  split at unchanged
  · rename_i stored
    rw [stored] at refused
    cases refused
  · rename_i stored
    rw [stored]
    exact unchanged

end Machine

end ObjectMachine
