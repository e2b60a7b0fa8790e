import Mathlib.Data.List.Nodup
import ObjectMachine.Proofs.Marking
import ObjectMachine.Machine
/-!
What is stored where. Every operation of an arena keeps the free list well formed, and every operation
of the heap says what it leaves in each slot: a new object gets a vacant slot, a change stays within
one object, and a collection keeps exactly what is marked.
-/
namespace ObjectMachine

namespace Arena

variable {α : Type} {a : Arena α}

theorem get?_of_size_le {i : Nat} (h : a.size ≤ i) : a.get? i = none := by
  simp [get?, size] at h ⊢
  simp [Array.getElem?_eq_none h]

theorem lt_size_of_get? {i : Nat} {x : α} (h : a.get? i = some x) : i < a.size := by
  by_contra ge
  rw [get?_of_size_le (Nat.le_of_not_lt ge)] at h
  cases h

/-- Without vacant slots and without a free list, an arena is in order. -/
theorem WellFormed.of_full (free : a.free = []) (full : a.slots.toList.all Option.isSome) :
    a.WellFormed := by
  refine ⟨by simp [free], fun i => ?_⟩
  rw [free]
  constructor
  · intro mem
    cases mem
  · rintro ⟨lt, vacant⟩
    obtain ⟨x, found⟩ : ∃ x, a.slots[i]? = some x := ⟨_, Array.getElem?_eq_getElem lt⟩
    have occupied := List.all_eq_true.mp full x (by simpa using Array.mem_of_getElem? found)
    simp only [get?, found, Option.join_some] at vacant
    rw [vacant] at occupied
    cases occupied

/-- A new item gets a slot that was vacant. -/
theorem WellFormed.get?_insert_slot (w : a.WellFormed) (x : α) : a.get? (a.insert x).1 = none := by
  obtain ⟨slots, free⟩ := a
  cases free with
  | nil => exact get?_of_size_le (Nat.le_refl _)
  | cons i rest => exact ((w.mem_free_iff i).mp List.mem_cons_self).2

theorem WellFormed.get?_insert (w : a.WellFormed) (x : α) (j : Nat) :
    (a.insert x).2.get? j = if j = (a.insert x).1 then some x else a.get? j := by
  obtain ⟨slots, free⟩ := a
  cases free with
  | nil =>
    simp only [insert, get?, Array.getElem?_push]
    by_cases last : j = slots.size <;> simp [last]
  | cons i rest =>
    have lt : i < slots.size := ((w.mem_free_iff i).mp List.mem_cons_self).1
    simp only [insert, get?, Array.getElem?_setIfInBounds, lt, ↓reduceIte, eq_comm (a := j)]
    split <;> rfl

theorem size_insert (a : Arena α) (x : α) : a.size ≤ (a.insert x).2.size := by
  obtain ⟨slots, free⟩ := a
  cases free <;> simp [insert, size]

theorem WellFormed.insert (w : a.WellFormed) (x : α) : (a.insert x).2.WellFormed := by
  obtain ⟨slots, free⟩ := a
  cases free with
  | nil =>
    refine ⟨List.nodup_nil, fun i => ?_⟩
    have vacant := w.mem_free_iff i
    simp only [Arena.insert, size, get?, Array.size_push, Array.getElem?_push] at vacant ⊢
    grind
  | cons i rest =>
    have nodup : i ∉ rest ∧ rest.Nodup := List.nodup_cons.mp w.nodup_free
    refine ⟨nodup.2, fun j => ?_⟩
    have vacant := w.mem_free_iff j
    simp only [Arena.insert, size, get?, Array.size_setIfInBounds, Array.getElem?_setIfInBounds,
      List.mem_cons] at vacant ⊢
    grind

theorem get?_modify (a : Arena α) (i : Nat) (f : α → α) (j : Nat) :
    (a.modify i f).get? j = if i = j then (a.get? j).map f else a.get? j := by
  simp only [modify, get?, Array.getElem?_modify]
  split
  · cases a.slots[j]? with
    | none => rfl
    | some x => cases x <;> rfl
  · rfl

theorem modify_modify (a : Arena α) (i : Nat) (f g : α → α) :
    (a.modify i f).modify i g = a.modify i (g ∘ f) := by
  obtain ⟨slots, free⟩ := a
  simp only [modify, mk.injEq, and_true]
  refine Array.ext_getElem? fun j => ?_
  simp only [Array.getElem?_modify]
  split
  · rw [Option.map_map, Option.map_comp_map]
  · rfl

/-- A change of an item that leaves it as it is. -/
theorem modify_eq_self {a : Arena α} {i : Nat} {f : α → α} (same : ∀ x, a.get? i = some x → f x = x) :
    a.modify i f = a := by
  obtain ⟨slots, free⟩ := a
  simp only [modify, mk.injEq, and_true]
  refine Array.ext_getElem? fun j => ?_
  simp only [Array.getElem?_modify]
  split <;> rename_i here
  · subst here
    simp only [get?] at same
    cases found : slots[i]? with
    | none => rfl
    | some item =>
      cases item with
      | none => rfl
      | some x => simp [same x (by rw [found]; rfl)]
  · rfl

@[simp] theorem size_modify (a : Arena α) (i : Nat) (f : α → α) : (a.modify i f).size = a.size := by
  simp [modify, size]

theorem WellFormed.modify (w : a.WellFormed) (i : Nat) (f : α → α) :
    (a.modify i f).WellFormed := by
  refine ⟨w.nodup_free, fun j => ?_⟩
  rw [size_modify, get?_modify]
  split
  · rw [Option.map_eq_none_iff]
    exact w.mem_free_iff j
  · exact w.mem_free_iff j

@[simp] theorem size_release (a : Arena α) (gone : List Nat) : (a.release gone).size = a.size := by
  obtain ⟨slots, free⟩ := a
  simp only [release, size]
  induction gone generalizing slots with
  | nil => rfl
  | cons i rest ih => simp [ih]

theorem get?_release (a : Arena α) (gone : List Nat) (j : Nat) :
    (a.release gone).get? j = if j ∈ gone then none else a.get? j := by
  obtain ⟨slots, free⟩ := a
  simp only [release, get?]
  induction gone generalizing slots with
  | nil => rfl
  | cons i rest ih =>
    rw [List.foldl_cons, ih, Array.getElem?_setIfInBounds]
    grind

theorem mem_doomed {keep : Nat → Bool} {i : Nat} :
    i ∈ a.doomed keep ↔ (a.get? i).isSome ∧ keep i = false := by
  simp only [doomed, List.mem_filter, List.mem_range, Bool.and_eq_true, Bool.not_eq_true', occupied]
  constructor
  · exact fun h => h.2
  · intro h
    obtain ⟨x, found⟩ := Option.isSome_iff_exists.mp h.1
    exact ⟨lt_size_of_get? found, h⟩

theorem WellFormed.release_doomed (w : a.WellFormed) (keep : Nat → Bool) :
    (a.release (a.doomed keep)).WellFormed := by
  have free : (a.release (a.doomed keep)).free = (a.doomed keep).reverse ++ a.free := rfl
  have doomed : (a.doomed keep).Nodup := List.nodup_range.filter _
  constructor
  · rw [free, List.nodup_append]
    refine ⟨List.nodup_reverse.mpr doomed, w.nodup_free, ?_⟩
    rintro i gone _ vacant rfl
    have occupied := (mem_doomed.mp (List.mem_reverse.mp gone)).1
    rw [((w.mem_free_iff i).mp vacant).2] at occupied
    cases occupied
  · intro i
    rw [free, List.mem_append, List.mem_reverse, size_release, get?_release, w.mem_free_iff i]
    by_cases gone : i ∈ a.doomed keep
    · obtain ⟨x, found⟩ := Option.isSome_iff_exists.mp (mem_doomed.mp gone).1
      simp [gone, lt_size_of_get? found]
    · simp [gone]

end Arena

/-- An ancestor order holds at least the Type itself. -/
theorem Lineage.ne_nil_of_linearize {α : Type} [DecidableEq α] {self : α} {parents order : List α}
    {orderOf : α → List α} (h : linearize self parents orderOf = .ok order) : order ≠ [] := by
  simp only [linearize] at h
  split at h
  · cases h
    simp
  · split at h
    · cases h
    · cases merged : merge 1 (parents.map orderOf ++ [parents])
          ((parents.map orderOf ++ [parents]).flatten.length + 1) with
      | error fault =>
        simp only [merged, Except.map] at h
        cases h
      | ok rest =>
        simp only [merged, Except.map, Except.ok.injEq] at h
        simp [← h]

namespace Heap

variable {h h' : Heap}

theorem objects_book (h : Heap) : h.book.2.objects = h.objects := by
  simp only [book]
  split <;> rfl

theorem scopes_book (h : Heap) : h.book.2.scopes = h.scopes := by
  simp only [book]
  split <;> rfl

/-- What an allocation leaves behind when the budget refuses it. -/
theorem allocate_error {o : Object} {e : Exhaustion} (stored : h.allocate o = (.error e, h')) :
    h'.objects = h.objects ∧ h'.scopes = h.scopes := by
  rw [← h.objects_book, ← h.scopes_book]
  simp only [allocate] at stored
  split at stored
  · cases stored
  · rename_i booked
    cases stored
    exact ⟨by rw [booked], by rw [booked]⟩

theorem allocateType_error {name : String} {parents : List Ref} {e : Exhaustion}
    (stored : h.allocateType name parents = (.error e, h')) : h'.objects = h.objects := by
  simp only [allocateType] at stored
  split at stored
  · rename_i refused
    cases stored
    exact (allocate_error refused).1
  · split at stored <;> cases stored

/-- A new object is stored in a vacant slot. -/
structure Stores (h : Heap) (r : Ref) (o : Object) (h' : Heap) : Prop where
  /-- The slot was vacant. -/
  vacant : h.object? r = none
  /-- It holds the object; all other slots are as before. -/
  object? : ∀ r', h'.object? r' = if r' = r then some o else h.object? r'
  /-- The free list stays well formed. -/
  wellFormed : h'.objects.WellFormed
  /-- No slot vanishes. -/
  size_le : h.objects.size ≤ h'.objects.size
  /-- The scopes are as before. -/
  scopes : h'.scopes = h.scopes

theorem stores_of_allocate {o : Object} {r : Ref} (w : h.objects.WellFormed)
    (stored : h.allocate o = (.ok r, h')) : h.Stores r o h' := by
  have objects := h.objects_book
  have scopes := h.scopes_book
  simp only [allocate] at stored
  split at stored
  · rename_i booked
    rw [booked] at objects scopes
    simp only [place, Prod.mk.injEq, Except.ok.injEq] at stored objects scopes
    obtain ⟨rfl, rfl⟩ := stored
    rw [objects]
    refine ⟨w.get?_insert_slot o, ?_, w.insert o, Arena.size_insert _ o, scopes⟩
    rintro ⟨slot⟩
    simp only [Heap.object?, w.get?_insert o slot, Ref.mk.injEq]
  · cases stored

theorem object?_modify (h : Heap) (r : Ref) (f : Object → Object) (r' : Ref) :
    (h.modify r f).object? r' = if r = r' then (h.object? r').map f else h.object? r' := by
  obtain ⟨slot⟩ := r
  obtain ⟨slot'⟩ := r'
  simp only [modify, object?, Arena.get?_modify, Ref.mk.injEq]

/-- A new Type is stored with the ancestors that were found, or with none. -/
theorem stores_of_allocateType {name : String} {parents : List Ref}
    {result : Except Lineage.Fault Ref} (w : h.objects.WellFormed)
    (stored : h.allocateType name parents = (.ok result, h')) :
    ∃ r info, h.Stores r (.ofPayload (.type info) none) h' ∧
      ∀ type, result = .ok type → type = r ∧ info.mro ≠ [] := by
  simp only [allocateType] at stored
  split at stored
  · cases stored
  · rename_i type h₁ allocated
    have stores := stores_of_allocate w allocated
    split at stored
    · cases stored
      exact ⟨type, _, stores, by simp⟩
    · rename_i mro linear
      cases stored
      refine ⟨type, ⟨name, parents, mro⟩, ⟨stores.vacant, ?_, stores.wellFormed.modify _ _, ?_, ?_⟩,
        ?_⟩
      · intro r'
        rw [object?_modify, stores.object?]
        by_cases same : r' = type
        · simp [same, Object.ofPayload]
        · simp [same, Ne.symm same]
      · simpa [modify] using stores.size_le
      · exact stores.scopes
      · rintro _ ⟨⟩
        exact ⟨rfl, Lineage.ne_nil_of_linearize linear⟩

theorem objects_define (h : Heap) (s : ScopeRef) (name : String) (value : Ref) :
    (h.define s name value).objects = h.objects := by
  simp only [define]
  split <;> rfl

theorem objects_assign (h : Heap) (s : ScopeRef) (name : String) (value : Ref) :
    ((h.assign? s name value).getD h).objects = h.objects := by
  simp only [assign?]
  split
  · rfl
  · split <;> rfl

theorem objects_undefine (h : Heap) (s : ScopeRef) (name : String) :
    ((h.undefine? s name).getD h).objects = h.objects := by
  simp only [undefine?]
  split
  · rfl
  · split <;> rfl

theorem objects_allocateScope (h : Heap) (s : Scope) :
    (h.allocateScope s).2.objects = h.objects := by
  rw [← h.objects_book]
  simp only [allocateScope]
  split <;> rename_i booked <;> simp only [booked, placeScope]

/-- A collection keeps the objects that are marked and vacates all other slots. -/
theorem object?_collect (h : Heap) (roots : List Node) (r : Ref) :
    (h.collect roots).2.object? r =
      if (h.reached roots).marked (.object r) then h.object? r else none := by
  obtain ⟨slot⟩ := r
  simp only [collect, object?, Arena.get?_release, Arena.mem_doomed]
  cases marked : (h.reached roots).marked (.object ⟨slot⟩) with
  | true => simp
  | false =>
    cases found : h.objects.get? slot with
    | none => simp
    | some o => simp

theorem wellFormed_collect (w : h.objects.WellFormed) (roots : List Node) :
    (h.collect roots).2.objects.WellFormed :=
  w.release_doomed _

theorem hasSlot_of_object? {r : Ref} {o : Object} (found : h.object? r = some o) :
    h.hasSlot (.object r) := by
  simp only [hasSlot, decide_eq_true_eq]
  exact Arena.lt_size_of_get? found

end Heap

end ObjectMachine
