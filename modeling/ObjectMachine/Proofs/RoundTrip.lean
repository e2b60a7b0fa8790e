import Mathlib.Data.List.TakeWhile
import ObjectMachine.Proofs.Merging
import ObjectMachine.Proofs.Population
import ObjectMachine.Proofs.Spelling
/-!
The way of host data into the heap and back. What is stored is found again, except that the entries of a map with
keys of the same identity are merged; a snapshot with a part that is no data is refused because of the first such
part; and all objects that were there before stay as they are.
-/
namespace ObjectMachine

namespace Snapshot

/-! ### What is stored -/

/-- Whether a snapshot is of a kind that a host cannot store. -/
def isForeign : Snapshot → Bool
  | null | bool _ | int _ | num _ | str _ | list _ | map _ => false
  | _ => true

/-- Whether an object is made to store a snapshot; there is one for `null` and for each truth value. -/
def isBooked : Snapshot → Bool
  | null | bool _ => false
  | _ => true

mutual

/-- The parts of a snapshot in the order in which they are stored, itself last. -/
def parts : Snapshot → List Snapshot
  | list items => partsOfItems items ++ [list items]
  | map entries => partsOfEntries entries ++ [map entries]
  | s => [s]

/-- The parts of the items of a list. -/
def partsOfItems : List Snapshot → List Snapshot
  | [] => []
  | v :: later => v.parts ++ partsOfItems later

/-- The parts of the entries of a map. -/
def partsOfEntries : List (Snapshot × Snapshot) → List Snapshot
  | [] => []
  | (key, v) :: later => key.parts ++ (v.parts ++ partsOfEntries later)

end

/-- How many objects are made to store parts, up to the first one that cannot be stored. -/
def demand (parts : List Snapshot) : Nat := (parts.takeWhile fun p => !p.isForeign).countP isBooked

/-- The identity of a snapshot as a map key; containers have none, because each is an object of its own. -/
def identity? : Snapshot → Option Key
  | null => some .null
  | bool b => some (.bool b)
  | int i => some (.int i)
  | num x =>
    match if x.isIntegral then Integer.ofInt? x.truncate else none with
    | some i => some (.int i)
    | none => some (.num x)
  | str s => some (.str s)
  | _ => none

/-- Whether two snapshots are the same map key. -/
def sameKey (a b : Snapshot) : Bool := a.identity?.isSome && decide (a.identity? = b.identity?)

mutual

/-- A snapshot with the entries of each map in it merged. -/
def merged : Snapshot → Snapshot
  | list items => list (mergedItems items)
  | map entries => map (mergeBy sameKey (mergedEntries entries))
  | s => s

/-- Items with the entries of each map in them merged. -/
def mergedItems : List Snapshot → List Snapshot
  | [] => []
  | v :: later => v.merged :: mergedItems later

/-- Entries with the entries of each map in them merged. -/
def mergedEntries : List (Snapshot × Snapshot) → List (Snapshot × Snapshot)
  | [] => []
  | (key, v) :: later => (key.merged, v.merged) :: mergedEntries later

end

theorem identity?_merged (s : Snapshot) : s.merged.identity? = s.identity? := by
  cases s <;> rfl

theorem identity?_ne_object {s : Snapshot} {r : Ref} : s.identity? ≠ some (.object r) := by
  cases s <;> simp [identity?]
  split <;> simp

theorem sameKey_iff {a b : Snapshot} : sameKey a b ↔ ∃ k, a.identity? = some k ∧ b.identity? = some k := by
  rw [sameKey, Bool.and_eq_true, decide_eq_true_eq, Option.isSome_iff_exists]
  constructor
  · rintro ⟨⟨k, isKey⟩, same⟩
    exact ⟨k, isKey, same ▸ isKey⟩
  · rintro ⟨k, isKey, isKey'⟩
    exact ⟨⟨k, isKey⟩, isKey.trans isKey'.symm⟩

/-! ### Merging does not nest more deeply -/

theorem nestingItems_le_iff {items : List Snapshot} {n : Nat} :
    nestingItems items ≤ n ↔ ∀ v ∈ items, v.nesting ≤ n := by
  induction items with
  | nil => exact iff_of_true (Nat.zero_le n) (List.forall_mem_nil _)
  | cons v later ih => rw [nestingItems, Nat.max_le, ih, List.forall_mem_cons]

theorem nestingEntries_le_iff {entries : List (Snapshot × Snapshot)} {n : Nat} :
    nestingEntries entries ≤ n ↔ ∀ e ∈ entries, e.1.nesting ≤ n ∧ e.2.nesting ≤ n := by
  induction entries with
  | nil => exact iff_of_true (Nat.zero_le n) (List.forall_mem_nil _)
  | cons e later ih =>
    obtain ⟨key, v⟩ := e
    rw [nestingEntries, Nat.max_le, Nat.max_le, ih, List.forall_mem_cons]

mutual

theorem nesting_merged_le (s : Snapshot) : s.merged.nesting ≤ s.nesting := by
  cases s with
  | list items => exact Nat.add_le_add_right (nesting_mergedItems_le items) 1
  | map entries =>
    refine Nat.add_le_add_right (nestingEntries_le_iff.mpr fun e mem => ?_) 1
    have each := nestingEntries_le_iff.mp (nesting_mergedEntries_le entries)
    obtain ⟨x, ofKey, key⟩ := exists_mem_of_mem_mergeBy mem
    obtain ⟨y, ofValue, value⟩ := exists_value_of_mem_mergeBy mem
    exact ⟨key ▸ (each x ofKey).1, value ▸ (each y ofValue).2⟩
  | _ => exact Nat.le_refl _

theorem nesting_mergedItems_le (items : List Snapshot) : nestingItems (mergedItems items) ≤ nestingItems items := by
  cases items with
  | nil => exact Nat.le_refl _
  | cons v later =>
    have first := nesting_merged_le v
    have rest := nesting_mergedItems_le later
    rw [mergedItems, nestingItems, nestingItems]
    omega

theorem nesting_mergedEntries_le (entries : List (Snapshot × Snapshot)) :
    nestingEntries (mergedEntries entries) ≤ nestingEntries entries := by
  match entries with
  | [] => exact Nat.le_refl _
  | (key, v) :: later =>
    have ofKey := nesting_merged_le key
    have ofValue := nesting_merged_le v
    have rest := nesting_mergedEntries_le later
    rw [mergedEntries, nestingEntries, nestingEntries]
    omega

end

/-! ### What is demanded -/

theorem demand_append_of_foreign {p : Snapshot} {parts : List Snapshot} (found : parts.find? isForeign = some p)
    (later : List Snapshot) : demand (parts ++ later) = demand parts := by
  induction parts with
  | nil => cases found
  | cons v parts ih =>
    rw [List.find?_cons] at found
    rw [List.cons_append, demand, demand, List.takeWhile_cons, List.takeWhile_cons]
    cases foreign : v.isForeign with
    | true => rfl
    | false =>
      rw [foreign] at found
      have rest := ih found
      rw [demand, demand] at rest
      rw [Bool.not_false, if_pos rfl, if_pos rfl, List.countP_cons, List.countP_cons, rest]

theorem demand_append_of_data {parts : List Snapshot} (data : parts.find? isForeign = none) (later : List Snapshot) :
    demand (parts ++ later) = demand parts + demand later := by
  have all : ∀ p ∈ parts, (!p.isForeign) = true := by
    intro p mem
    rw [Bool.not_eq_true', Bool.eq_false_iff]
    exact List.find?_eq_none.mp data p mem
  rw [demand, demand, demand, List.takeWhile_append_of_pos all, List.countP_append,
    List.takeWhile_eq_self_iff.mpr all]

end Snapshot

/-! ### Room for objects -/

/-- A budget has room for so many more allocations. -/
def Budget.HasRoom (n : Nat) : Budget → Prop
  | unlimited => True
  | limited a => ∀ limit, a.limits.maxAllocations = some limit → n ≤ limit - a.live

instance (n : Nat) : (b : Budget) → Decidable (b.HasRoom n)
  | .unlimited => .isTrue trivial
  | .limited a =>
    match max : a.limits.maxAllocations with
    | none => .isTrue fun _ some => by rw [max] at some; cases some
    | some limit => decidable_of_iff (n ≤ limit - a.live) <| by simp [Budget.HasRoom, max]

theorem Budget.HasRoom.mono {b : Budget} {n k : Nat} (room : b.HasRoom n) (le : k ≤ n) : b.HasRoom k := by
  cases b with
  | unlimited => trivial
  | limited a => exact fun limit max => le.trans (room limit max)

/-- Where there is room for an allocation, it is booked, and takes this room. -/
theorem Budget.exists_allocate_ok {b : Budget} (room : b.HasRoom 1) :
    ∃ b', b.allocate = .ok b' ∧ ∀ k, b'.HasRoom k ↔ b.HasRoom (1 + k) := by
  cases b with
  | unlimited => exact ⟨.unlimited, rfl, fun k => Iff.rfl⟩
  | limited a =>
    cases max : a.limits.maxAllocations with
    | none =>
      refine ⟨_, by rw [allocate, max], fun k => ?_⟩
      simp only [HasRoom, max, reduceCtorEq, false_imp_iff, implies_true]
    | some limit =>
      have live : a.live < limit := by
        have left := room limit max
        omega
      refine ⟨_, by simp only [allocate, max, live.not_ge, ↓reduceIte]; rfl, fun k => ?_⟩
      simp only [HasRoom, max, Option.some.injEq, forall_eq']
      omega

namespace Heap

/-- The budget has room for so many more allocations. -/
def HasRoom (h : Heap) (n : Nat) : Prop := h.budget.HasRoom n

instance (h : Heap) (n : Nat) : Decidable (h.HasRoom n) := inferInstanceAs (Decidable (h.budget.HasRoom n))

/-- All objects and scopes are as they were, others may have come. -/
structure Retains (h h' : Heap) : Prop where
  /-- Objects were only added. -/
  adds : h.Adds h'
  /-- No scope was touched. -/
  scopes : h'.scopes = h.scopes

variable {h h' h'' : Heap} {r : Ref} {o : Object} {s : Snapshot}

theorem Retains.refl (w : h.objects.WellFormed) : h.Retains h := ⟨.refl w, rfl⟩

theorem Retains.trans (first : h.Retains h') (later : h'.Retains h'') : h.Retains h'' :=
  ⟨first.adds.trans later.adds, later.scopes.trans first.scopes⟩

theorem Retains.orderly (retains : h.Retains h') (orderly : h.Orderly) : h'.Orderly where
  objects := retains.adds.wellFormed
  scopes := retains.scopes ▸ orderly.scopes
  singletons := fun s mem => retains.adds.payload? (orderly.singletons s mem)

theorem Retains.vacant (retains : h.Retains h') (vacant : h'.object? r = none) : h.object? r = none := by
  cases live : h.object? r with
  | none => rfl
  | some o =>
    rw [retains.adds.kept r o live] at vacant
    cases vacant

/-- An allocation is refused, and changes nothing, if there is no room for it. -/
theorem exists_allocate_error (o : Object) (full : ¬ h.HasRoom 1) : ∃ e, h.allocate o = (.error e, h) := by
  obtain ⟨objects, scopes, budget, since⟩ := h
  cases budget with
  | unlimited => exact absurd trivial full
  | limited a =>
    cases max : a.limits.maxAllocations with
    | none => exact absurd (fun limit some => by rw [max] at some; cases some) full
    | some limit =>
      have le : limit ≤ a.live := by
        by_contra room
        refine full fun limit' some => ?_
        cases max.symm.trans some
        omega
      refine ⟨.allocation limit (a.live + 1), ?_⟩
      simp only [allocate, book, Budget.allocate, max, le, ↓reduceIte]

/-- An allocation succeeds if there is room for it, and takes this room. -/
theorem exists_allocate_ok (o : Object) (w : h.objects.WellFormed) (room : h.HasRoom 1) :
    ∃ r h', h.allocate o = (.ok r, h') ∧ h.Stores r o h' ∧ ∀ k, h'.HasRoom k ↔ h.HasRoom (1 + k) := by
  obtain ⟨b, allocated, rooms⟩ := Budget.exists_allocate_ok room
  have booked : ∃ r h', h.allocate o = (.ok r, h') := by
    obtain ⟨objects, scopes, budget, since⟩ := h
    simp only [allocate, book, allocated]
    exact ⟨_, _, rfl⟩
  obtain ⟨r, h', stored⟩ := booked
  refine ⟨r, h', stored, stores_of_allocate w stored, ?_⟩
  have same := budget_of_allocate stored
  rw [allocated, Except.ok.injEq] at same
  rw [same] at rooms
  exact rooms

theorem hasRoom_zero (h : Heap) : h.HasRoom 0 := by
  rw [HasRoom]
  cases h.budget with
  | unlimited => trivial
  | limited a => exact fun limit _ => Nat.zero_le _

theorem HasRoom.mono {n k : Nat} (room : h.HasRoom n) (le : k ≤ n) : h.HasRoom k := Budget.HasRoom.mono room le

/-! ### How storing ends -/

/-- How the storing of parts ends: it is refused where the budget has no room for what is demanded, or else where a
part is no data; all of them are stored otherwise. -/
structure Settles {α : Type} (h : Heap) (parts : List Snapshot) (good : α → Heap → Prop)
    (result : EStateM.Result StoreFault Heap α) : Prop where
  /-- There is no room. -/
  exhausted : ¬ h.HasRoom (Snapshot.demand parts) → ∃ e h', result = .error (.exhausted e) h' ∧ h.Retains h'
  /-- A part is no data. -/
  foreign : h.HasRoom (Snapshot.demand parts) → ∀ p, parts.find? Snapshot.isForeign = some p →
    ∃ h', result = .error (.notData p.kindName) h' ∧ h.Retains h'
  /-- The parts are stored, and take the room they demand. -/
  stored : h.HasRoom (Snapshot.demand parts) → parts.find? Snapshot.isForeign = none →
    ∃ a h', result = .ok a h' ∧ h.Retains h' ∧ (∀ k, h'.HasRoom k ↔ h.HasRoom (Snapshot.demand parts + k)) ∧ good a h'

namespace Settles

variable {α β : Type} {ps qs : List Snapshot} {good : α → Heap → Prop} {good' : β → Heap → Prop}
  {x : EStateM StoreFault Heap α} {f : α → EStateM StoreFault Heap β}

theorem mono {good' : α → Heap → Prop} {result : EStateM.Result StoreFault Heap α} (settles : h.Settles ps good result)
    (imp : ∀ a h', h.Retains h' → good a h' → good' a h') : h.Settles ps good' result where
  exhausted := settles.exhausted
  foreign := settles.foreign
  stored room data := by
    obtain ⟨a, h', ran, retains, rooms, holds⟩ := settles.stored room data
    exact ⟨a, h', ran, retains, rooms, imp a h' retains holds⟩

theorem pure {a : α} (w : h.objects.WellFormed) (holds : good a h) :
    h.Settles [] good ((Pure.pure a : EStateM StoreFault Heap α) h) where
  exhausted full := absurd h.hasRoom_zero full
  foreign _ p found := by cases found
  stored _ _ := by
    refine ⟨a, h, rfl, .refl w, fun k => ?_, holds⟩
    rw [Snapshot.demand, List.takeWhile_nil, List.countP_nil, Nat.zero_add]

/-- One storing after another. -/
theorem bind (first : h.Settles ps good (x h))
    (later : ∀ a h', h.Retains h' → good a h' → h'.Settles qs (fun b h'' => h'.Retains h'' → good' b h'') (f a h')) :
    h.Settles (ps ++ qs) good' ((x >>= f) h) := by
  have runs {a h'} (ran : x h = .ok a h') : (x >>= f) h = f a h' := by
    show EStateM.bind x f h = _
    rw [EStateM.bind, ran]
  have fails {e h'} (ran : x h = .error e h') : (x >>= f) h = .error e h' := by
    show EStateM.bind x f h = _
    rw [EStateM.bind, ran]
  cases data : ps.find? Snapshot.isForeign with
  | some p =>
    have same := Snapshot.demand_append_of_foreign data qs
    have found : (ps ++ qs).find? Snapshot.isForeign = some p := by rw [List.find?_append, data, Option.some_or]
    constructor
    · intro full
      obtain ⟨e, h', ran, retains⟩ := first.exhausted (same ▸ full)
      exact ⟨e, h', fails ran, retains⟩
    · intro room p' found'
      cases found.symm.trans found'
      obtain ⟨h', ran, retains⟩ := first.foreign (same ▸ room) p data
      exact ⟨h', fails ran, retains⟩
    · intro _ none
      cases found.symm.trans none
  | none =>
    have sum := Snapshot.demand_append_of_data data qs
    have found : (ps ++ qs).find? Snapshot.isForeign = qs.find? Snapshot.isForeign := by
      rw [List.find?_append, data, Option.none_or]
    by_cases room : h.HasRoom (Snapshot.demand ps)
    · obtain ⟨a, h', ran, retains, rooms, holds⟩ := first.stored room data
      obtain ⟨exhausted, foreign, stored⟩ := later a h' retains holds
      rw [runs ran]
      have rest : h'.HasRoom (Snapshot.demand qs) ↔ h.HasRoom (Snapshot.demand (ps ++ qs)) := by rw [rooms, sum]
      constructor
      · intro full
        obtain ⟨e, h'', ended, retains'⟩ := exhausted (mt rest.mp full)
        exact ⟨e, h'', ended, retains.trans retains'⟩
      · intro all p there
        obtain ⟨h'', ended, retains'⟩ := foreign (rest.mpr all) p (found ▸ there)
        exact ⟨h'', ended, retains.trans retains'⟩
      · intro all none
        obtain ⟨b, h'', ended, retains', rooms', holds'⟩ := stored (rest.mpr all) (found ▸ none)
        refine ⟨b, h'', ended, retains.trans retains', fun k => ?_, holds' retains'⟩
        rw [rooms', rooms, sum, Nat.add_assoc]
    · obtain ⟨e, h', ran, retains⟩ := first.exhausted room
      have full : ¬ h.HasRoom (Snapshot.demand (ps ++ qs)) := by
        rw [sum]
        exact fun all => room (all.mono (Nat.le_add_right _ _))
      exact ⟨fun _ => ⟨e, h', fails ran, retains⟩, fun all => absurd all full, fun all => absurd all full⟩

/-- However it ends, all that was there stays as it was. -/
theorem retains {result : EStateM.Result StoreFault Heap α} (settles : h.Settles ps good result) :
    h.Retains (Snapshot.heapOf result) := by
  by_cases room : h.HasRoom (Snapshot.demand ps)
  · cases found : ps.find? Snapshot.isForeign with
    | some p =>
      obtain ⟨h', rfl, retains⟩ := settles.foreign room p found
      exact retains
    | none =>
      obtain ⟨a, h', rfl, retains, -⟩ := settles.stored room found
      exact retains
  · obtain ⟨e, h', rfl, retains⟩ := settles.exhausted room
    exact retains

end Settles

/-! ### Storing data -/

theorem keyOf_of_spells (spells : h.Spells r s) : h.keyOf r = s.identity?.getD (.object r) := by
  cases spells with
  | @plain _ o _ live data =>
    rw [keyOf, Heap.payload?, live, Option.map_some]
    cases payload : o.payload with
    | num x =>
      rw [payload] at data
      cases data
      rw [Snapshot.identity?]
      dsimp only
      cases (if x.isIntegral then Integer.ofInt? x.truncate else none) <;> rfl
    | _ =>
      rw [payload] at data
      cases data <;> rfl
  | list live payload | map live payload =>
    rw [keyOf, Heap.payload?, live, Option.map_some, payload]
    rfl

/-- A snapshot is stored in an object, which is a new one if it is a container. -/
structure Stored (h : Heap) (s : Snapshot) (r : Ref) (h' : Heap) : Prop where
  /-- The object spells the snapshot. -/
  spells : h'.Spells r s.merged
  /-- Containers are not shared. -/
  fresh : s.identity? = none → h.object? r = none

theorem settles_storePayload {good : Ref → Heap → Prop} (w : h.objects.WellFormed) {payload : Payload}
    (data : s.isForeign = false) (booked : s.isBooked)
    (holds : ∀ r h', h.Stores r (.ofPayload payload none) h' → good r h') :
    h.Settles [s] good (Snapshot.storePayload payload h) := by
  have one : Snapshot.demand [s] = 1 := by simp [Snapshot.demand, data, booked]
  constructor
  · intro full
    obtain ⟨e, refused⟩ := exists_allocate_error (.ofPayload payload none) (one ▸ full)
    refine ⟨e, h, ?_, .refl w⟩
    rw [Snapshot.storePayload, refused]
  · intro _ p found
    rw [List.find?_singleton, data] at found
    cases found
  · intro room _
    obtain ⟨r, h', allocated, stores, rooms⟩ := exists_allocate_ok (.ofPayload payload none) w (one ▸ room)
    refine ⟨r, h', ?_, ⟨.of_stores stores, stores.scopes⟩, one ▸ rooms, holds r h' stores⟩
    rw [Snapshot.storePayload, allocated]

/-- A singleton is not made. -/
theorem settles_singleton (w : h.objects.WellFormed) {p : Payload} (here : h.payload? r = some p)
    (plain : p.plainSnapshot? = some s.merged) (identity : s.identity?.isSome) (data : s.isForeign = false)
    (booked : s.isBooked = false) : h.Settles [s] (h.Stored s) (.ok r h) := by
  have zero : Snapshot.demand [s] = 0 := by simp [Snapshot.demand, data, booked]
  obtain ⟨o, live, rfl⟩ := Option.map_eq_some_iff.mp here
  constructor
  · exact fun full => absurd (zero ▸ h.hasRoom_zero) full
  · intro _ p found
    rw [List.find?_singleton, data] at found
    cases found
  · intro _ _
    refine ⟨r, h, rfl, .refl w, fun k => by rw [zero, Nat.zero_add], .plain live plain, fun none => ?_⟩
    rw [none] at identity
    cases identity

theorem settles_foreign {α : Type} {good : α → Heap → Prop} (w : h.objects.WellFormed) (foreign : s.isForeign) :
    h.Settles [s] good (.error (.notData s.kindName) h) := by
  have zero : Snapshot.demand [s] = 0 := by simp [Snapshot.demand, foreign]
  constructor
  · exact fun full => absurd (zero ▸ h.hasRoom_zero) full
  · intro _ p found
    rw [List.find?_singleton, if_pos foreign, Option.some_inj] at found
    exact ⟨h, by rw [found], .refl w⟩
  · intro _ none
    rw [List.find?_singleton, if_pos foreign] at none
    cases none

/-- A map key and its object: the identity is that of the object, which spells a snapshot. -/
structure Keyed (h : Heap) (key : Key × Ref) (s : Snapshot) : Prop where
  /-- The identity. -/
  identity : key.1 = h.keyOf key.2
  /-- The object. -/
  spells : h.Spells key.2 s

/-- Entries are written: their keys and values are stored, and containers as keys are all different. -/
structure Written (h : Heap) (entries : List (Snapshot × Snapshot)) (writes : List ((Key × Ref) × Ref)) (h' : Heap) :
    Prop where
  /-- The keys and values are stored. -/
  entries : List.Forall₂ (fun w e => h'.Keyed w.1 e.1 ∧ h'.Spells w.2 e.2) writes (Snapshot.mergedEntries entries)
  /-- An object is no key twice. -/
  apart : writes.Pairwise fun w w' => w.1.1 = w'.1.1 → ∀ r, w.1.1 ≠ .object r
  /-- An object that is a key is a new one. -/
  fresh : ∀ w ∈ writes, ∀ r, w.1.1 = .object r → h.object? r = none

theorem Keyed.of_adds {key : Key × Ref} (keyed : h.Keyed key s) (adds : h.Adds h') : h'.Keyed key s := by
  have spells := keyed.spells.of_adds adds
  refine ⟨?_, spells⟩
  rw [keyed.identity, keyOf_of_spells keyed.spells, keyOf_of_spells spells]

/-- Keys that are not one object are the same if their snapshots are. -/
theorem Keyed.same_iff {a b : Key × Ref} {s t : Snapshot} (keyed : h.Keyed a s) (keyed' : h.Keyed b t)
    (apart : a.1 = b.1 → ∀ r, a.1 ≠ .object r) : sameBy Prod.fst a b = Snapshot.sameKey s t := by
  have key := keyed.identity.trans (keyOf_of_spells keyed.spells)
  have key' := keyed'.identity.trans (keyOf_of_spells keyed'.spells)
  rw [sameBy, Bool.eq_iff_iff, decide_eq_true_eq, Snapshot.sameKey_iff]
  constructor
  · intro same
    have noObject := apart same
    have noObject' := same ▸ noObject
    cases identity : s.identity? with
    | none =>
      rw [identity, Option.getD_none] at key
      exact absurd key (noObject _)
    | some k =>
      cases identity' : t.identity? with
      | none =>
        rw [identity', Option.getD_none] at key'
        exact absurd key' (noObject' _)
      | some k' =>
        rw [identity, Option.getD_some] at key
        rw [identity', Option.getD_some] at key'
        exact ⟨k, rfl, by rw [← key', ← same, key]⟩
  · rintro ⟨k, identity, identity'⟩
    rw [key, key', identity, identity', Option.getD_some, Option.getD_some]

theorem Written.of_adds {entries : List (Snapshot × Snapshot)} {writes : List ((Key × Ref) × Ref)}
    (written : h.Written entries writes h') (adds : h'.Adds h'') : h.Written entries writes h'' where
  entries := written.entries.imp fun _ _ both => ⟨both.1.of_adds adds, both.2.of_adds adds⟩
  apart := written.apart
  fresh := written.fresh

theorem forall₂_getElem? {α β : Type} {R : α → β → Prop} {l : List α} {l' : List β} (all : List.Forall₂ R l l')
    (i : Nat) (a : α) (b : β) (at_i : l[i]? = some a) (at_i' : l'[i]? = some b) : R a b := by
  induction all generalizing i with
  | nil => cases at_i
  | cons first _ ih =>
    cases i with
    | zero =>
      cases at_i
      cases at_i'
      exact first
    | succ i => exact ih i at_i at_i'

/-- A map of written entries spells the merged ones. -/
theorem Written.spells {entries : List (Snapshot × Snapshot)} {writes : List ((Key × Ref) × Ref)}
    (written : h.Written entries writes h') (live : h'.object? r = some o)
    (payload : o.payload = .map (Entries.ofWrites writes)) :
    h'.Spells r (.map (mergeBy Snapshot.sameKey (Snapshot.mergedEntries entries))) := by
  have agree (a : Key × Ref) (s : Snapshot) (b : Key × Ref) (t : Snapshot) (keyed : h'.Keyed a s)
      (keyed' : h'.Keyed b t) (apart : a.1 = b.1 → ∀ r, a.1 ≠ .object r) : sameBy Prod.fst a b = Snapshot.sameKey s t :=
    keyed.same_iff keyed' apart
  have merged := mergeBy_corresponds agree written.entries written.apart
  have values : (Entries.ofWrites writes).values = (mergeBy (sameBy Prod.fst) writes).map fun w => (w.1.2, w.2) := by
    rw [Table.values, Entries.entries_ofWrites, List.map_map]
    rfl
  have both (i : Nat) (e : Ref × Ref) (s : Snapshot × Snapshot) (at_i : (Entries.ofWrites writes).values[i]? = some e)
      (shown : (mergeBy Snapshot.sameKey (Snapshot.mergedEntries entries))[i]? = some s) :
      h'.Spells e.1 s.1 ∧ h'.Spells e.2 s.2 := by
    rw [values, List.getElem?_map] at at_i
    obtain ⟨w, there, rfl⟩ := Option.map_eq_some_iff.mp at_i
    obtain ⟨key, value⟩ := forall₂_getElem? merged i w s there shown
    exact ⟨key.spells, value⟩
  refine .map live payload ?_ (fun i e s at_i shown => (both i e s at_i shown).1)
    fun i e s at_i shown => (both i e s at_i shown).2
  rw [← merged.length_eq, Table.size, Entries.entries_ofWrites, List.length_map]

/-- One more entry in front. -/
theorem Written.cons {h₁ h₂ h₃ : Heap} {key v : Snapshot} {keyObject value : Ref}
    {entries : List (Snapshot × Snapshot)} {writes : List ((Key × Ref) × Ref)} (ofKey : h.Stored key keyObject h₁)
    (later₁ : h₁.Retains h₂) (ofValue : h₁.Stored v value h₂) (later₂ : h₂.Retains h₃) (first : h.Retains h₁)
    (written : h₂.Written entries writes h₃) :
    h.Written ((key, v) :: entries) (((h₂.keyOf keyObject, keyObject), value) :: writes) h₃ := by
  have keyed : h₂.Keyed (h₂.keyOf keyObject, keyObject) key.merged := ⟨rfl, ofKey.spells.of_adds later₁.adds⟩
  have isObject (r : Ref) (isKey : h₂.keyOf keyObject = .object r) : keyObject = r ∧ key.identity? = none := by
    rw [keyOf_of_spells keyed.spells, Snapshot.identity?_merged] at isKey
    cases identity : key.identity? with
    | none =>
      rw [identity, Option.getD_none, Key.object.injEq] at isKey
      exact ⟨isKey, rfl⟩
    | some k =>
      rw [identity, Option.getD_some] at isKey
      exact absurd (isKey ▸ identity) Snapshot.identity?_ne_object
  constructor
  · exact .cons ⟨keyed.of_adds later₂.adds, ofValue.spells.of_adds later₂.adds⟩ written.entries
  · -- the key object is there before the later keys are stored
    refine List.pairwise_cons.mpr ⟨fun w mem same r isKey => ?_, written.apart⟩
    obtain ⟨rfl, -⟩ := isObject r isKey
    have vacant := written.fresh w mem keyObject (same.symm.trans isKey)
    obtain ⟨o, live⟩ := keyed.spells.exists_object
    rw [live] at vacant
    cases vacant
  · refine List.forall_mem_cons.mpr ⟨fun r isKey => ?_, fun w mem r isKey => ?_⟩
    · obtain ⟨rfl, container⟩ := isObject r isKey
      exact ofKey.fresh container
    · exact (first.trans later₁).vacant (written.fresh w mem r isKey)

mutual

/-- What is stored of a snapshot. -/
theorem settles_store (s : Snapshot) (h : Heap) (orderly : h.Orderly) :
    h.Settles s.parts (h.Stored s) (s.store h) := by
  have w := orderly.objects
  cases s with
  | null => exact settles_singleton w (orderly.singletons (.null, .null) (by decide)) rfl rfl rfl rfl
  | bool b =>
    cases b with
    | true => exact settles_singleton w (orderly.singletons (.yes, .bool true) (by decide)) rfl rfl rfl rfl
    | false => exact settles_singleton w (orderly.singletons (.no, .bool false) (by decide)) rfl rfl rfl rfl
  | int i | num x | str text =>
    refine settles_storePayload w rfl rfl fun r h' stores => ⟨?_, fun _ => stores.vacant⟩
    exact .plain (by rw [stores.object?, if_pos rfl]) rfl
  | list items =>
    refine (settles_storeItems items h orderly).bind fun refs h' retains stored => ?_
    have ready := retains.orderly orderly
    refine settles_storePayload ready.objects rfl rfl fun r h'' stores last => ⟨?_, fun _ => ?_⟩
    · refine .list (by rw [stores.object?, if_pos rfl]) rfl ?_ fun i q v item shown => ?_
      · rw [← stored.length_eq, List.size_toArray]
      · exact (forall₂_getElem? stored i q v (List.getElem?_toArray.symm.trans item) shown).of_adds last.adds
    · exact retains.vacant stores.vacant
  | map entries =>
    refine (settles_storeEntries entries .empty h orderly).bind fun stored h' retains written => ?_
    have ready := retains.orderly orderly
    obtain ⟨writes, rfl, written⟩ := written
    refine settles_storePayload ready.objects rfl rfl fun r h'' stores last => ⟨?_, fun _ => ?_⟩
    · exact (written.of_adds last.adds).spells (by rw [stores.object?, if_pos rfl]) rfl
    · exact retains.vacant stores.vacant
  | _ => exact settles_foreign w rfl

theorem settles_storeItems (items : List Snapshot) (h : Heap) (orderly : h.Orderly) :
    h.Settles (Snapshot.partsOfItems items)
      (fun refs h' => List.Forall₂ (fun r v => h'.Spells r v) refs (Snapshot.mergedItems items))
      (Snapshot.storeItems items h) := by
  cases items with
  | nil => exact .pure orderly.objects .nil
  | cons v later =>
    refine (settles_store v h orderly).bind fun r h' retains stored => ?_
    have ready := retains.orderly orderly
    rw [← List.append_nil (Snapshot.partsOfItems later)]
    refine (settles_storeItems later h' ready).bind fun refs h'' retains' stored' => ?_
    refine .pure (retains'.orderly ready).objects fun _ _ => ?_
    exact .cons (stored.spells.of_adds retains'.adds) stored'

theorem settles_storeEntries (entries : List (Snapshot × Snapshot)) (before : Entries) (h : Heap)
    (orderly : h.Orderly) :
    h.Settles (Snapshot.partsOfEntries entries)
      (fun stored h' => ∃ writes, stored = writes.foldl (fun entries w => entries.put w.1.1 w.1.2 w.2) before ∧
        h.Written entries writes h') (Snapshot.storeEntries before entries h) := by
  match entries with
  | [] =>
    refine .pure orderly.objects ⟨[], rfl, ⟨.nil, .nil, List.forall_mem_nil _⟩⟩
  | (key, v) :: later =>
    refine (settles_store key h orderly).bind fun keyObject h₁ retains₁ ofKey => ?_
    have ready₁ := retains₁.orderly orderly
    refine (settles_store v h₁ ready₁).bind fun value h₂ retains₂ ofValue => ?_
    have ready₂ := retains₂.orderly ready₁
    refine (settles_storeEntries later _ h₂ ready₂).mono fun stored h₃ retains₃ written later₂ later₁ => ?_
    obtain ⟨writes, same, written⟩ := written
    have first := written.cons ofKey retains₂ ofValue retains₃ retains₁
    exact ⟨((h₂.keyOf keyObject, keyObject), value) :: writes, same, first⟩

end

/-- What a host stores in a heap in order is found again if it is data, nested in no more than a hundred containers,
and if the budget has room for its objects: in each map the entries with the same key are merged, the first one with
the last value, and all else is the same. A snapshot with parts that are no data is refused because of the first of
them, and one for which there is no room because of the budget. No object or scope that was there is changed. -/
theorem data_round_trips (h : Heap) (orderly : h.Orderly) (s : Snapshot) :
    (h.HasRoom (Snapshot.demand s.parts) → s.parts.find? Snapshot.isForeign = none → s.nesting ≤ 100 →
      ∃ r h', s.store h = .ok r h' ∧ h'.snapshot? r = some s.merged) ∧
    (h.HasRoom (Snapshot.demand s.parts) → ∀ p, s.parts.find? Snapshot.isForeign = some p →
      ∃ h', s.store h = .error (.notData p.kindName) h') ∧
    (¬ h.HasRoom (Snapshot.demand s.parts) → ∃ e h', s.store h = .error (.exhausted e) h') ∧
    (∀ q o, h.object? q = some o → (Snapshot.heapOf (s.store h)).object? q = some o) ∧
    (Snapshot.heapOf (s.store h)).scopes = h.scopes := by
  have kept := (settles_store s h orderly).retains
  obtain ⟨exhausted, foreign, stored⟩ := settles_store s h orderly
  refine ⟨fun room data fits => ?_, fun room p found => ?_, fun full => ?_, kept.adds.kept, kept.scopes⟩
  · obtain ⟨r, h', ended, -, -, there⟩ := stored room data
    exact ⟨r, h', ended, there.spells.snapshot? ((Snapshot.nesting_merged_le s).trans fits)⟩
  · obtain ⟨h', ended, -⟩ := foreign room p found
    exact ⟨h', ended⟩
  · obtain ⟨e, h', ended, -⟩ := exhausted full
    exact ⟨e, h', ended⟩

/-- The integer one and the number one are the same key: the entry keeps the integer and has the last value. -/
theorem data_round_trips_map :
    let s : Snapshot := .list [.map [(.int 1, .str "a"), (.str "k", .null), (.num (.ofInt 1), .list [])]]
    ∃ r h', s.store boot = .ok r h' ∧ h'.snapshot? r = some s.merged ∧
      s.merged.repr = "[\x7b1: [], 'k': null\x7d]" := by
  intro s
  obtain ⟨found, -⟩ := data_round_trips boot orderly_boot s
  have data : s.parts.find? Snapshot.isForeign = none := Option.isNone_iff_eq_none.mp (by decide +kernel)
  obtain ⟨r, h', ended, taken⟩ := found (by decide +kernel) data (by decide +kernel)
  exact ⟨r, h', ended, taken, by decide +kernel⟩

end Heap

end ObjectMachine
