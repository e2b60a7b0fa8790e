import Mathlib.Data.Finset.Card
import ObjectMachine.Proofs.Arenas
/-!
The population: how many objects and scopes there are. It grows by the slots that are taken and shrinks
by those that are freed. An account counts as live at least what was taken under it and not freed, and
its limit bounds what it counts. So a heap never holds more than that limit beyond what it held when the
account was opened, whatever is freed.
-/
namespace ObjectMachine

/-! ### Slots taken and freed -/

namespace Arena

variable {α : Type}

/-- The occupied slots. -/
def inUse (a : Arena α) : Finset Nat := ((List.range a.size).filter a.occupied).toFinset

theorem mem_inUse {a : Arena α} {i : Nat} : i ∈ a.inUse ↔ a.occupied i := by
  rw [inUse, List.mem_toFinset, List.mem_filter, List.mem_range, and_iff_right_iff_imp]
  intro occupied
  obtain ⟨x, found⟩ := Option.isSome_iff_exists.mp occupied
  exact lt_size_of_get? found

theorem card_inUse (a : Arena α) : a.inUse.card = a.live := by
  rw [inUse, List.toFinset_card_of_nodup (List.nodup_range.filter _), live_eq_countP,
    List.countP_eq_length_filter]

end Arena

namespace Heap

/-- What has vanished are the slots in use that are so no longer. -/
theorem length_vanished {α : Type} (before after : Arena α) :
    (vanished before after).length = (before.inUse \ after.inUse).card := by
  have nodup : (vanished before after).Nodup := List.nodup_range.filter _
  rw [← List.toFinset_card_of_nodup nodup]
  congr 1
  ext i
  rw [List.mem_toFinset, vanished, List.mem_filter, Finset.mem_sdiff, Arena.mem_inUse, Arena.mem_inUse,
    List.mem_range, Bool.and_eq_true, Bool.not_eq_true', Bool.not_eq_true, and_iff_right_iff_imp]
  intro gone
  obtain ⟨x, found⟩ := Option.isSome_iff_exists.mp gone.1
  exact Arena.lt_size_of_get? found

/-- Slots in use are conserved, but for those that are freed and those that are taken. -/
theorem live_add_vanished {α : Type} (before after : Arena α) :
    after.live + (vanished before after).length = before.live + (vanished after before).length := by
  rw [length_vanished, length_vanished, ← Arena.card_inUse before, ← Arena.card_inUse after]
  have kept := Finset.card_sdiff_add_card_inter before.inUse after.inUse
  have kept' := Finset.card_sdiff_add_card_inter after.inUse before.inUse
  rw [Finset.inter_comm] at kept'
  omega

theorem vanished_eq_nil {α : Type} {before after : Arena α}
    (kept : ∀ i, before.occupied i → after.occupied i) : vanished before after = [] := by
  refine List.filter_eq_nil_iff.mpr fun i _ => ?_
  cases occupied : before.occupied i with
  | false => simp
  | true => simp [kept i occupied]

/-- What has vanished if it is a single slot. -/
theorem vanished_eq_singleton {α : Type} {before after : Arena α} {i : Nat}
    (occupied : before.occupied i) (vacant : after.occupied i = false)
    (kept : ∀ j, j ≠ i → before.occupied j → after.occupied j) :
    (vanished before after).length = 1 := by
  rw [length_vanished, Finset.card_eq_one]
  refine ⟨i, Finset.ext fun j => ?_⟩
  rw [Finset.mem_sdiff, Arena.mem_inUse, Arena.mem_inUse, Finset.mem_singleton]
  constructor
  · rintro ⟨gone, missing⟩
    by_contra other
    exact missing (kept j other gone)
  · rintro rfl
    exact ⟨occupied, by simp [vacant]⟩

/-- The number of objects and scopes. -/
def population (h : Heap) : Nat := h.objects.live + h.scopes.live

/-- The number of slots that are occupied later and were not before. -/
def taken (h h' : Heap) : Nat :=
  (vanished h'.objects h.objects).length + (vanished h'.scopes h.scopes).length

/-- The number of slots that were occupied before and are not later. -/
def freed (h h' : Heap) : Nat := h'.taken h

theorem population_add_freed (h h' : Heap) :
    h'.population + h.freed h' = h.population + h.taken h' := by
  have objects := live_add_vanished h.objects h'.objects
  have scopes := live_add_vanished h.scopes h'.scopes
  simp only [population, freed, taken]
  omega

/-! ### What a step takes and frees -/

variable {h h' : Heap}

theorem taken_eq_zero (objects : ∀ i, h'.objects.occupied i → h.objects.occupied i)
    (scopes : ∀ i, h'.scopes.occupied i → h.scopes.occupied i) : h.taken h' = 0 := by
  rw [taken, vanished_eq_nil objects, vanished_eq_nil scopes]
  rfl

theorem Stores.counts {r : Ref} {o : Object} (stores : h.Stores r o h') :
    h.taken h' = 1 ∧ h.freed h' = 0 := by
  have vacant : h.objects.occupied r.slot = false := by
    have free := stores.vacant
    simp only [Heap.object?] at free
    simp only [Arena.occupied, free, Option.isSome_none]
  have other (i : Nat) (ne : i ≠ r.slot) : h'.objects.occupied i = h.objects.occupied i := by
    have same := stores.object? ⟨i⟩
    rw [if_neg fun eq => ne (congrArg Ref.slot eq)] at same
    exact congrArg Option.isSome same
  have new : h'.objects.occupied r.slot := by
    have found := stores.object? r
    rw [if_pos rfl] at found
    exact Option.isSome_iff_exists.mpr ⟨o, found⟩
  constructor
  · rw [taken, vanished_eq_singleton new vacant fun i ne taken => other i ne ▸ taken, stores.scopes,
      vanished_eq_nil fun _ => id]
    rfl
  · refine taken_eq_zero (fun i occupied => ?_) fun i occupied => stores.scopes ▸ occupied
    rcases eq_or_ne i r.slot with rfl | ne
    · exact new
    · exact (other i ne).trans occupied

theorem StoresScope.counts {s : ScopeRef} {scope : Scope} (stores : h.StoresScope s scope h') :
    h.taken h' = 1 ∧ h.freed h' = 0 := by
  have vacant : h.scopes.occupied s.slot = false := by
    have free := stores.vacant
    simp only [Heap.scope?] at free
    simp only [Arena.occupied, free, Option.isSome_none]
  have other (i : Nat) (ne : i ≠ s.slot) : h'.scopes.occupied i = h.scopes.occupied i := by
    have same := stores.scope? ⟨i⟩
    rw [if_neg fun eq => ne (congrArg ScopeRef.slot eq)] at same
    exact congrArg Option.isSome same
  have new : h'.scopes.occupied s.slot := by
    have found := stores.scope? s
    rw [if_pos rfl] at found
    exact Option.isSome_iff_exists.mpr ⟨scope, found⟩
  constructor
  · rw [taken, vanished_eq_singleton new vacant fun i ne taken => other i ne ▸ taken, stores.objects,
      vanished_eq_nil fun _ => id]
    rfl
  · refine taken_eq_zero (fun i occupied => stores.objects ▸ occupied) fun i occupied => ?_
    rcases eq_or_ne i s.slot with rfl | ne
    · exact new
    · exact (other i ne).trans occupied

theorem budget_of_book (booked : h.book = (.ok (), h')) : h.budget.allocate = .ok h'.budget := by
  simp only [book] at booked
  split at booked
  · rename_i allocated
    cases booked
    exact allocated
  · cases booked

theorem budget_of_allocate {o : Object} {r : Ref} (stored : h.allocate o = (.ok r, h')) :
    h.budget.allocate = .ok h'.budget := by
  simp only [allocate] at stored
  split at stored
  · rename_i booked
    cases stored
    exact (budget_of_book booked :)
  · cases stored

theorem budget_of_allocateScope {scope : Scope} {s : ScopeRef}
    (stored : h.allocateScope scope = (.ok s, h')) : h.budget.allocate = .ok h'.budget := by
  simp only [allocateScope] at stored
  split at stored
  · rename_i booked
    cases stored
    exact (budget_of_book booked :)
  · cases stored

theorem budget_of_allocateType {name : String} {parents : List Ref} {result : Except Lineage.Fault Ref}
    (stored : h.allocateType name parents = (.ok result, h')) :
    h.budget.allocate = .ok h'.budget := by
  simp only [allocateType] at stored
  split at stored
  · cases stored
  · rename_i allocated
    split at stored <;> cases stored <;> exact (budget_of_allocate allocated :)

theorem occupied_changeAll (h : Heap) (changes : List (Ref × Change)) (i : Nat) :
    (h.changeAll changes).objects.occupied i = h.objects.occupied i := by
  induction changes generalizing h with
  | nil => rfl
  | cons c later ih =>
    refine (ih (h.modify c.1 c.2.apply)).trans ?_
    simp only [modify, Arena.occupied, Arena.get?_modify]
    split
    · exact Option.isSome_map
    · rfl

theorem budget_changeAll (h : Heap) (changes : List (Ref × Change)) :
    (h.changeAll changes).budget = h.budget := by
  induction changes generalizing h with
  | nil => rfl
  | cons c later ih => exact ih (h.modify c.1 c.2.apply)

/-- What a step does to an account and to the slots. -/
inductive Booked (a : Account) (h h' : Heap) : Prop where
  /-- Only the count of instructions changes. -/
  | still (operations : Nat) (budget : h'.budget = .limited { a with operations })
    (taken : h.taken h' = 0) (freed : h.freed h' = 0)
  /-- One allocation is booked, and takes one slot. -/
  | stored (budget : (Budget.limited a).allocate = .ok h'.budget) (taken : h.taken h' = 1)
    (freed : h.freed h' = 0)
  /-- The release of the slots is booked that are freed. -/
  | collected (budget : h'.budget = (Budget.limited a).free (h.freed h')) (taken : h.taken h' = 0)

theorem Booked.of_same {a : Account} {operations : Nat}
    (budget : h'.budget = .limited { a with operations })
    (objects : ∀ i, h'.objects.occupied i = h.objects.occupied i)
    (scopes : ∀ i, h'.scopes.occupied i = h.scopes.occupied i) : Booked a h h' := by
  refine .still operations budget ?_ ?_
  · exact taken_eq_zero (fun i occupied => objects i ▸ occupied) fun i occupied => scopes i ▸ occupied
  · exact taken_eq_zero (fun i occupied => (objects i).trans occupied) fun i occupied =>
      (scopes i).trans occupied

/-- Every step books what it takes and frees. -/
theorem Step.booked (step : h.Step h') (objects : h.objects.WellFormed) (scopes : h.scopes.WellFormed)
    {a : Account} (account : h.budget = .limited a) : Booked a h h' := by
  have refused : Booked a h h := .of_same account (fun _ => rfl) fun _ => rfl
  cases step with
  | store o data =>
    cases stored : h.allocate o with
    | mk result h₁ =>
      cases result with
      | error e => rwa [eq_of_allocate_error stored]
      | ok r =>
        have counts := (stores_of_allocate objects stored).counts
        exact .stored (account ▸ budget_of_allocate stored) counts.1 counts.2
  | storeType name parents some =>
    cases stored : h.allocateType name parents with
    | mk result h₁ =>
      cases result with
      | error e => rwa [eq_of_allocateType_error stored]
      | ok result =>
        obtain ⟨r, info, stores, -⟩ := stores_of_allocateType objects stored
        exact .stored (account ▸ budget_of_allocateType stored) stores.counts.1 stores.counts.2
  | openScope scope =>
    cases stored : h.allocateScope scope with
    | mk result h₁ =>
      cases result with
      | error e => rwa [eq_of_allocateScope_error stored]
      | ok s =>
        have counts := (stores_of_allocateScope scopes stored).counts
        exact .stored (account ▸ budget_of_allocateScope stored) counts.1 counts.2
  | change changes =>
    have budget : (h.changeAll changes).budget = .limited a := (budget_changeAll h changes).trans account
    exact .of_same budget (occupied_changeAll h changes) fun i => by rw [scopes_changeAll]
  | bind s f =>
    refine .of_same account (fun _ => rfl) fun i => ?_
    simp only [modifyScope, Arena.occupied, Arena.get?_modify]
    split
    · exact Option.isSome_map
    · rfl
  | tick =>
    have ticked : ∃ n, h.tick.2.budget = .limited { a with operations := n } := by
      simp only [Heap.tick, account, Budget.tick]
      split
      · exact ⟨_, rfl⟩
      · exact ⟨_, rfl⟩
    obtain ⟨n, budget⟩ := ticked
    exact .of_same budget (fun _ => rfl) fun _ => rfl
  | beginRequest =>
    have begun : h.beginRequest.budget = .limited { a with operations := 0 } := by
      simp only [Heap.beginRequest, account, Budget.beginRequest]
    exact .of_same begun (fun _ => rfl) fun _ => rfl
  | collect roots =>
    have freedObjects := vanished_release_doomed h.objects fun i => (h.reached roots).marked (.object ⟨i⟩)
    have freedScopes := vanished_release_doomed h.scopes fun i => (h.reached roots).marked (.scope ⟨i⟩)
    refine .collected ?_ (taken_eq_zero (fun i occupied => ?_) fun i occupied => ?_)
    · rw [← account]
      exact congrArg h.budget.free
        (congrArg₂ (· + ·) (congrArg List.length freedObjects) (congrArg List.length freedScopes)).symm
    · obtain ⟨o, found⟩ := Option.isSome_iff_exists.mp occupied
      exact Option.isSome_iff_exists.mpr ⟨o, object?_of_collect (r := ⟨i⟩) found⟩
    · obtain ⟨s, found⟩ := Option.isSome_iff_exists.mp occupied
      exact Option.isSome_iff_exists.mpr ⟨s, scope?_of_collect (s := ⟨i⟩) found⟩

end Heap

/-! ### Accounts -/

/-- An account, after some slots were taken and some freed, follows from an earlier one under a limit on
allocations. -/
structure Account.Follows (limit : Nat) (a : Account) (taken freed : Nat) (a' : Account) : Prop where
  /-- The limits stay. -/
  limits : a'.limits = a.limits
  /-- Every slot that is taken is counted as an allocation. -/
  allocations : a'.allocations = a.allocations + taken
  /-- What was taken and not freed is counted as live. -/
  live : a.live + taken ≤ a'.live + freed
  /-- The count stays within the limit. -/
  le_limit : a.live ≤ limit → a'.live ≤ limit

namespace Account.Follows

variable {limit taken freed : Nat} {a a' a'' : Account}

theorem refl (limit : Nat) (a : Account) : a.Follows limit 0 0 a := ⟨rfl, rfl, Nat.le_refl _, id⟩

theorem trans {taken' freed' : Nat} (first : a.Follows limit taken freed a')
    (later : a'.Follows limit taken' freed' a'') :
    a.Follows limit (taken + taken') (freed + freed') a'' := by
  refine ⟨later.limits.trans first.limits, ?_, ?_, fun le => later.le_limit (first.le_limit le)⟩
  · rw [later.allocations, first.allocations, Nat.add_assoc]
  · have := first.live
    have := later.live
    omega

end Account.Follows

/-- A booked step keeps an account, and its limit. -/
theorem Heap.Booked.follows {a : Account} {h h' : Heap} (booked : Booked a h h') {limit : Nat}
    (bounded : a.limits.maxAllocations = some limit) :
    ∃ a', h'.budget = .limited a' ∧ a.Follows limit (h.taken h') (h.freed h') a' := by
  cases booked with
  | still operations budget taken freed =>
    rw [taken, freed]
    exact ⟨_, budget, rfl, rfl, Nat.le_refl _, id⟩
  | stored budget taken freed =>
    rw [taken, freed]
    simp only [Budget.allocate, bounded] at budget
    split at budget
    · cases budget
    · rename_i within
      -- the account had room for one more
      refine ⟨_, (Except.ok.inj budget).symm, rfl, rfl, Nat.le_refl _, fun _ => ?_⟩
      exact Nat.lt_of_not_le within
  | collected budget taken =>
    rw [taken]
    refine ⟨_, budget, rfl, rfl, ?_, fun le => ?_⟩
    · -- the count of what is live does not fall below zero
      dsimp only
      omega
    · exact (Nat.sub_le _ _).trans le

/-! ### Sessions -/

namespace Heap

/-- The slots that are taken from one heap of a list to the next. -/
def takenAlong : List Heap → Nat
  | h :: h' :: later => h.taken h' + takenAlong (h' :: later)
  | _ => 0

/-- The slots that are freed from one heap of a list to the next. -/
def freedAlong : List Heap → Nat
  | h :: h' :: later => h.freed h' + freedAlong (h' :: later)
  | _ => 0

theorem budget_withBudget (h : Heap) (budget : Budget) : (h.withBudget budget).budget = budget := rfl

theorem population_withBudget (h : Heap) (budget : Budget) :
    (h.withBudget budget).population = h.population :=
  rfl

/-- Along steps the population is conserved, and the account follows it. -/
theorem account_along {limit : Nat} {a : Account} {h last : Heap} {later : List Heap}
    (chain : (h :: later).IsChain Step) (ends : (h :: later).getLast? = some last) (orderly : h.Orderly)
    (account : h.budget = .limited a) (bounded : a.limits.maxAllocations = some limit) :
    last.population + freedAlong (h :: later) = h.population + takenAlong (h :: later) ∧
      ∃ a', last.budget = .limited a' ∧
        a.Follows limit (takenAlong (h :: later)) (freedAlong (h :: later)) a' := by
  -- by induction on the heaps: each step keeps them in order and the account under its limits
  induction later generalizing h a with
  | nil =>
    cases ends
    exact ⟨rfl, a, account, .refl limit a⟩
  | cons h' later ih =>
    obtain ⟨step, rest⟩ := List.isChain_cons_cons.mp chain
    have booked := step.booked orderly.objects orderly.scopes account
    obtain ⟨a₁, account₁, first⟩ := booked.follows bounded
    have bounded₁ : a₁.limits.maxAllocations = some limit := by rw [first.limits, bounded]
    rw [List.getLast?_cons_cons] at ends
    obtain ⟨conserved, a', account', more⟩ := ih rest ends (orderly.step step) account₁ bounded₁
    have here := h.population_add_freed h'
    refine ⟨?_, a', account', first.trans more⟩
    simp only [takenAlong, freedAlong]
    omega

end Heap

namespace Machine

/-- Under a limit on allocations, no heap of a session holds more objects and scopes than that limit
beyond those at the start. The account counts each slot that was taken as an allocation, and as live no
more than the limit and no less than what was taken and not freed. -/
theorem population_within_limit {limits : Limits} {limit : Nat}
    (bounded : limits.maxAllocations = some limit) (tracer : Tracer) (actions : List HostAction)
    (before after : List Heap) (h : Heap)
    (split : (boot (.ofLimits limits) tracer).passage actions = before ++ h :: after) :
    h.population ≤ Heap.boot.population + limit ∧
    h.population + Heap.freedAlong (before ++ [h]) =
      Heap.boot.population + Heap.takenAlong (before ++ [h]) ∧
    ∃ account, h.budget = .limited account ∧ account.limits = limits ∧ account.live ≤ limit ∧
      account.allocations = Heap.takenAlong (before ++ [h]) ∧
      Heap.takenAlong (before ++ [h]) ≤ account.live + Heap.freedAlong (before ++ [h]) := by
  have first : (before ++ [h]).head? = some (boot (.ofLimits limits) tracer).heap := by
    have starts := (boot (.ofLimits limits) tracer).head?_passage actions
    rw [split] at starts
    cases before <;> exact starts
  have chain : (before ++ [h]).IsChain Heap.Step := by
    have all := (boot (.ofLimits limits) tracer).isChain_passage actions
    rw [split, List.append_cons] at all
    exact all.left_of_append
  obtain ⟨later, heaps⟩ := List.head?_eq_some_iff.mp first
  have ends : (before ++ [h]).getLast? = some h := List.getLast?_concat
  rw [heaps] at chain ends ⊢
  have orderly := Heap.orderly_boot.withBudget (.ofLimits limits)
  rw [← heap_boot _ tracer] at orderly
  have account : (boot (.ofLimits limits) tracer).heap.budget = .limited ⟨limits, 0, 0, 0⟩ := by
    rw [heap_boot, Heap.budget_withBudget, Budget.ofLimits]
  have start : (boot (.ofLimits limits) tracer).heap.population = Heap.boot.population := by
    rw [heap_boot, Heap.population_withBudget]
  obtain ⟨conserved, a, budget, follows⟩ := Heap.account_along chain ends orderly account bounded
  rw [start] at conserved
  have allocations := follows.allocations
  have live := follows.live
  have le := follows.le_limit (Nat.zero_le _)
  simp only [Nat.zero_add] at allocations live
  refine ⟨?_, conserved, a, budget, follows.limits, le, allocations, live⟩
  omega

/-- One object may be stored. A list is refused after its item, so the limit is reached and not passed. -/
theorem population_within_limit_of_one :
    let limits : Limits := ⟨none, some 1, none, none, none⟩
    let m := boot (.ofLimits limits) .silent
    let heaps := m.passage [.store (.list [.int 1])]
    let last := (m.afterSession [.store (.list [.int 1])]).heap
    limits.maxAllocations = some 1 ∧ heaps = heaps.dropLast ++ last :: [] ∧
      last.population = Heap.boot.population + 1 ∧
      last.population ≤ Heap.boot.population + 1 := by
  intro limits m heaps last
  have bounded : limits.maxAllocations = some 1 := rfl
  have split : heaps = heaps.dropLast ++ last :: [] :=
    (List.dropLast_append_getLast? last (m.getLast?_passage _)).symm
  have reached : last.population = Heap.boot.population + 1 := by decide +kernel
  exact ⟨bounded, split, reached, (population_within_limit bounded _ _ _ _ _ split).1⟩

end Machine

end ObjectMachine
