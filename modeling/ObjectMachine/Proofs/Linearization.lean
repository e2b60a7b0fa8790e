import Mathlib.Data.Finset.Card
import Mathlib.Data.List.Nodup
import ObjectMachine.Engine.Definitions
/-!
Ancestor orders are sound and complete. A common order of some parents lists everything that their
orders list, each thing once, and keeps all these orders and that of the parents. The merge finds a
common order whenever there is one that is not too long; otherwise it fails.
-/
namespace ObjectMachine.Lineage

variable {α : Type} [DecidableEq α]

/-- A total order of all ancestors of some parents, listed from the first to the last, that keeps the
ancestor order of each parent and the order of the parents. -/
structure IsCommonOrder (parents : List α) (orderOf : α → List α) (order : List α) : Prop where
  nodup : order.Nodup
  mem_iff : ∀ x, x ∈ order ↔ ∃ p ∈ parents, x ∈ orderOf p
  keeps_orders : ∀ p ∈ parents, (orderOf p).Sublist order
  keeps_parents : parents.Sublist order

/-! ### One round -/

variable {orders : List (List α)} {next : α}

/-- The chosen head stands in front of some order and behind the head of none. -/
theorem nextHead?_eq_some (chosen : nextHead? orders = some next) :
    (∃ order ∈ orders, order.head? = some next) ∧ ∀ order ∈ orders, next ∉ order.tail := by
  have isHead := List.mem_of_find?_eq_some chosen
  have free : blocked orders next = false := by
    simpa using List.find?_some chosen
  refine ⟨by simpa [List.mem_filterMap] using isHead, ?_⟩
  intro order mem behind
  have isBlocked : blocked orders next := by
    simp only [blocked, List.any_eq_true, List.contains_iff_mem]
    exact ⟨order, mem, behind⟩
  simp [free] at isBlocked

/-- While some total order keeps all orders, a head qualifies: the first member of the total order that
is still left. -/
theorem exists_nextHead? {total : List α} (nodup : total.Nodup)
    (keeps : ∀ order ∈ orders, order.Sublist total) (left : ∃ order ∈ orders, order ≠ []) :
    ∃ next, nextHead? orders = some next := by
  suffices ∃ x, (∃ order ∈ orders, order.head? = some x) ∧ ∀ order ∈ orders, x ∉ order.tail by
    obtain ⟨x, ⟨order, mem, head⟩, free⟩ := this
    refine Option.isSome_iff_exists.mp (List.find?_isSome.mpr ⟨x, ?_, ?_⟩)
    · exact List.mem_filterMap.mpr ⟨order, mem, head⟩
    · simpa [blocked] using free
  induction total with
  | nil =>
    obtain ⟨order, mem, ne⟩ := left
    exact absurd (List.sublist_nil.mp (keeps order mem)) ne
  | cons x rest ih =>
    obtain ⟨fresh, nodupRest⟩ := List.nodup_cons.mp nodup
    -- An order within `x :: rest` either lies within `rest` or has `x` in front.
    have cases_on (order : List α) (mem : order ∈ orders) :
        order.Sublist rest ∨ ∃ tail, order = x :: tail ∧ tail.Sublist rest := by
      cases keeps order mem with
      | cons _ within => exact .inl within
      | cons_cons _ within => exact .inr ⟨_, rfl, within⟩
    by_cases first : ∃ order ∈ orders, order.head? = some x
    · refine ⟨x, first, ?_⟩
      intro order mem behind
      rcases cases_on order mem with within | ⟨tail, rfl, within⟩
      · exact fresh (within.subset (List.mem_of_mem_tail behind))
      · exact fresh (within.subset behind)
    · -- the first member of the total order is used up, and the orders keep the rest
      refine ih nodupRest ?_
      intro order mem
      rcases cases_on order mem with within | ⟨tail, rfl, -⟩
      · exact within
      · exact absurd ⟨_, mem, rfl⟩ first

/-- Removing a head that stands behind no head removes it altogether. -/
theorem mem_dropHead {order : List α} (free : next ∉ order.tail) (x : α) :
    x ∈ dropHead next order ↔ x ∈ order ∧ x ≠ next := by
  cases order with
  | nil => simp [dropHead]
  | cons head tail =>
    have ne_of_mem (mem : x ∈ tail) : x ≠ next := fun same => free (same ▸ mem)
    by_cases same : head = next
    · simp only [dropHead, same, ↓reduceIte, List.mem_cons]
      exact ⟨fun mem => ⟨.inr mem, ne_of_mem mem⟩, fun h => h.1.resolve_left h.2⟩
    · simp only [dropHead, same, ↓reduceIte, List.mem_cons]
      refine ⟨fun mem => ⟨mem, ?_⟩, fun h => h.1⟩
      rcases mem with rfl | mem
      · exact same
      · exact ne_of_mem mem

theorem dropHead_sublist (next : α) (order : List α) : (dropHead next order).Sublist order := by
  cases order with
  | nil => exact .slnil
  | cons head tail =>
    simp only [dropHead]
    split
    · exact List.sublist_cons_self head tail
    · exact .refl _

/-- The orders after a round. -/
def remaining (orders : List (List α)) (next : α) : List (List α) :=
  (orders.filter fun order => !order.isEmpty).map (dropHead next)

/-- A round removes the chosen head, and nothing else. -/
theorem mem_flatten_remaining
    (chosen : nextHead? (orders.filter fun order => !order.isEmpty) = some next) (x : α) :
    x ∈ (remaining orders next).flatten ↔ x ∈ orders.flatten ∧ x ≠ next := by
  have free := (nextHead?_eq_some chosen).2
  rw [← List.flatten_filter_not_isEmpty (L := orders), remaining]
  simp only [List.mem_flatten]
  constructor
  · rintro ⟨_, dropped, here⟩
    obtain ⟨order, mem, rfl⟩ := List.mem_map.mp dropped
    obtain ⟨here, ne⟩ := (mem_dropHead (free order mem) x).mp here
    exact ⟨⟨order, mem, here⟩, ne⟩
  · rintro ⟨⟨order, mem, here⟩, ne⟩
    exact ⟨_, List.mem_map_of_mem mem, (mem_dropHead (free order mem) x).mpr ⟨here, ne⟩⟩

theorem mem_flatten_of_nextHead?
    (chosen : nextHead? (orders.filter fun order => !order.isEmpty) = some next) :
    next ∈ orders.flatten := by
  obtain ⟨⟨order, mem, head⟩, -⟩ := nextHead?_eq_some chosen
  exact List.mem_flatten.mpr ⟨order, (List.mem_filter.mp mem).1, List.mem_of_head? head⟩

theorem length_flatten_map_dropHead_le (next : α) (orders : List (List α)) :
    (orders.map (dropHead next)).flatten.length ≤ orders.flatten.length := by
  induction orders with
  | nil => exact Nat.le_refl _
  | cons order later ih =>
    have here := (dropHead_sublist next order).length_le
    simp only [List.map_cons, List.flatten_cons, List.length_append]
    omega

/-- Every round shortens the orders. -/
theorem length_remaining_lt
    (chosen : nextHead? (orders.filter fun order => !order.isEmpty) = some next) :
    (remaining orders next).flatten.length < orders.flatten.length := by
  obtain ⟨⟨order, mem, head⟩, -⟩ := nextHead?_eq_some chosen
  obtain ⟨tail, rfl⟩ := List.head?_eq_some_iff.mp head
  obtain ⟨before, after, split⟩ := List.append_of_mem mem
  rw [← List.flatten_filter_not_isEmpty (L := orders), remaining, split]
  have hb := length_flatten_map_dropHead_le next before
  have ha := length_flatten_map_dropHead_le next after
  simp only [List.map_append, List.map_cons, List.flatten_append, List.flatten_cons,
    List.length_append, dropHead, ↓reduceIte, List.length_cons]
  omega

/-! ### The merge -/

/-- What a merge does in a round that is left to it. -/
theorem merge_succ (taken rounds : Nat) (orders : List (List α)) :
    merge taken orders (rounds + 1) =
      if orders.flatten = [] then .ok []
      else
        match nextHead? (orders.filter fun order => !order.isEmpty) with
        | none => .error .inconsistent
        | some next =>
          if maxLength < taken + 1 then .error .tooLong
          else (merge (taken + 1) (remaining orders next) rounds).map (next :: ·) := by
  have empty : (orders.filter fun order => !order.isEmpty).isEmpty ↔ orders.flatten = [] := by
    simp only [List.isEmpty_iff, List.filter_eq_nil_iff, List.flatten_eq_nil_iff, Bool.not_eq_true',
      Bool.not_eq_false]
  by_cases none : orders.flatten = []
  · simp only [merge, empty.mpr none, none, ↓reduceIte]
  · have some : (orders.filter fun order => !order.isEmpty).isEmpty = false := by
      simpa using fun h => none (empty.mp h)
    simp only [merge, some, none, Bool.false_eq_true, ↓reduceIte]
    rfl

/-- A merge with more rounds than there is to remove ends by itself: further rounds change nothing. -/
theorem merge_add (taken : Nat) (orders : List (List α)) (rounds more : Nat)
    (enough : orders.flatten.length < rounds) :
    merge taken orders (rounds + more) = merge taken orders rounds := by
  induction rounds generalizing taken orders with
  | zero => omega
  | succ rounds ih =>
    rw [Nat.add_right_comm, merge_succ, merge_succ]
    split
    · rfl
    · split
      · rfl
      · rename_i next chosen
        have shorter := length_remaining_lt chosen
        rw [ih _ _ (by omega)]

/-- What a merge gives lists what the orders list, each thing once, keeps every order, and is not too
long. -/
theorem merge_eq_ok {taken rounds : Nat} {orders : List (List α)} {result : List α}
    (enough : orders.flatten.length < rounds) (merged : merge taken orders rounds = .ok result) :
    result.Nodup ∧ (∀ x, x ∈ result ↔ x ∈ orders.flatten) ∧
      (∀ order ∈ orders, order.Sublist result) ∧
      (taken ≤ maxLength → taken + result.length ≤ maxLength) := by
  -- each round takes one head; what is left is merged by induction
  induction rounds generalizing taken orders result with
  | zero => omega
  | succ rounds ih =>
    rw [merge_succ] at merged
    split at merged
    · rename_i empty
      cases merged
      refine ⟨List.nodup_nil, by simp [empty], ?_, by simp⟩
      intro order mem
      rw [List.flatten_eq_nil_iff.mp empty order mem]
    · split at merged
      · cases merged
      · rename_i next chosen
        split at merged
        · cases merged
        · rename_i short
          have shorter := length_remaining_lt chosen
          cases later : merge (taken + 1) (remaining orders next) rounds with
          | error fault => simp [later, Except.map] at merged
          | ok rest =>
            simp only [later, Except.map, Except.ok.injEq] at merged
            obtain ⟨nodup, covers, keeps, bound⟩ := ih (by omega) later
            subst merged
            -- the head that was taken stands nowhere in what is left
            have gone : next ∉ rest := by
              rw [covers, mem_flatten_remaining chosen]
              exact fun h => h.2 rfl
            refine ⟨List.nodup_cons.mpr ⟨gone, nodup⟩, ?_, ?_, ?_⟩
            · intro x
              rw [List.mem_cons, covers, mem_flatten_remaining chosen]
              have := mem_flatten_of_nextHead? chosen
              by_cases same : x = next
              · simp [same, this]
              · simp [same]
            · intro order mem
              cases order with
              | nil => exact List.nil_sublist _
              | cons head tail =>
                have kept : (dropHead next (head :: tail)).Sublist rest :=
                  keeps _ (List.mem_map_of_mem (List.mem_filter.mpr ⟨mem, rfl⟩))
                simp only [dropHead] at kept
                split at kept
                · rename_i same
                  exact same ▸ kept.cons_cons head
                · exact kept.cons next
            · intro _
              have := bound (by omega)
              rw [List.length_cons]
              omega

/-- The merge succeeds if some total order keeps all orders and there is not too much to list. -/
theorem exists_merge_eq_ok {taken : Nat} {orders : List (List α)} {total : List α}
    (nodup : total.Nodup) (keeps : ∀ order ∈ orders, order.Sublist total)
    (short : taken + orders.flatten.toFinset.card ≤ maxLength) (rounds : Nat) :
    ∃ result, merge taken orders rounds = .ok result := by
  induction rounds generalizing taken orders with
  | zero => exact ⟨[], rfl⟩
  | succ rounds ih =>
    rw [merge_succ]
    split
    · exact ⟨[], rfl⟩
    · rename_i something
      have left : ∃ order ∈ orders.filter fun order => !order.isEmpty, order ≠ [] := by
        simp only [List.flatten_eq_nil_iff, not_forall] at something
        obtain ⟨order, mem, ne⟩ := something
        exact ⟨order, List.mem_filter.mpr ⟨mem, by simpa using ne⟩, ne⟩
      obtain ⟨next, chosen⟩ :=
        exists_nextHead? nodup (fun order mem => keeps order (List.mem_filter.mp mem).1) left
      -- there is one element less to list, and one more is taken
      have fewer : (remaining orders next).flatten.toFinset = orders.flatten.toFinset.erase next := by
        ext x
        simp only [List.mem_toFinset, mem_flatten_remaining chosen, Finset.mem_erase, and_comm]
      have counted : next ∈ orders.flatten.toFinset :=
        List.mem_toFinset.mpr (mem_flatten_of_nextHead? chosen)
      have card := Finset.card_erase_add_one counted
      rw [← fewer] at card
      simp only [chosen]
      rw [if_neg (by omega)]
      have later : ∃ rest, merge (taken + 1) (remaining orders next) rounds = .ok rest := by
        refine ih (fun order dropped => ?_) (by omega)
        obtain ⟨order, mem, rfl⟩ := List.mem_map.mp dropped
        exact (dropHead_sublist next order).trans (keeps order (List.mem_filter.mp mem).1)
      obtain ⟨rest, merged⟩ := later
      exact ⟨next :: rest, by simp [merged, Except.map]⟩

/-! ### The ancestor order -/

/-- The orders that are merged for some parents. -/
def mergedOrders (parents : List α) (orderOf : α → List α) : List (List α) :=
  parents.map orderOf ++ [parents]

theorem linearize_eq {self : α} {parents : List α} {orderOf : α → List α} (fresh : self ∉ parents) :
    linearize self parents orderOf =
      (merge 1 (mergedOrders parents orderOf)
        ((mergedOrders parents orderOf).flatten.length + 1)).map (self :: ·) := by
  cases parents with
  | nil => rfl
  | cons first later =>
    have other : (first :: later).contains self = false := by
      simpa only [List.contains_eq_mem, decide_eq_false_iff_not] using fresh
    simp only [linearize, other, List.isEmpty_cons, Bool.false_eq_true, ↓reduceIte, mergedOrders]

theorem exists_of_linearize {self : α} {parents order : List α} {orderOf : α → List α}
    (fresh : self ∉ parents) (linear : linearize self parents orderOf = .ok order) :
    ∃ rest, order = self :: rest ∧
      merge 1 (mergedOrders parents orderOf)
        ((mergedOrders parents orderOf).flatten.length + 1) = .ok rest := by
  rw [linearize_eq fresh] at linear
  revert linear
  cases merge 1 (mergedOrders parents orderOf) ((mergedOrders parents orderOf).flatten.length + 1) with
  | error fault => exact fun linear => nomatch linear
  | ok rest =>
    intro linear
    cases linear
    exact ⟨rest, rfl, rfl⟩

section

variable {parents : List α} {orderOf : α → List α}
  (starts : ∀ p ∈ parents, (orderOf p).head? = some p)

include starts

omit [DecidableEq α] in
/-- The list of the parents adds nothing to what the orders of the parents list. -/
theorem mem_flatten_mergedOrders (x : α) :
    x ∈ (mergedOrders parents orderOf).flatten ↔ ∃ p ∈ parents, x ∈ orderOf p := by
  simp only [mergedOrders, List.flatten_append, List.mem_append, ← List.flatMap_def,
    List.mem_flatMap, List.flatten_singleton, or_iff_left_iff_imp]
  exact fun mem => ⟨x, mem, List.mem_of_head? (starts x mem)⟩

/-- What the merge gives is a common order, and shorter than the longest ancestor order. -/
theorem isCommonOrder_of_merge {rest : List α} {rounds : Nat}
    (enough : (mergedOrders parents orderOf).flatten.length < rounds)
    (merged : merge 1 (mergedOrders parents orderOf) rounds = .ok rest) :
    IsCommonOrder parents orderOf rest ∧ (parents.flatMap orderOf).toFinset.card < maxLength := by
  obtain ⟨nodup, covers, keeps, bound⟩ := merge_eq_ok enough merged
  have listed : (parents.flatMap orderOf).toFinset = rest.toFinset := by
    ext x
    rw [List.mem_toFinset, List.mem_toFinset, covers, mem_flatten_mergedOrders starts,
      List.mem_flatMap]
  have short := bound (by decide)
  refine ⟨⟨nodup, fun x => (covers x).trans (mem_flatten_mergedOrders starts x), ?_, ?_⟩, ?_⟩
  · exact fun p mem => keeps _ (List.mem_append_left _ (List.mem_map_of_mem mem))
  · exact keeps _ (List.mem_append_right _ (List.mem_singleton_self _))
  · rw [listed, List.toFinset_card_of_nodup nodup]
    omega

/-- The merge finds an order if there is a common one that is shorter than the longest ancestor
order. -/
theorem exists_merge_of_isCommonOrder {total : List α} (common : IsCommonOrder parents orderOf total)
    (short : (parents.flatMap orderOf).toFinset.card < maxLength) (rounds : Nat) :
    ∃ rest, merge 1 (mergedOrders parents orderOf) rounds = .ok rest := by
  have listed :
      (mergedOrders parents orderOf).flatten.toFinset = (parents.flatMap orderOf).toFinset := by
    ext x
    rw [List.mem_toFinset, List.mem_toFinset, mem_flatten_mergedOrders starts, List.mem_flatMap]
  refine exists_merge_eq_ok common.nodup ?_ (by rw [listed]; omega) rounds
  intro order mem
  rcases List.mem_append.mp mem with mem | mem
  · obtain ⟨p, inside, rfl⟩ := List.mem_map.mp mem
    exact common.keeps_orders p inside
  · rw [List.mem_singleton.mp mem]
    exact common.keeps_parents

end

/-- The ancestor order of a new Type exists exactly if its parents have a common order and fewer
ancestors than an ancestor order may list; otherwise the Type is refused. If it exists, it is the new
Type and then a common order of the parents. The merge ends by itself. Each parent is to be the first
of its own ancestors, and no ancestor is to be the new Type. -/
theorem linearize_sound_complete {self : α} {parents : List α} {orderOf : α → List α}
    (starts : ∀ p ∈ parents, (orderOf p).head? = some p) (fresh : ∀ p ∈ parents, self ∉ orderOf p) :
    (∀ rounds, (mergedOrders parents orderOf).flatten.length < rounds →
      linearize self parents orderOf =
        (merge 1 (mergedOrders parents orderOf) rounds).map (self :: ·)) ∧
    ((∃ order, linearize self parents orderOf = .ok order) ↔
      (∃ order, IsCommonOrder parents orderOf order) ∧
        (parents.flatMap orderOf).toFinset.card < maxLength) ∧
    (∀ fault, linearize self parents orderOf = .error fault →
      ∀ names, (Engine.lineageCause names fault).kind = .mroError) ∧
    ∀ order, linearize self parents orderOf = .ok order →
      ∃ rest, order = self :: rest ∧ self ∉ rest ∧ IsCommonOrder parents orderOf rest := by
  have other : self ∉ parents := fun mem => fresh self mem (List.mem_of_head? (starts self mem))
  have sound {order : List α} (linear : linearize self parents orderOf = .ok order) :
      ∃ rest, order = self :: rest ∧ IsCommonOrder parents orderOf rest ∧
        (parents.flatMap orderOf).toFinset.card < maxLength := by
    obtain ⟨rest, rfl, merged⟩ := exists_of_linearize other linear
    exact ⟨rest, rfl, isCommonOrder_of_merge starts (Nat.lt_succ_self _) merged⟩
  refine ⟨?_, ⟨?_, ?_⟩, ?_, ?_⟩
  · intro rounds enough
    obtain ⟨more, rfl⟩ := Nat.exists_eq_add_of_le (Nat.succ_le_of_lt enough)
    rw [linearize_eq other, merge_add _ _ _ more (Nat.lt_succ_self _)]
  · rintro ⟨order, linear⟩
    obtain ⟨rest, -, common, short⟩ := sound linear
    exact ⟨⟨rest, common⟩, short⟩
  · rintro ⟨⟨total, common⟩, short⟩
    obtain ⟨rest, merged⟩ := exists_merge_of_isCommonOrder starts common short
      ((mergedOrders parents orderOf).flatten.length + 1)
    exact ⟨self :: rest, by rw [linearize_eq other, merged]; rfl⟩
  · intro fault _ names
    cases fault <;> rfl
  · intro order linear
    obtain ⟨rest, same, common, -⟩ := sound linear
    refine ⟨rest, same, ?_, common⟩
    intro mem
    obtain ⟨p, inside, here⟩ := (common.mem_iff self).mp mem
    exact fresh p inside here

/-- The orders of a diamond: two Types extend a root, in this order in one Type and in the other order in
another one. -/
def diamondOrder : Nat → List Nat
  | 0 => [0]
  | 1 => [1, 0]
  | 2 => [2, 0]
  | 3 => [3, 1, 2, 0]
  | _ => [4, 2, 1, 0]

/-- The sides of a diamond have a common order; the two Types that order the sides differently have
none, and a Type that extends both is refused. -/
theorem linearize_diamond :
    ((∃ order, linearize 3 [1, 2] diamondOrder = .ok order) ∧
      ∃ order, IsCommonOrder [1, 2] diamondOrder order) ∧
    linearize 5 [3, 4] diamondOrder = .error .inconsistent ∧
    ¬ ∃ order, IsCommonOrder [3, 4] diamondOrder order := by
  obtain ⟨-, sides, -, -⟩ :=
    @linearize_sound_complete Nat _ 3 [1, 2] diamondOrder (by decide) (by decide)
  obtain ⟨-, tops, -, -⟩ :=
    @linearize_sound_complete Nat _ 5 [3, 4] diamondOrder (by decide) (by decide)
  have found : ∃ order, linearize 3 [1, 2] diamondOrder = .ok order := ⟨[3, 1, 2, 0], by decide⟩
  have refused : linearize 5 [3, 4] diamondOrder = .error .inconsistent := by decide
  refine ⟨⟨found, (sides.mp found).1⟩, refused, ?_⟩
  intro common
  obtain ⟨order, linear⟩ := tops.mpr ⟨common, by decide⟩
  rw [refused] at linear
  cases linear

end ObjectMachine.Lineage
