import ObjectMachine.Proofs.Allowance
import ObjectMachine.Proofs.Succeeding
/-!
The items of a range, told in three ways: by the length, by the test for membership, and by the cursor of an
iterator. All three are about one progression of exact integers, in either direction and at both ends of the 64
bits. The length is a ceiling, so that a position is below it just if its item comes before the bound. The cursor
is at the next item as long as there is one; where the sum that moves it does not fit, it had the last item behind
it already.
-/
namespace ObjectMachine

namespace Integer

variable {i : Int} {x : Int64}

theorem ofInt?_eq_some_iff : ofInt? i = some x ↔ x.toInt = i := by
  have lower : least ≤ x.toInt := Int64.le_toInt x
  have upper : x.toInt < greatest + 1 := Int64.toInt_lt x
  rw [ofInt?]
  by_cases fits : least ≤ i ∧ i ≤ greatest
  · have exact : (Int64.ofInt i).toInt = i := Int64.toInt_ofInt_of_le fits.1 (Int.lt_add_one_of_le fits.2)
    rw [if_pos fits, Option.some_inj, ← Int64.toInt_inj, exact, eq_comm]
  · rw [if_neg fits]
    refine iff_of_false (by simp) ?_
    rintro rfl
    omega

end Integer

namespace Range

variable {r : Range} {k : Nat} {x : Int64}

/-- The item at a position. -/
def item (r : Range) (k : Nat) : Int := r.start.toInt + k * r.step.toInt

/-- An integer does not come before the first item, in the direction of the steps. -/
def Ahead (r : Range) (i : Int) : Prop := if 0 < r.step then r.start.toInt ≤ i else i ≤ r.start.toInt

/-- An integer comes before the bound, in the direction of the steps. -/
def Inside (r : Range) (i : Int) : Prop := if 0 < r.step then i < r.stop.toInt else r.stop.toInt < i

theorem step_cases (r : Range) : 0 < r.step ∧ 0 < r.step.toInt ∨ ¬ 0 < r.step ∧ r.step.toInt < 0 := by
  have other : r.step.toInt ≠ 0 := fun same => r.step_ne_zero (Int64.toInt_inj.mp same)
  have zero : (0 : Int64).toInt = 0 := rfl
  rw [Int64.lt_iff_toInt_lt, zero]
  omega

theorem ahead_iff {q : Int} : r.Ahead (r.start.toInt + q * r.step.toInt) ↔ 0 ≤ q := by
  rcases r.step_cases with ⟨up, pos⟩ | ⟨down, neg⟩
  · rw [Ahead, if_pos up, ← Int.mul_nonneg_iff_of_pos_right pos]
    omega
  · rw [Ahead, if_neg down, ← Int.mul_nonneg_iff_of_pos_right (Int.neg_pos_of_neg neg), Int.mul_neg]
    omega

/-- What is between the ends of a range fits 64 bits. -/
theorem exists_of_between {i : Int} (ahead : r.Ahead i) (inside : r.Inside i) : ∃ x : Int64, x.toInt = i := by
  have := Int64.le_toInt r.start
  have := Int64.toInt_lt r.start
  have := Int64.le_toInt r.stop
  have := Int64.toInt_lt r.stop
  have fits : -2 ^ 63 ≤ i ∧ i < 2 ^ 63 := by
    rw [Ahead] at ahead
    rw [Inside] at inside
    split at ahead <;> simp_all only [if_true, if_false] <;> omega
  exact ⟨Int64.ofInt i, Int64.toInt_ofInt_of_le fits.1 fits.2⟩

/-- The length is the number of steps that stay before the bound. -/
theorem lt_length_iff : k < r.length ↔ r.Inside (r.item k) := by
  have ceiling (span size : Int) (pos : 0 < size) : k < ((span + size - 1) / size).toNat ↔ k * size < span := by
    rw [Int.lt_toNat, ← Int.add_one_le_iff, Int.le_ediv_iff_mul_le pos, Int.add_mul]
    omega
  rcases r.step_cases with ⟨up, pos⟩ | ⟨down, neg⟩
  · have size : (r.step.toInt.natAbs : Int) = r.step.toInt := by omega
    rw [length, Inside, if_pos up, if_pos up, size, ceiling _ _ pos, item]
    omega
  · have size : (r.step.toInt.natAbs : Int) = -r.step.toInt := by omega
    rw [length, Inside, if_neg down, if_neg down, size, ceiling _ _ (Int.neg_pos_of_neg neg), item, Int.mul_neg]
    omega

theorem exists_item (lt : k < r.length) : ∃ x : Int64, x.toInt = r.item k :=
  exists_of_between (ahead_iff.mpr (Int.natCast_nonneg k)) (lt_length_iff.mp lt)

/-- There are fewer items than 64 bits have values. -/
theorem length_lt (r : Range) : r.length < UInt64.size := by
  by_contra long
  have size : UInt64.size = 2 ^ 64 := rfl
  have inside := lt_length_iff.mp (show 2 ^ 64 - 1 < r.length by omega)
  have := Int64.le_toInt r.start
  have := Int64.toInt_lt r.start
  have := Int64.le_toInt r.stop
  have := Int64.toInt_lt r.stop
  rcases r.step_cases with ⟨up, pos⟩ | ⟨down, neg⟩
  · rw [Inside, if_pos up, item] at inside
    omega
  · rw [Inside, if_neg down, item] at inside
    omega

/-- A range contains its items. -/
theorem contains_iff : r.contains x ↔ ∃ k < r.length, x.toInt = r.item k := by
  have bounds : r.contains x ↔ r.Ahead x.toInt ∧ r.Inside x.toInt ∧ r.step.toInt ∣ x.toInt - r.start.toInt := by
    rw [contains, Bool.and_eq_true, beq_iff_eq, ← Int.dvd_iff_tmod_eq_zero, ← and_assoc, Ahead, Inside]
    refine and_congr_left fun _ => ?_
    split <;> simp only [Bool.and_eq_true, decide_eq_true_eq, Int64.le_iff_toInt_le, Int64.lt_iff_toInt_lt]
  rw [bounds]
  constructor
  · rintro ⟨ahead, inside, q, steps⟩
    have same : x.toInt = r.start.toInt + q * r.step.toInt := by
      rw [Int.mul_comm]
      omega
    obtain ⟨k, rfl⟩ := Int.eq_ofNat_of_zero_le (ahead_iff.mp (same ▸ ahead))
    rw [same] at inside
    exact ⟨k, lt_length_iff.mpr inside, same⟩
  · rintro ⟨k, lt, same⟩
    have steps : x.toInt - r.start.toInt = r.step.toInt * k := by
      rw [same, item, Int.mul_comm]
      omega
    refine ⟨?_, ?_, k, steps⟩
    · rw [same]
      exact ahead_iff.mpr (Int.natCast_nonneg k)
    · rw [same]
      exact lt_length_iff.mp lt

/-! ### Cursors -/

/-- A cursor has so many items behind it. Behind the last one it may be anywhere but before the bound. -/
def Passed (r : Range) (k : Nat) (c : Cursor) : Prop :=
  ∃ next, c = .range next r.stop r.step ∧ (k < r.length → next.toInt = r.item k) ∧
    (r.length ≤ k → ¬ r.Inside next.toInt)

theorem passed_start (r : Range) : r.Passed 0 (.range r.start r.stop r.step) := by
  have first : r.start.toInt = r.item 0 := by simp [item]
  refine ⟨r.start, rfl, fun _ => first, fun none => ?_⟩
  rw [first, ← lt_length_iff]
  exact none.not_gt

/-- The next cursor has one more item behind it. The sum that gives it may not fit; then this item was the last. -/
theorem passed_next {next : Int64} (here : next.toInt = r.item k) :
    r.Passed (k + 1) (.range ((Integer.add? next r.step).getD r.stop) r.stop r.step) := by
  have sum : next.toInt + r.step.toInt = r.item (k + 1) := by
    simp only [item, here, Int.natCast_add, Int.add_mul]
    omega
  cases added : Integer.add? next r.step with
  | some later =>
    have exact : later.toInt = r.item (k + 1) := (Integer.ofInt?_eq_some_iff.mp added).trans sum
    refine ⟨later, rfl, fun _ => exact, fun ended => ?_⟩
    rw [exact, ← lt_length_iff]
    exact ended.not_gt
  | none =>
    have last : ¬ k + 1 < r.length := by
      intro lt
      obtain ⟨x, fits⟩ := exists_item lt
      rw [Integer.add?, sum, Integer.ofInt?_eq_some_iff.mpr fits] at added
      cases added
    refine ⟨r.stop, rfl, fun lt => absurd lt last, fun _ => ?_⟩
    rw [Inside]
    split <;> exact Int.lt_irrefl _

/-- How an iterator answers that has so many items of a range behind it: with the next item, unless there is no room to
store it, or with the end. -/
inductive Answers (r : Range) (k : Nat) : Outcome Ref → Prop where
  /-- The next item. -/
  | item {value : Ref} {x : Int64} {m : Machine} (lt : k < r.length) (stored : m.heap.payload? value = some (.int x))
    (exact : x.toInt = r.item k) : Answers r k (.ok value m)
  /-- No room for an integer. -/
  | refused {e : Raised} {m : Machine} (lt : k < r.length) (full : ¬ m.heap.HasRoom 1) :
    Answers r k (.error (.exhausted e) m)
  /-- The end. -/
  | stopped {m : Machine} (ended : r.length ≤ k) : Answers r k (.error (.raised (.ofCause .stopped)) m)

end Range

/-- Whether a computation gives a value. -/
def Outcome.gives {α : Type} : Outcome α → Bool
  | .ok .. => true
  | .error .. => false

namespace Range

variable {r : Range} {k : Nat}

/-- How many items are behind an iterator after an answer. -/
def behind (k : Nat) (outcome : Outcome Ref) : Nat := if outcome.gives then k + 1 else k

/-- How an iterator answers one question after another that has so many items of a range behind it. -/
def AnswersFrom (r : Range) : Nat → List (Outcome Ref) → Prop
  | _, [] => True
  | k, outcome :: later => r.Answers k outcome ∧ r.AnswersFrom (behind k outcome) later

/-- If no answer is refused, all items are given that are asked for. -/
theorem AnswersFrom.count {outcomes : List (Outcome Ref)} (answers : r.AnswersFrom k outcomes)
    (granted : ∀ e m', .error (.exhausted e) m' ∉ outcomes) (le : k ≤ r.length) :
    k + outcomes.countP Outcome.gives = min (k + outcomes.length) r.length := by
  induction outcomes generalizing k with
  | nil => exact (Nat.min_eq_left le).symm
  | cons outcome later ih =>
    obtain ⟨first, rest⟩ := answers
    have granted' : ∀ e m', .error (.exhausted e) m' ∉ later := fun e m' mem => granted e m' (.tail _ mem)
    cases first with
    | @item value x m lt stored exact =>
      have count : k + 1 + later.countP Outcome.gives = min (k + 1 + later.length) r.length := ih rest granted' lt
      rw [List.countP_cons_of_pos rfl, List.length_cons]
      omega
    | @refused e m lt full => exact absurd List.mem_cons_self (granted e m)
    | @stopped m ended =>
      have count : k + later.countP Outcome.gives = min (k + later.length) r.length := ih rest granted' le
      rw [List.countP_cons_of_neg Bool.false_ne_true, List.length_cons]
      omega

end Range

/-! ### Iterators -/

namespace Engine

variable {due : Schedule} {m : Machine} {r : Range} {k : Nat} {iterator : Ref} {c : Cursor}

/-- Where there is no room an object is not stored, and all is as it was. -/
theorem runUnder_new_of_full (due : Schedule) (payload : Payload) (full : ¬ m.heap.HasRoom 1) :
    ∃ e, (new payload).runUnder due m = .error (.exhausted e) m := by
  obtain ⟨e, refused⟩ := Heap.exists_allocate_error (.ofPayload payload none) full
  obtain ⟨limit, count, rfl⟩ := Heap.exhaustion_of_allocate refused
  obtain ⟨heap, builtins, globals, depth, roots, printer, tracer⟩ := m
  refine ⟨.ofExhaustion (.allocation limit count), ?_⟩
  simp only [new, runUnder, Op.perform, Op.onHeap, refused]
  rfl

theorem inside_iff {next : Int64} : (if 0 < r.step then next < r.stop else r.stop < next) ↔ r.Inside next.toInt := by
  rw [Range.Inside]
  split <;> exact Int64.lt_iff_toInt_lt

/-- The iterator of a range at its end. -/
theorem runUnder_iteratorNext_of_outside {next : Int64} (due : Schedule) (outside : ¬ r.Inside next.toInt)
    (found : m.heap.payload? iterator = some (.iterator (.range next r.stop r.step))) :
    (iteratorNext iterator).runUnder due m = .error (.raised (.ofCause .stopped)) m := by
  simp only [iteratorNext, runUnder_bind, runUnder_payload, found, advance, if_neg (mt inside_iff.mp outside)]
  rfl

/-- The iterator of a range before its end. -/
theorem runUnder_iteratorNext_of_inside {next : Int64} (due : Schedule) (inside : r.Inside next.toInt)
    (found : m.heap.payload? iterator = some (.iterator (.range next r.stop r.step))) :
    (iteratorNext iterator).runUnder due m =
      (do
        let item ← newInt next
        change iterator (.cursor (.range ((Integer.add? next r.step).getD r.stop) r.stop r.step))
        return item).runUnder due m := by
  simp only [iteratorNext, runUnder_bind, runUnder_payload, found, advance, if_pos (inside_iff.mpr inside)]
  cases (newInt next).runUnder due m <;> rfl

theorem runUnder_change {o : Ref} {p : Payload} (due : Schedule) (ch : Change) (found : m.heap.payload? o = some p) :
    (change o ch).runUnder due m = .ok () (m.withHeap fun h => h.modify o ch.apply) := by
  obtain ⟨object, live, -⟩ := Option.map_eq_some_iff.mp found
  have occupied : m.heap.objects.occupied o.slot = true := Option.isSome_iff_exists.mpr ⟨object, live⟩
  simp only [change, runUnder, Op.perform, occupied, if_true]

/-- An iterator that has so many items of a range behind it answers, and has one more behind it if it gives one. -/
theorem answers_iteratorNext (due : Schedule) (w : m.heap.objects.WellFormed)
    (found : m.heap.payload? iterator = some (.iterator c)) (passed : r.Passed k c) :
    let outcome := (iteratorNext iterator).runUnder due m
    r.Answers k outcome ∧ outcome.machine.heap.objects.WellFormed ∧
      ∃ c', outcome.machine.heap.payload? iterator = some (.iterator c') ∧ r.Passed (Range.behind k outcome) c' := by
  obtain ⟨next, rfl, here, behind⟩ := passed
  intro outcome
  by_cases lt : k < r.length
  · have inside : r.Inside next.toInt := here lt ▸ Range.lt_length_iff.mp lt
    have asked := runUnder_iteratorNext_of_inside due inside found
    by_cases room : m.heap.HasRoom 1
    · obtain ⟨item, m₁, stored, spends, holds⟩ := succeeds_new due w (.int next) room
      have still := spends.retains.adds.payload? found
      have other : iterator ≠ item := by
        rintro rfl
        rw [Heap.payload?, holds] at still
        cases still
      have ran : outcome = .ok item (m₁.withHeap fun h => h.modify iterator
          (Change.cursor (.range ((Integer.add? next r.step).getD r.stop) r.stop r.step)).apply) := by
        show (iteratorNext iterator).runUnder due m = _
        rw [asked, runUnder_bind, newInt, stored]
        dsimp only
        rw [runUnder_bind, runUnder_change due _ still]
        rfl
      rw [ran]
      refine ⟨.item lt ?_ (here lt), spends.wellFormed.modify _ _, _, ?_, Range.passed_next (here lt)⟩
      · rw [Machine.heap_withHeap, Heap.payload?_modify, if_neg other, Heap.payload?, holds]
        rfl
      · rw [Outcome.machine, Machine.heap_withHeap, Heap.payload?_modify, if_pos rfl, still]
        rfl
    · obtain ⟨e, refused⟩ := runUnder_new_of_full due (.int next) room
      have ran : outcome = .error (.exhausted e) m := by
        show (iteratorNext iterator).runUnder due m = _
        rw [asked, runUnder_bind, newInt, refused]
      rw [ran]
      exact ⟨.refused lt room, w, _, found, next, rfl, here, behind⟩
  · have ended : r.length ≤ k := Nat.le_of_not_lt lt
    have ran : outcome = .error (.raised (.ofCause .stopped)) m :=
      runUnder_iteratorNext_of_outside due (behind ended) found
    rw [ran]
    exact ⟨.stopped ended, w, _, found, next, rfl, here, behind⟩

/-- An iterator is asked for items again and again, and answers. Between two answers anything may happen that leaves the
iterator as it is and the slots in order. -/
inductive Polled (due : Schedule) (iterator : Ref) : Machine → List (Outcome Ref) → Prop where
  /-- It is not asked any more. -/
  | rest (m : Machine) : Polled due iterator m []
  /-- It is asked, and asked again later. -/
  | ask {m m' : Machine} {later : List (Outcome Ref)} (order : m'.heap.objects.WellFormed)
    (unmoved : m'.heap.payload? iterator = ((iteratorNext iterator).runUnder due m).machine.heap.payload? iterator)
    (more : Polled due iterator m' later) : Polled due iterator m ((iteratorNext iterator).runUnder due m :: later)

/-- It can be asked any number of times. -/
theorem exists_polled (due : Schedule) (w : m.heap.objects.WellFormed)
    (found : m.heap.payload? iterator = some (.iterator c)) (passed : r.Passed k c) (n : Nat) :
    ∃ outcomes, outcomes.length = n ∧ Polled due iterator m outcomes := by
  induction n generalizing m k c with
  | zero => exact ⟨[], rfl, .rest m⟩
  | succ n ih =>
    obtain ⟨-, order, c', found', passed'⟩ := answers_iteratorNext due w found passed
    obtain ⟨later, length, more⟩ := ih order found' passed'
    exact ⟨_ :: later, congrArg Nat.succ length, .ask order rfl more⟩

/-- Each answer is the one that is due behind the items given before. -/
theorem Polled.answersFrom {outcomes : List (Outcome Ref)} (asked : Polled due iterator m outcomes)
    (w : m.heap.objects.WellFormed) (found : m.heap.payload? iterator = some (.iterator c)) (passed : r.Passed k c) :
    r.AnswersFrom k outcomes := by
  induction asked generalizing k c with
  | rest m => trivial
  | ask order unmoved more ih =>
    obtain ⟨answers, -, c', found', passed'⟩ := answers_iteratorNext due w found passed
    exact ⟨answers, ih order (unmoved.trans found') passed'⟩

/-- A range has fewer items than 64 bits have values, and contains just these. Its iterator, if there is room for it,
may be asked any number of times: it gives the items in order, each exactly, and then stops, again and again. An answer
is refused only where there is no room for an integer, and then comes with the next question; if none is refused, there
are as many items as the length says. -/
theorem range_iterates (due : Schedule) (w : m.heap.objects.WellFormed) {range : Ref}
    (holds : m.heap.payload? range = some (.range r)) :
    r.length < UInt64.size ∧ (∀ x : Int64, r.contains x ↔ ∃ k < r.length, x.toInt = r.item k) ∧
      ((¬ m.heap.HasRoom 1 ∧ ∃ e, (runRange .iter [range]).runUnder due m = .error (.exhausted e) m) ∨
        ∃ iterator m₁, (runRange .iter [range]).runUnder due m = .ok iterator m₁ ∧
          (∀ n, ∃ outcomes, outcomes.length = n ∧ Polled due iterator m₁ outcomes) ∧
          ∀ outcomes, Polled due iterator m₁ outcomes → r.AnswersFrom 0 outcomes ∧
            ((∀ e m', .error (.exhausted e) m' ∉ outcomes) →
              outcomes.countP Outcome.gives = min outcomes.length r.length)) := by
  refine ⟨r.length_lt, fun x => Range.contains_iff, ?_⟩
  have made : (runRange .iter [range]).runUnder due m =
      (new (.iterator (.range r.start r.stop r.step))).runUnder due m := by
    simp only [runRange, rangeOf, runUnder_bind, runUnder_payload, holds, runUnder_pure]
  rw [made]
  by_cases room : m.heap.HasRoom 1
  · obtain ⟨iterator, m₁, stored, spends, live⟩ := succeeds_new due w (.iterator (.range r.start r.stop r.step)) room
    have found : m₁.heap.payload? iterator = some (.iterator (.range r.start r.stop r.step)) := by
      rw [Heap.payload?, live]
      rfl
    have order := spends.wellFormed
    refine .inr ⟨iterator, m₁, stored, exists_polled due order found r.passed_start, fun outcomes asked => ?_⟩
    have answers := asked.answersFrom order found r.passed_start
    refine ⟨answers, fun granted => ?_⟩
    have count := answers.count granted (Nat.zero_le _)
    rwa [Nat.zero_add, Nat.zero_add] at count
  · exact .inl ⟨room, runUnder_new_of_full due _ room⟩

/-- A program that makes a range whose second item would not fit. -/
def makesLastRange : Code :=
  assemble
    [.get "range", .int 9223372036854775806, .int 9223372036854775807, .int 5, .op (.call 3), .define "r"]

/-- The last but one of all integers is the one item of a range that a program makes. -/
theorem range_iterates_at_top :
    let m := (Machine.boot .unlimited .silent).afterSession [.request .discarding (.run makesLastRange)]
    ∃ range r, m.getGlobal? "r" = some range ∧ m.heap.payload? range = some (.range r) ∧ r.length = 1 ∧
      (∃ k < r.length, (9223372036854775806 : Int64).toInt = r.item k) ∧
      ∃ iterator m₁, (runRange .iter [range]).run m = .ok iterator m₁ ∧
        ∀ outcomes, Polled Heap.collectionDue iterator m₁ outcomes → r.AnswersFrom 0 outcomes := by
  intro m
  let r : Range := ⟨9223372036854775806, 9223372036854775807, 5, by decide⟩
  obtain ⟨named, found, contains, length, unlimited⟩ : m.getGlobal? "r" = some ⟨145⟩ ∧
      m.heap.payload? ⟨145⟩ = some (.range r) ∧ r.contains 9223372036854775806 ∧ r.length = 1 ∧
      m.heap.budget = .unlimited := by
    decide +kernel
  have reachable : m.heap ∈ (Machine.boot .unlimited .silent).passage _ := Machine.heap_afterSession_mem_passage _ _
  have order := (Machine.orderly_of_mem_passage reachable).objects
  clear_value m
  obtain ⟨-, members, ⟨full, -⟩ | ⟨iterator, m₁, made, -, answers⟩⟩ := range_iterates Heap.collectionDue order found
  · rw [Heap.HasRoom, unlimited] at full
    exact absurd trivial full
  · exact ⟨⟨145⟩, r, named, found, length, (members _).mp contains, iterator, m₁, made,
      fun outcomes asked => (answers outcomes asked).1⟩

end Engine

end ObjectMachine
