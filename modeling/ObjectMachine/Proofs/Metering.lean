import ObjectMachine.Proofs.Bare
import ObjectMachine.Proofs.Failure
/-!
Metering. A limit of instructions does not change what a computation goes through; it only cuts the
computation off. The metered run is laid beside the run of the same computation on the same machine
without that limit: they agree moment by moment, up to the end or up to the first instruction that the
budget refuses. How many instructions were counted is read off the history, so it is known which one that
is.
-/
namespace ObjectMachine

/-! ### Without the meter -/

/-- The machine without a limit of instructions. -/
def Machine.unmetered (m : Machine) : Machine := m.withHeap Heap.unmetered

/-- The outcome, but for the limit of instructions. -/
def Outcome.unmetered {α : Type} : Outcome α → Outcome α
  | .ok a m => .ok a m.unmetered
  | .error e m => .error e m.unmetered

namespace Moment

/-- The moment as the machine without a limit of instructions goes through it. -/
def unmetered : Moment → Moment
  | acts o held m => acts o held m.unmetered
  | throws e m => throws e m.unmetered
  | enters m => enters m.unmetered
  | refuses m => refuses m.unmetered
  | opens phase resumed m => opens phase resumed m.unmetered
  | bars phase resumed e m => bars phase resumed e m.unmetered
  | shuts phase m outcome => shuts phase m.unmetered outcome.unmetered
  | forgiven moment => forgiven moment.unmetered

/-- Whether an instruction is booked. -/
def isBooking : Moment → Bool
  | acts .tick _ _ => true
  | _ => false

/-- Whether an instruction is booked that the budget refuses. -/
def isCutOff : Moment → Bool
  | acts .tick _ m =>
    match m.heap.tick.1 with
    | .ok _ => false
    | .error _ => true
  | _ => false

theorem isBooking_of_isCutOff {moment : Moment} (cut : moment.isCutOff) : moment.isBooking := by
  unfold isCutOff at cut
  split at cut
  · rfl
  · cases cut

end Moment

/-- How many instructions are booked, the refused one included. -/
def bookings (history : List Moment) : Nat := history.countP Moment.isBooking

theorem bookings_append (first later : List Moment) :
    bookings (first ++ later) = bookings first + bookings later :=
  List.countP_append

theorem bookings_cons (moment : Moment) (later : List Moment) :
    bookings (moment :: later) = bookings [moment] + bookings later :=
  bookings_append [moment] later

theorem bookings_forgiven (history : List Moment) : bookings (history.map .forgiven) = 0 := by
  simp [bookings, List.countP_map, Function.comp_def, Moment.isBooking]

namespace Op

variable {due : Schedule} {r : Rights} {m : Machine}

end Op

/-! ### Two runs side by side -/

/-- What one run goes through, beside what another goes through that has no limit of instructions. Either
both go through the same to their ends, or they do so until the first one is cut off. -/
inductive Truncates {α : Type} (history free : List Moment) (outcome whole : Outcome α) : Prop where
  | never (within : ∀ moment ∈ history, moment.isCutOff = false) (same : free = history.map .unmetered)
    (ends : whole = outcome.unmetered)
  | cutOff (before : List Moment) (moment : Moment) (after rest : List Moment)
    (split : history = before ++ moment :: after)
    (within : ∀ earlier ∈ before, earlier.isCutOff = false) (cut : moment.isCutOff)
    (same : free = before.map .unmetered ++ moment.unmetered :: rest)

namespace Truncates

variable {α β : Type} {history free : List Moment} {outcome whole : Outcome α}

/-- What is made of the outcomes does not depend on the limit either. -/
theorem ending (beside : Truncates history free outcome whole) {outcome' whole' : Outcome β}
    (same : whole = outcome.unmetered → whole' = outcome'.unmetered) :
    Truncates history free outcome' whole' := by
  cases beside with
  | never within histories ends => exact .never within histories (same ends)
  | cutOff before moment after rest split within cut histories =>
    exact .cutOff before moment after rest split within cut histories

theorem cons {first : Moment} (fine : first.isCutOff = false)
    (beside : Truncates history free outcome whole) :
    Truncates (first :: history) (first.unmetered :: free) outcome whole := by
  have before (earlier : List Moment) (within : ∀ moment ∈ earlier, moment.isCutOff = false) :
      ∀ moment ∈ first :: earlier, moment.isCutOff = false :=
    List.forall_mem_cons.mpr ⟨fine, within⟩
  cases beside with
  | never within same ends => exact .never (before _ within) (by rw [same]; rfl) ends
  | cutOff earlier moment after rest split within cut same =>
    exact .cutOff (first :: earlier) moment after rest (by rw [split]; rfl) (before _ within) cut
      (by rw [same]; rfl)

/-- One thing after another: what comes later matters only if the first was not cut off. -/
theorem append {later free' : List Moment} {outcome' whole' : Outcome β}
    (beside : Truncates history free outcome whole)
    (next : whole = outcome.unmetered → Truncates later free' outcome' whole') :
    Truncates (history ++ later) (free ++ free') outcome' whole' := by
  cases beside with
  | never within same ends =>
    have all (earlier : List Moment) (fine : ∀ moment ∈ earlier, moment.isCutOff = false) :
        ∀ moment ∈ history ++ earlier, moment.isCutOff = false :=
      List.forall_mem_append.mpr ⟨within, fine⟩
    cases next ends with
    | never fine same' ends' => exact .never (all _ fine) (by rw [same, same', List.map_append]) ends'
    | cutOff before moment after rest split fine cut same' =>
      refine .cutOff (history ++ before) moment after rest ?_ (all _ fine) cut ?_
      · rw [split, List.append_assoc]
      · rw [same, same', List.map_append, List.append_assoc]
  | cutOff before moment after rest split within cut same =>
    refine .cutOff before moment (after ++ later) (rest ++ free') ?_ within cut ?_
    · rw [split, List.append_assoc, List.cons_append]
    · rw [same, List.append_assoc, List.cons_append]

end Truncates

namespace Engine

variable {α : Type} {kept : List Ref} {r : Rights} {x y : Engine α} {due : Schedule}

theorem Untimed.isBooking_eq_false (untimed : x.Untimed) (due : Schedule) (held : List Node) (m : Machine) :
    ∀ moment ∈ x.history due held m, moment.isBooking = false := by
  induction x generalizing held m with
  | give a => exact List.forall_mem_nil _
  | throw e => exact List.forall_mem_singleton.mpr rfl
  | act o =>
    refine List.forall_mem_singleton.mpr ?_
    cases o with
    | tick => exact untimed.elim
    | _ => rfl
  | andThen x f ihx ihf =>
    obtain ⟨first, later⟩ := untimed
    simp only [history]
    refine List.forall_mem_append.mpr ⟨ihx first held m, ?_⟩
    cases x.runUnder due m with
    | ok a m' => exact ihf a (later a) held m'
    | error e m' => exact List.forall_mem_nil _
  | _ => exact untimed.elim

end Engine

/-! ### Counting instructions -/

namespace Budget

/-- The limit of instructions, if there is one, and how many were counted. -/
def meter? : Budget → Option (Nat × Nat)
  | unlimited => none
  | limited a => a.limits.maxOperations.map fun limit => (limit, a.operations)

theorem meter_allocate {b b' : Budget} (booked : b.allocate = .ok b') : b'.meter? = b.meter? := by
  cases b with
  | unlimited =>
    cases booked
    rfl
  | limited a =>
    simp only [allocate] at booked
    split at booked
    · split at booked <;> cases booked
      rfl
    · cases booked
      rfl

theorem meter_free (b : Budget) (count : Nat) : (b.free count).meter? = b.meter? := by
  cases b <;> rfl

theorem meter_tick {b : Budget} {limit count : Nat} (metered : b.meter? = some (limit, count)) :
    b.tick.2.meter? = some (limit, count + 1) := by
  cases b with
  | unlimited => cases metered
  | limited a =>
    obtain ⟨bound, limited, same⟩ := Option.map_eq_some_iff.mp metered
    cases same
    simp only [tick, meter?, limited, Option.map_some]

theorem meter_beginRequest {b : Budget} {limit count : Nat} (metered : b.meter? = some (limit, count)) :
    b.beginRequest.meter? = some (limit, 0) := by
  cases b with
  | unlimited => cases metered
  | limited a =>
    obtain ⟨bound, limited, same⟩ := Option.map_eq_some_iff.mp metered
    cases same
    simp only [beginRequest, meter?, limited, Option.map_some]

theorem tick_of_meter {b : Budget} {limit count : Nat} (metered : b.meter? = some (limit, count)) :
    b.tick.1 = if limit < count + 1 then .error (.operation limit (count + 1)) else .ok () := by
  cases b with
  | unlimited => cases metered
  | limited a =>
    obtain ⟨bound, limited, same⟩ := Option.map_eq_some_iff.mp metered
    cases same
    simp only [tick, limited]

end Budget

namespace Heap

/-- There is a limit of instructions, and so many were counted. -/
def Metered (h : Heap) (limit count : Nat) : Prop := h.budget.meter? = some (limit, count)

variable {h : Heap}

theorem meter_book (h : Heap) : h.book.2.budget.meter? = h.budget.meter? := by
  simp only [book]
  split
  · rename_i booked
    exact Budget.meter_allocate booked
  · rfl

theorem meter_allocate (h : Heap) (o : Object) : (h.allocate o).2.budget.meter? = h.budget.meter? := by
  rw [← h.meter_book]
  simp only [allocate]
  split <;> rename_i booked <;> exact congrArg (fun book => book.2.budget.meter?) booked.symm

theorem meter_allocateScope (h : Heap) (s : Scope) :
    (h.allocateScope s).2.budget.meter? = h.budget.meter? := by
  rw [← h.meter_book]
  simp only [allocateScope]
  split <;> rename_i booked <;> exact congrArg (fun book => book.2.budget.meter?) booked.symm

theorem meter_allocateType (h : Heap) (name : String) (parents : List Ref) :
    (h.allocateType name parents).2.budget.meter? = h.budget.meter? := by
  rw [← h.meter_allocate (.ofPayload (.type { name, parents := [], mro := [] }) none)]
  simp only [allocateType]
  split <;> rename_i stored <;> rw [stored]
  split <;> rfl

end Heap

namespace Moment

/-- What a moment shows of the meter: an instruction is booked on top of those that were counted, and only
the use of a budget finds it exhausted. -/
def Reads (limit count : Nat) : Moment → Prop
  | acts .tick _ m => m.heap.Metered limit count
  | throws e _ => e.isExhausted = false
  | bars _ _ e _ => (Interrupt.ofExhaustion e).isExhausted = false
  | _ => True

theorem isCutOff_iff {limit count : Nat} {moment : Moment} (booked : moment.isBooking)
    (reads : moment.Reads limit count) : moment.isCutOff ↔ limit < count + 1 := by
  unfold isBooking at booked
  split at booked
  · rename_i held m
    have metered : m.heap.Metered limit count := reads
    have ticked : m.heap.tick.1 = m.heap.budget.tick.1 := rfl
    simp only [isCutOff, ticked, Budget.tick_of_meter metered]
    by_cases beyond : limit < count + 1 <;> simp [beyond]
  · cases booked

end Moment

/-- At each moment of a history, as many instructions were counted as the history booked before, and
`count` more. -/
def Counts (limit : Nat) : Nat → List Moment → Prop
  | _, [] => True
  | count, moment :: later =>
    moment.Reads limit count ∧ Counts limit (count + bookings [moment]) later

namespace Counts

variable {limit count : Nat} {history first later before after : List Moment} {moment : Moment}

theorem append (counts : Counts limit count first)
    (more : Counts limit (count + bookings first) later) : Counts limit count (first ++ later) := by
  induction first generalizing count with
  | nil => exact more
  | cons moment rest ih =>
    obtain ⟨reads, counts⟩ := counts
    refine ⟨reads, ih counts ?_⟩
    rwa [bookings_cons, ← Nat.add_assoc] at more

theorem of_append (counts : Counts limit count (first ++ later)) :
    Counts limit count first ∧ Counts limit (count + bookings first) later := by
  induction first generalizing count with
  | nil => exact ⟨trivial, counts⟩
  | cons moment rest ih =>
    obtain ⟨reads, counts⟩ := counts
    obtain ⟨front, behind⟩ := ih counts
    rw [bookings_cons, ← Nat.add_assoc]
    exact ⟨⟨reads, front⟩, behind⟩

/-- Where errors are forgiven, nothing is counted. -/
theorem of_forgiven (history : List Moment) : Counts limit count (history.map .forgiven) := by
  induction history generalizing count with
  | nil => trivial
  | cons moment rest ih => exact ⟨trivial, ih⟩

theorem single (reads : moment.Reads limit count) : Counts limit count [moment] := ⟨reads, trivial⟩

/-- Instructions that are all booked without a refusal stay within the limit. -/
theorem within (counts : Counts limit count history)
    (fine : ∀ moment ∈ history, moment.isCutOff = false) (some : 0 < bookings history) :
    count + bookings history ≤ limit := by
  induction history generalizing count with
  | nil => cases some
  | cons moment rest ih =>
    obtain ⟨reads, counts⟩ := counts
    obtain ⟨here, later⟩ := List.forall_mem_cons.mp fine
    rw [bookings_cons] at some ⊢
    by_cases more : 0 < bookings rest
    · have bound := ih counts later more
      omega
    · have booked : moment.isBooking := by
        by_contra idle
        have none : bookings [moment] = 0 := by simp [bookings, idle]
        omega
      have single : bookings [moment] = 1 := by simp [bookings, booked]
      have notCut := (Moment.isCutOff_iff booked reads).not.mp (by simp [here])
      omega

/-- The instruction that is refused is the first one over the limit. -/
theorem cutOff (counts : Counts limit count (before ++ moment :: after)) (cut : moment.isCutOff) :
    limit < count + bookings before + 1 := by
  have booked : moment.isBooking := Moment.isBooking_of_isCutOff cut
  exact (Moment.isCutOff_iff booked counts.of_append.2.1).mp cut

end Counts

namespace Op

variable {due : Schedule} {r : Rights} {m : Machine} {limit count : Nat}

theorem metered_perform {α : Type} (o : Op α) (held : List Node) (permitted : o.Permitted r)
    (start : m.heap.Metered limit count) :
    (o.perform due m).machine.heap.Metered limit (count + bookings [.acts o held m]) := by
  have onHeap {β : Type} (f : Heap → Except Exhaustion β × Heap) :
      (Op.onHeap f m).machine.heap = (f m.heap).2 := by
    simp only [Op.onHeap]
    split <;> rename_i ran <;> rw [ran] <;> rfl
  cases o with
  | load r =>
    simp only [perform]
    split <;> exact start
  | loadScope s =>
    simp only [perform]
    split <;> exact start
  | store o =>
    rw [perform, onHeap]
    exact (m.heap.meter_allocate o).trans start
  | storeType name parents =>
    rw [perform, onHeap]
    exact (m.heap.meter_allocateType name parents).trans start
  | openScope outer =>
    rw [perform, onHeap]
    exact (m.heap.meter_allocateScope _).trans start
  | change r c =>
    simp only [perform]
    split <;> exact start
  | define s name value => exact (congrArg _ (m.heap.budget_define s name value)).trans start
  | assign s name value => exact (congrArg _ (m.heap.budget_assign s name value)).trans start
  | undefine s name => exact (congrArg _ (m.heap.budget_undefine s name)).trans start
  | tick =>
    rw [perform, onHeap]
    exact Budget.meter_tick start
  | collectIfDue nodes =>
    simp only [perform]
    split
    · exact (Budget.meter_free _ _).trans start
    · exact start
  | print s =>
    simp only [perform, printTo]
    split <;> exact start
  | beginRequest => exact permitted.elim
  | _ => exact start

end Op

/-- A nested call counts what is called. -/
theorem Machine.counts_inside {α : Type} {m : Machine} {history : Machine → List Moment}
    {outcome : Outcome α} {limit count : Nat} (start : m.heap.Metered limit count)
    (refused : ∀ e, m.enter = .error e → outcome.machine = m)
    (inside : ∀ inner, m.enter = .ok inner → inner.heap.Metered limit count →
      Counts limit count (history inner) ∧
        outcome.machine.heap.Metered limit (count + bookings (history inner))) :
    Counts limit count (m.historyInside history) ∧
      outcome.machine.heap.Metered limit (count + bookings (m.historyInside history)) := by
  simp only [historyInside]
  cases entered : m.enter with
  | error e => exact ⟨.single trivial, (refused e entered).symm ▸ start⟩
  | ok inner =>
    obtain ⟨counts, last⟩ := inside inner entered (heap_of_enter entered ▸ start)
    exact ⟨⟨trivial, counts⟩, last⟩

namespace Engine

variable {α : Type} {kept : List Ref} {r : Rights} {x y : Engine α} {due : Schedule}

/-- A computation of the engine counts the instructions that it books, one by one. -/
theorem BelowWith.counts (below : BelowWith kept r x y) (held : List Node) {m : Machine}
    {limit count : Nat} (start : m.heap.Metered limit count) :
    Counts limit count (x.history due held m) ∧
      (x.runUnder due m).machine.heap.Metered limit (count + bookings (x.history due held m)) := by
  induction below generalizing held m count with
  | outOfFuel y => exact ⟨.single rfl, start⟩
  | give a => exact ⟨trivial, start⟩
  | throw e other => exact ⟨.single other, start⟩
  | @act _ _ _ o permitted =>
    refine ⟨.single ?_, o.metered_perform held permitted start⟩
    cases o with
    | tick => exact start
    | _ => trivial
  | @andThen _ _ _ _ x _ f _ _ _ _ _ ihx ihf =>
    obtain ⟨first, between⟩ := ihx held start
    simp only [history, runUnder]
    cases ran : x.runUnder due m with
    | ok a m' =>
      rw [ran] at between
      obtain ⟨later, last⟩ := ihf a ⟨due, m, m', ran⟩ held between
      rw [bookings_append, ← Nat.add_assoc]
      exact ⟨first.append later, last⟩
    | error e m' =>
      rw [ran] at between
      rw [List.append_nil]
      exact ⟨first, between⟩
  | @keeping _ _ _ x _ nodes _ ih =>
    obtain ⟨counts, last⟩ := ih held (m := m.pushRoots nodes) start
    refine ⟨counts, ?_⟩
    simp only [runUnder, history]
    cases ran : x.runUnder due (m.pushRoots nodes) <;> rw [ran] at last <;> exact last
  | holding nodes _ ih => exact ih (nodes ++ held) start
  | @executing _ _ _ x _ site _ ih =>
    obtain ⟨counts, last⟩ := ih held start
    refine ⟨counts, ?_⟩
    simp only [runUnder, history]
    cases ran : x.runUnder due m <;> rw [ran] at last <;> exact last
  | @calling _ _ _ x _ name args _ ih =>
    refine m.counts_inside start (fun e refused => ?_) fun inner entered begun => ?_
    · simp only [runUnder, refused, Outcome.machine]
    · obtain ⟨counts, last⟩ := ih held (m := inner.observe (.call name)) begun
      refine ⟨counts, ?_⟩
      simp only [runUnder, entered]
      cases ran : x.runUnder due (inner.observe (.call name)) <;> rw [ran] at last <;> exact last
  | @nested _ _ _ x _ _ ih =>
    refine m.counts_inside start (fun e refused => ?_) fun inner entered begun => ?_
    · simp only [runUnder, refused, Outcome.machine]
    · obtain ⟨counts, last⟩ := ih held begun
      refine ⟨counts, ?_⟩
      simp only [runUnder, entered]
      cases ran : x.runUnder due inner <;> rw [ran] at last <;> exact last
  | @inSection _ _ x _ phase resumed _ ih =>
    simp only [history, runUnder]
    cases entered : m.enter with
    | error e =>
      obtain ⟨depth, rfl⟩ := Machine.enter_error entered
      exact ⟨.single rfl, start⟩
    | ok inner =>
      obtain ⟨counts, last⟩ := ih held (m := inner) (Machine.heap_of_enter entered ▸ start)
      have same : bookings (.opens phase resumed m ::
          (x.history due held inner ++ [.shuts phase m (x.runUnder due inner)])) =
            bookings (x.history due held inner) := by
        rw [bookings_cons, bookings_append]
        exact Nat.zero_add _
      refine ⟨⟨trivial, counts.append (.single trivial)⟩, ?_⟩
      rw [same]
      dsimp only
      cases ran : x.runUnder due inner with
      | ok a m' =>
        rw [ran] at last
        exact last
      | error e m' =>
        rw [ran] at last
        cases e <;> exact last
  | @resuming _ _ x _ generator name _ _ ih =>
    refine m.counts_inside start (fun e refused => ?_) fun inner entered begun => ?_
    · simp only [runUnder, refused, Outcome.machine]
    · obtain ⟨counts, last⟩ := ih held (m := inner.observe .resume) begun
      refine ⟨counts, ?_⟩
      simp only [runUnder, entered]
      cases ran : x.runUnder due (inner.observe .resume) with
      | ok a m' =>
        rw [ran] at last
        exact last
      | error e m' =>
        rw [ran] at last
        cases e <;> exact last
  | generator _ _ _ _ _ ih => exact ih held start
  | @catching _ _ _ x _ _ ih =>
    obtain ⟨counts, last⟩ := ih held start
    refine ⟨counts, ?_⟩
    simp only [runUnder, history]
    cases ran : x.runUnder due m with
    | ok a m' =>
      rw [ran] at last
      exact last
    | error e m' =>
      rw [ran] at last
      cases e <;> exact last
  | @forgiving _ _ _ x _ untimed _ ih =>
    have idle := untimed.isBooking_eq_false due held m
    have none : bookings (x.history due held m) = 0 :=
      List.countP_eq_zero.mpr fun moment mem => by simp [idle moment mem]
    obtain ⟨-, last⟩ := ih held start
    rw [none] at last
    refine ⟨.of_forgiven _, ?_⟩
    simp only [history, bookings_forgiven, runUnder]
    cases ran : x.runUnder due m with
    | ok a m' =>
      rw [ran] at last
      exact last
    | error e m' =>
      rw [ran] at last
      cases e <;> exact last

end Engine

end ObjectMachine
