import ObjectMachine.Proofs.Metering
import ObjectMachine.Proofs.Population
import ObjectMachine.Proofs.Unwinding
/-!
The allowance of instructions. A request that runs out of it ends with that error, and nothing else
depends on the limit. Only running code starts the count anew: the other requests go on with what the
requests since then have used up.
-/
namespace ObjectMachine

/-! ### Reports do not depend on the limit -/

namespace Machine

end Machine

/-! ### What exhausts the allowance -/

namespace Heap

variable {h h' : Heap} {e : Exhaustion}

theorem exhaustion_of_book (refused : h.book = (.error e, h')) :
    ∃ limit count, e = .allocation limit count := by
  simp only [book] at refused
  split at refused
  · cases refused
  · rename_i refusal
    cases refused
    simp only [Budget.allocate] at refusal
    split at refusal
    · cases refusal
    · split at refusal
      · split at refusal <;> cases refusal
        exact ⟨_, _, rfl⟩
      · cases refusal

theorem exhaustion_of_allocate {o : Object} (refused : h.allocate o = (.error e, h')) :
    ∃ limit count, e = .allocation limit count := by
  simp only [allocate] at refused
  split at refused
  · cases refused
  · rename_i booked
    cases refused
    exact exhaustion_of_book booked

theorem exhaustion_of_allocateScope {s : Scope} (refused : h.allocateScope s = (.error e, h')) :
    ∃ limit count, e = .allocation limit count := by
  simp only [allocateScope] at refused
  split at refused
  · cases refused
  · rename_i booked
    cases refused
    exact exhaustion_of_book booked

theorem exhaustion_of_allocateType {name : String} {parents : List Ref}
    (refused : h.allocateType name parents = (.error e, h')) : ∃ limit count, e = .allocation limit count := by
  simp only [allocateType] at refused
  split at refused
  · rename_i stored
    cases refused
    exact exhaustion_of_allocate stored
  · split at refused <;> cases refused

end Heap

namespace Op

variable {due : Schedule} {m m' : Machine}

theorem of_onHeap_exhausted {α : Type} {f : Heap → Except Exhaustion α × Heap} {error : Raised}
    (run : onHeap f m = .error (.exhausted error) m') :
    ∃ e h', f m.heap = (.error e, h') ∧ error = .ofExhaustion e := by
  simp only [onHeap] at run
  split at run
  · cases run
  · rename_i e h' refused
    have same := (EStateM.Result.error.inj run).1
    cases e with
    | recursion limit => cases same
    | _ =>
      cases same
      exact ⟨_, h', refused, rfl⟩

theorem onHeap_of_refused {α : Type} {f : Heap → Except Exhaustion α × Heap} {e : Exhaustion}
    (refused : (f m.heap).1 = .error e) : ∃ m', onHeap f m = .error (.ofExhaustion e) m' := by
  obtain ⟨heap, builtins, globals, depth, roots, printer, tracer⟩ := m
  simp only [onHeap]
  cases result : f heap with
  | mk given heap' =>
    simp only [result] at refused
    rw [refused]
    exact ⟨_, rfl⟩

/-- An operation that finds a budget exhausted books an instruction or an allocation. -/
theorem exhausted_of_perform {α : Type} {o : Op α} {error : Raised} (held : List Node)
    (run : o.perform due m = .error (.exhausted error) m') :
    (Moment.acts o held m).isCutOff ∨ ∃ limit count, error = .ofExhaustion (.allocation limit count) := by
  cases o with
  | ask f => cases run
  | load r =>
    simp only [perform] at run
    split at run <;> cases run
  | loadScope s =>
    simp only [perform] at run
    split at run <;> cases run
  | store o =>
    rw [perform] at run
    obtain ⟨e, h', refused, rfl⟩ := of_onHeap_exhausted run
    obtain ⟨limit, count, rfl⟩ := Heap.exhaustion_of_allocate refused
    exact .inr ⟨limit, count, rfl⟩
  | storeType name parents =>
    rw [perform] at run
    obtain ⟨e, h', refused, rfl⟩ := of_onHeap_exhausted run
    obtain ⟨limit, count, rfl⟩ := Heap.exhaustion_of_allocateType refused
    exact .inr ⟨limit, count, rfl⟩
  | openScope outer =>
    rw [perform] at run
    obtain ⟨e, h', refused, rfl⟩ := of_onHeap_exhausted run
    obtain ⟨limit, count, rfl⟩ := Heap.exhaustion_of_allocateScope refused
    exact .inr ⟨limit, count, rfl⟩
  | change r c =>
    simp only [perform] at run
    split at run <;> cases run
  | tick =>
    rw [perform] at run
    obtain ⟨e, h', refused, rfl⟩ := of_onHeap_exhausted run
    left
    simp only [Moment.isCutOff, refused]
  | print s =>
    simp only [perform, printTo] at run
    split at run <;> cases run
  | raise c => cases run
  | _ => cases run

end Op

/-! ### Requests -/

namespace Request

/-- Whether a request starts to count instructions anew. -/
def recounts : Request → Bool
  | run _ => true
  | call .. | operator .. | getMember .. | setMember .. => false

/-- The count of instructions that a request starts with. -/
def startCount (r : Request) (count : Nat) : Nat := if r.recounts then 0 else count

/-- A request goes through a computation of the engine, perhaps with a new count of instructions. -/
theorem computation_cases (r : Request) (globals : ScopeRef) :
    (r.recounts = true ∧ ∃ x : Engine Ref, r.computation globals = (Engine.act .beginRequest >>= fun _ => x) ∧
      Engine.Below ⟨false, false⟩ x x) ∨
    (r.recounts = false ∧ Engine.Below ⟨false, false⟩ (r.computation globals) (r.computation globals)) := by
  have entries : (Engine.reentry Machine.fuel).Below (Engine.reentry Machine.fuel) :=
    Engine.below_reentry Machine.fuel 0
  cases r with
  | run code =>
    refine .inl ⟨rfl, _, rfl, ?_⟩
    refine Engine.Below.bind (.act trivial) fun _ => ?_
    refine Engine.Below.bind (.nested (entries.runFrame _ (Frame.start code globals))) fun ended => ?_
    cases ended with
    | done value => exact .pure _
    | yielded value frame => exact .raise _
  | call callee args => exact .inr ⟨rfl, entries.call _ callee args⟩
  | operator name args => exact .inr ⟨rfl, Engine.below_callOperator entries name args true⟩
  | getMember obj name => exact .inr ⟨rfl, Engine.below_getMember entries obj name⟩
  | setMember obj name value =>
    exact .inr ⟨rfl, (Engine.below_setMember entries obj name value).bind fun _ => .pure Ref.null⟩

variable {r : Request} {m : Machine} {printer : Printer} {limit count : Nat}

/-- A request counts the instructions that it books. -/
theorem counts (r : Request) (printer : Printer) (start : m.heap.Metered limit count) :
    Counts limit (r.startCount count) (r.history m printer) ∧
      ((r.computation m.globals).run (m.startRequest printer)).machine.heap.Metered limit
        (r.startCount count + bookings (r.history m printer)) := by
  rcases r.computation_cases m.globals with ⟨anew, x, begins, below⟩ | ⟨goesOn, below⟩
  · have zero : ((m.startRequest printer).withHeap Heap.beginRequest).heap.Metered limit 0 :=
      Budget.meter_beginRequest start
    obtain ⟨counts, last⟩ := (below []).counts [] zero
    simp only [startCount, anew, if_true, history, Engine.run, begins]
    exact ⟨⟨trivial, counts⟩, last⟩
  · simp only [startCount, goesOn, Bool.false_eq_true, if_false]
    exact (below []).counts [] (m := m.startRequest printer) start

/-- The error that ends a request by the limit of instructions, after it passed through calls. -/
def timeout (limit count : Nat) (layers : List Layer) : Interrupt :=
  .exhausted { Raised.ofExhaustion (.operation limit count) with trace := layers }

/-- A request is ended by the limit of instructions. -/
def TimesOut (r : Request) (m : Machine) (printer : Printer) : Prop :=
  ∃ limit count layers m', (r.computation m.globals).run (m.startRequest printer) =
    .error (timeout limit count layers) m'

/-- A request ends with the first instruction that is refused, and nothing happens after that. -/
theorem ends_of_cutOff {before after : List Moment} {moment : Moment}
    (counts : Counts limit count (r.history m printer))
    (split : r.history m printer = before ++ moment :: after) (cut : moment.isCutOff) :
    (∀ later ∈ after, later.isClosing) ∧ ∃ layers m',
      (r.computation m.globals).run (m.startRequest printer) =
        .error (timeout limit (count + bookings before + 1) layers) m' := by
  rw [split] at counts
  have reads := counts.of_append.2.1
  have beyond := counts.cutOff cut
  have booked := Moment.isBooking_of_isCutOff cut
  unfold Moment.isBooking at booked
  split at booked
  · rename_i held m₁
    have metered : m₁.heap.Metered limit (count + bookings before) := reads
    have refused : m₁.heap.tick.1 = .error (.operation limit (count + bookings before + 1)) :=
      (Budget.tick_of_meter metered).trans (if_pos beyond)
    have fails : (Moment.acts .tick held m₁).failure? Heap.collectionDue =
        some (.ofExhaustion (.operation limit (count + bookings before + 1))) := by
      obtain ⟨m', run⟩ := Op.onHeap_of_refused (f := Heap.tick) refused
      simp only [Moment.failure?, Op.perform, run]
    obtain ⟨closing, e', m', run, layers, rfl⟩ :=
      Engine.failure_ends_run (r.computation m.globals) split fails rfl Bool.false_ne_true
    exact ⟨closing, layers, m', run⟩
  · cases booked

/-- A request that the limit of instructions ended was refused an instruction. -/
theorem exists_cutOff_of_timesOut (counts : Counts limit count (r.history m printer))
    (timesOut : r.TimesOut m printer) : ∃ moment ∈ r.history m printer, moment.isCutOff := by
  obtain ⟨limit', count', layers, m', run⟩ := timesOut
  obtain ⟨before, place, after, i, split, arises, kept, -, leads⟩ :=
    Engine.arisesIn_places (r.computation m.globals) [] run rfl
  have mem : place.moment ∈ r.history m printer := by
    rw [history, ← Engine.map_moment_places, split]
    exact List.mem_map_of_mem (List.mem_append_right _ List.mem_cons_self)
  have read : ∃ count, place.moment.Reads limit count := by
    obtain ⟨before, after, split⟩ := List.append_of_mem mem
    rw [split] at counts
    exact ⟨_, counts.of_append.2.1⟩
  obtain ⟨count₀, reads⟩ := read
  refine ⟨place.moment, mem, ?_⟩
  -- before it passed through calls it was the same error
  obtain ⟨error, rfl, kind⟩ : ∃ error, i = .exhausted error ∧ error.type = .builtin .timeoutError := by
    cases i with
    | exhausted error =>
      have same := Interrupt.exhausted.inj leads
      exact ⟨error, rfl, (congrArg (fun e => e.toErrorBody.type) same).symm⟩
    | _ => cases leads
  generalize place.moment = moment at arises kept reads ⊢
  cases moment with
  | acts o held m₁ =>
    simp only [Moment.interrupt?] at arises
    split at arises
    · cases arises
    · rename_i performed
      cases arises
      rcases Op.exhausted_of_perform held performed with cut | ⟨limit, count, rfl⟩
      · exact cut
      · cases kind
  | throws e m₁ =>
    cases arises
    cases reads
  | refuses m₁ =>
    simp only [Moment.interrupt?] at arises
    split at arises
    · cases arises
    · rename_i refused
      obtain ⟨limit, rfl⟩ := Machine.enter_error refused
      cases arises
  | bars phase resumed e m₁ =>
    have other : (Interrupt.ofExhaustion e).isExhausted = false := reads
    rw [Option.some.inj arises] at other
    cases other
  | forgiven moment => cases kept
  | _ => cases arises

/-- A request is ended by the limit of instructions if it books some, and more than were left. -/
theorem timesOut_iff (r : Request) (printer : Printer) (start : m.heap.Metered limit count) :
    r.TimesOut m printer ↔ 0 < bookings (r.history m printer) ∧
      limit < r.startCount count + bookings (r.history m printer) := by
  have counts := (r.counts printer start).1
  constructor
  · intro timesOut
    obtain ⟨moment, mem, cut⟩ := exists_cutOff_of_timesOut counts timesOut
    obtain ⟨before, after, split⟩ := List.append_of_mem mem
    have single : bookings [moment] = 1 := by
      simp [bookings, Moment.isBooking_of_isCutOff cut]
    have all : bookings (r.history m printer) = bookings before + (1 + bookings after) := by
      rw [split, bookings_append, bookings_cons, single]
    rw [split] at counts
    have beyond := counts.cutOff cut
    omega
  · rintro ⟨some, beyond⟩
    -- otherwise all that was booked was within the limit
    by_contra lasts
    have fine : ∀ moment ∈ r.history m printer, moment.isCutOff = false := by
      intro moment mem
      by_contra cut
      obtain ⟨before, after, split⟩ := List.append_of_mem mem
      obtain ⟨-, layers, m', run⟩ := ends_of_cutOff counts split (Bool.not_eq_false _ ▸ cut)
      exact lasts ⟨_, _, layers, m', run⟩
    have within := counts.within fine some
    omega

end Request

/-! ### Runs of code -/

/-- How many instructions are dispatched: those that are booked and not refused. -/
def dispatched (history : List Moment) : Nat :=
  history.countP fun moment => moment.isBooking && !moment.isCutOff

namespace Request

variable {m : Machine}

end Request

namespace Machine

theorem metered_boot (limits : Limits) (limit : Nat) (tracer : Tracer) :
    (boot (.ofLimits { limits with maxOperations := some limit }) tracer).heap.Metered limit 0 := by
  rw [Heap.Metered, heap_boot, Heap.budget_withBudget]
  rfl

end Machine

/-! ### Sessions -/

/-- The count of instructions after an action, when it was `count` before. -/
def HostAction.countAfter (m : Machine) (count : Nat) : HostAction → Nat
  | request printer r => r.startCount count + bookings (r.history m printer)
  | _ => count

/-- How many instructions were booked in a session since code was last run, and with it. -/
def Machine.carried (m : Machine) (count : Nat) : List HostAction → Nat
  | [] => count
  | a :: later => (a.perform m).carried (a.countAfter m count) later

theorem Heap.hostSteps_meter : HostSteps fun h h' => h'.budget.meter? = h.budget.meter? where
  finish h _ := congrArg _ (h.budget_changeAll _)
  store h _ _ := h.meter_allocate _
  bind _ _ _ := rfl
  collect h _ := h.budget.meter_free _

/-- An action counts the instructions that it books. -/
theorem HostAction.metered_perform {m : Machine} {limit count : Nat} (a : HostAction)
    (start : m.heap.Metered limit count) :
    (a.perform m).heap.Metered limit (a.countAfter m count) := by
  have idle (none : a.history m = []) : (a.perform m).heap.Metered limit count := by
    have chain := a.isChain_heaps Heap.hostSteps_meter m (none ▸ List.forall_mem_nil _)
    refine Machine.invariant_isChain (I := fun h => h.Metered limit count) chain ?_ ?_ _ ?_
    · intro h first
      exact Option.mem_some_iff.mp first ▸ start
    · intro h _ h' _ same metered
      exact same.trans metered
    · exact List.mem_cons_of_mem _ (List.mem_append_right _ List.mem_cons_self)
  cases a with
  | request printer r =>
    rw [perform, Machine.heap_serve]
    exact (r.counts printer start).2
  | _ => exact idle rfl

namespace Machine

theorem metered_afterSession {m : Machine} {limit count : Nat} (start : m.heap.Metered limit count)
    (actions : List HostAction) :
    (m.afterSession actions).heap.Metered limit (m.carried count actions) := by
  induction actions generalizing m count with
  | nil => exact start
  | cons a later ih => exact ih (a.metered_perform start)

/-- When a request is ended by the limit of instructions: if it books some and more than were left after
the requests since code was last run. So its own instructions decide, unless they are within the limit and
only those of earlier requests make them too many. -/
theorem timesOut_in_session_iff (limits : Limits) (limit : Nat) (tracer : Tracer)
    (actions : List HostAction) (printer : Printer) (r : Request) :
    let start := boot (.ofLimits { limits with maxOperations := some limit }) tracer
    let m := start.afterSession actions
    let own := bookings (r.history m printer)
    let earlier := if r.recounts then 0 else start.carried 0 actions
    (r.TimesOut m printer ↔ 0 < own ∧ limit < earlier + own) ∧
      ((r.TimesOut m printer ↔ limit < own) ↔ ¬ (0 < own ∧ own ≤ limit ∧ limit < earlier + own)) := by
  intro start m own earlier
  have metered := metered_afterSession (metered_boot limits limit tracer) actions
  have ends : r.TimesOut m printer ↔ 0 < own ∧ limit < earlier + own := r.timesOut_iff printer metered
  refine ⟨ends, ?_⟩
  rw [ends]
  constructor
  · rintro decides ⟨some, within, beyond⟩
    have more := decides.mp ⟨some, beyond⟩
    omega
  · intro apart
    constructor
    · rintro ⟨some, beyond⟩
      by_contra within
      exact apart ⟨some, Nat.le_of_not_lt within, beyond⟩
    · intro more
      exact ⟨by omega, by omega⟩

/-- A program that defines a function of two instructions. -/
def definesOne : Code := assemble [.function "f" [] false [.int 1, .op .returnValue], .define "f"]

/-- Instructions of an earlier request count against a later one: a function of two instructions that was
defined by a run of three is called under a limit of four, and the limit ends that call. -/
theorem earlier_request_counts :
    let start := boot (.ofLimits { Limits.standard with maxOperations := some 4 }) .silent
    let m := start.afterSession [.request .discarding (.run definesOne)]
    ∃ f, m.getGlobal? "f" = some f ∧
      bookings ((Request.call f []).history m .discarding) = 2 ∧ (Request.call f []).TimesOut m .discarding := by
  intro start m
  have counted : (m.getGlobal? "f").map (fun f =>
      (bookings ((Request.call f []).history m .discarding),
        start.carried 0 [.request .discarding (.run definesOne)])) = some (2, 3) := by
    decide +kernel
  obtain ⟨f, named, counts⟩ := Option.map_eq_some_iff.mp counted
  obtain ⟨own, earlier⟩ := Prod.mk.inj counts
  refine ⟨f, named, own, ?_⟩
  have metered := metered_afterSession (metered_boot Limits.standard 4 .silent)
    [.request .discarding (.run definesOne)]
  refine ((Request.call f []).timesOut_iff .discarding metered).mpr ?_
  have sum : (Request.call f []).startCount 3 = 3 := rfl
  rw [own, earlier, sum]
  decide

end Machine

end ObjectMachine
