import ObjectMachine.Proofs.Courses
import ObjectMachine.Proofs.Draining
import ObjectMachine.Proofs.Layout
/-!
Loops over the items of an iterable. A loop calls the built-in function `iter` and then goes round: it asks the
iterator on top of the operands for an item, defines the variable, runs its body and jumps back; once the iterator has
stopped, it drops it and goes on behind. `Loop.Goes` says so without the instructions, as a list of rounds, and a course
of the instructions of a loop is nothing else.
-/
namespace ObjectMachine

/-! ### Loops in code -/

/-- Where the parts of a loop stand in code. -/
structure Loop where
  /-- The code. -/
  code : Code
  /-- The variable. -/
  name : String
  /-- Where the function is read that makes iterators; what evaluates the iterable stands behind it. -/
  start : Nat
  /-- Where that function is called. -/
  call : Nat
  /-- Where the loop jumps back; the body stands before it. -/
  back : Nat
  /-- The tag of the place where the iterator is asked. -/
  again : String
  /-- The tag of the place behind the loop. -/
  done : String

/-- The loop that an assembler lays out on its way to other code. -/
def Assembler.loop (a b : Assembler) (name : String) (iterable inner : List Statement) : Loop :=
  let again := labelled "loop" (a.labels + 1)
  let done := labelled "loop.done" (a.labels + 2)
  let items := (Assembler.emit { a with labels := a.labels + 2 } (.getVar "iter")).block iterable
  let looping := (((items.emit (.call 1)).label again).emit (.iterNext done)).emit (.defineVar name)
  { code := b.finish, name, start := a.emitted.size, call := items.emitted.size
    back := (looping.block inner).emitted.size, again, done }

/-- The declaration of the function that makes iterators. -/
def Declaration.iter : Declaration := ⟨"iter", [any "value"], .global .iter⟩

namespace Loop

variable {l : Loop}

/-- Where the iterator is asked. -/
def head (l : Loop) : Nat := l.call + 1

/-- The loop, once there is an iterator. -/
def turns (l : Loop) : Stretch := ⟨l.code, l.head, l.back⟩

/-- What a loop does with an item, up to the jump back. -/
def body (l : Loop) : Stretch := ⟨l.code, l.head + 1, l.back⟩

/-- The instructions of a loop stand in its code, and its tags lead to its head and behind it. -/
structure Stands (l : Loop) : Prop where
  reads : ∃ tag, l.code.at? l.start = some ⟨.getVar "iter", tag⟩
  calls : ∃ tag, l.code.at? l.call = some ⟨.call 1, tag⟩
  asks : ∃ tag, l.code.at? l.head = some ⟨.iterNext l.done, tag⟩
  binds : ∃ tag, l.code.at? (l.head + 1) = some ⟨.defineVar l.name, tag⟩
  jumps : ∃ tag, l.code.at? l.back = some ⟨.jump l.again, tag⟩
  opens : l.start < l.call
  order : l.head + 2 ≤ l.back
  targets : ∀ f : Frame, f.code = l.code →
    Engine.target f l.again = pure l.head ∧ Engine.target f l.done = pure (l.back + 1)

theorem turns_has_of_body (p : Standing) (inside : l.body.Has p) : l.turns.Has p :=
  ⟨inside.code, Nat.le_of_succ_le inside.first, inside.last, inside.returned⟩

theorem Stands.turns_has (stands : l.Stands) {p : Standing} (here : p.At l.code l.head) : l.turns.Has p where
  code := here.code
  first := Nat.le_of_eq here.ip.symm
  last := here.ip ▸ Nat.le_of_add_right_le stands.order
  returned := here.returned

theorem not_turns_has {p : Standing} (outside : ¬ l.body.Has p) (elsewhere : ¬ p.At l.code l.head) :
    ¬ l.turns.Has p := by
  rintro ⟨code, first, last, returned⟩
  by_cases here : p.frame.ip = l.head
  · exact elsewhere ⟨code, here, returned⟩
  · exact outside ⟨code, Nat.lt_of_le_of_ne first (Ne.symm here), last, returned⟩

end Loop

namespace Assembler

/-- What is laid out later does not make it less. -/
theorem Grows.size_le {a b : Assembler} (h : Grows a b) : a.emitted.size ≤ b.emitted.size := by
  induction h with
  | refl => exact Nat.le_refl _
  | emit op _ ih => exact Nat.le_trans ih (Nat.le_of_lt (by simp [Assembler.emit]))
  | @label b tag _ ih =>
    refine Nat.le_trans ih ?_
    by_cases waiting : b.pendingTag.isSome <;> simp [Assembler.label, Assembler.emit, waiting]
  | count _ _ ih => exact ih

/-- A loop that is laid out stands in the finished code, whatever is laid out before and behind, if no tag is given
twice. -/
theorem Grows.stands_loop {a b : Assembler} {name : String} {iterable inner : List Statement}
    (h : Grows (a.statement (.forEach name iterable inner)) b) (apart : b.finish.tags.Nodup) :
    (a.loop b name iterable inner).Stands := by
  obtain ⟨-, -, read, called, asked, bound, jumped, done⟩ := h.loop
  refine ⟨⟨_, read⟩, ⟨_, called⟩, ⟨_, asked⟩, ⟨_, bound⟩, ⟨_, jumped⟩, ?_, ?_, fun f code => ?_⟩
  · exact (Nat.lt_succ_self _).trans_le
      ((Grows.refl.block iterable).size_le.trans' (by simp [Assembler.loop, Assembler.emit]))
  · exact (Grows.refl.block inner).size_le.trans' (by simp [Loop.head, Assembler.loop, Assembler.emit, Assembler.label])
  · exact ⟨Code.target_eq apart asked rfl code, Code.target_eq apart done rfl code⟩

end Assembler

/-! ### What a loop does -/

/-- A run behind the instruction that asked for an item, with the item on top of the operands. -/
def Standing.handed (p : Standing) (booked : Machine) (item : Ref) (delivered : Machine) : Standing :=
  ⟨p.fuel - 1, { p.frame with stack := item :: p.frame.stack, ip := p.frame.ip + 1 },
    delivered.truncateRoots booked.roots.size⟩

/-- A run behind a loop whose iterator has stopped, without the iterator among the operands. -/
def Standing.dropped (p : Standing) (l : Loop) (booked m : Machine) : Standing :=
  ⟨p.fuel - 1, { p.frame with stack := p.frame.stack.tail, ip := l.back + 1 }, m.truncateRoots booked.roots.size⟩

/-- One round of a loop: it asks the iterator on top of the operands, which delivers an item; it goes into its body, and
the body gets some way. -/
structure Round where
  /-- The run at the head of the loop. -/
  head : Standing
  /-- The machine when the instruction is booked that asks. -/
  booked : Machine
  /-- The iterator. -/
  iterator : Ref
  /-- The item. -/
  item : Ref
  /-- The machine on which it is delivered. -/
  delivered : Machine
  /-- The run at the start of the body. -/
  body : Standing
  /-- How far it gets in the body, up to the jump back. -/
  reached : Reached

namespace Loop

open Engine

/-- A loop asks the iterator on top of the operands for an item, and this comes of it. -/
structure Asks (l : Loop) (due : Schedule) (p : Standing) (booked : Machine) (iterator : Ref) (answer : Outcome Ref) :
    Prop where
  /-- The run is at the head of the loop. -/
  here : p.At l.code l.head
  /-- The iterator is on top. -/
  top : p.frame.stack.head? = some iterator
  /-- The instruction is booked. -/
  books : (book p.frame (.iterNext l.done)).runUnder due p.machine = .ok () booked
  /-- The iterator answers, while the frame is kept alive. -/
  answers : ∃ n, p.fuel = n + 1 ∧
    (iterateNext (reentry n) iterator).runUnder due (booked.pushRoots p.frame.links) = answer

end Loop

namespace Round

open Engine

/-- A loop goes through a round: the iterator delivers the item, the item becomes the value of the variable, and the
body runs, with the iterator on top of the operands again. -/
structure Turn (r : Round) (l : Loop) (due : Schedule) : Prop where
  /-- The iterator delivers the item. -/
  asks : l.Asks due r.head r.booked r.iterator (.ok r.item r.delivered)
  /-- There is fuel for two instructions. -/
  fuel : 2 ≤ r.head.fuel
  /-- The variable is defined. -/
  binds : ∃ m, (book (r.head.handed r.booked r.item r.delivered).frame (.defineVar l.name)).runUnder due
      (r.head.handed r.booked r.item r.delivered).machine = .ok () m ∧
    r.body = ⟨r.head.fuel - 2, { r.head.frame with ip := l.head + 2 },
      m.withHeap fun h => h.define r.head.frame.scope l.name r.item⟩
  /-- The body runs. -/
  course : l.body.Course due r.body r.reached

/-- The body has come back to the head of the loop. -/
def Returns (r : Round) (l : Loop) : Prop := ∃ z, r.reached = .left z ∧ z.At l.code l.head

/-- The body has kept the height of the operands, if it has come to an end, and neither returned nor left the loop. -/
structure Keeps (r : Round) (l : Loop) : Prop where
  /-- It ends at the head of the loop, with as many operands as at its start. -/
  height : ∀ z, r.reached = .left z → z.At l.code l.head ∧ z.frame.stack.length = r.body.frame.stack.length
  /-- It does not return. -/
  goesOn : ∀ value m, r.reached ≠ .finished value m

/-- It has kept the operands themselves. -/
structure Restores (r : Round) (l : Loop) : Prop extends r.Keeps l where
  /-- It ends with the operands of its start. -/
  operands : ∀ z, r.reached = .left z → z.frame.stack = r.body.frame.stack

/-- What happens between the item and the next question has not affected an iteration: what corresponded to the heap on
which the item was delivered corresponds to the heap on which the iterator is asked again. -/
def Unaffected (r : Round) (l : Loop) (due : Schedule) (Same : Heap → Heap → Prop) : Prop :=
  ∀ z booked h, r.reached = .left z → (book z.frame (.iterNext l.done)).runUnder due z.machine = .ok () booked →
    Same r.delivered.heap h → Same booked.heap h

end Round

namespace Loop

open Engine

/-- How a loop goes from its head, round after round, as far as it has been looked at. -/
inductive Goes (l : Loop) (due : Schedule) : Standing → List Round → Reached → Prop where
  /-- It is about to ask. -/
  | asking {p : Standing} (here : p.At l.code l.head) : Goes l due p [] (.within p)
  /-- The question fails. -/
  | refused {p : Standing} {e : Interrupt} {m : Machine} (here : p.At l.code l.head)
    (fails : p.progress due = .error e m) : Goes l due p [] (.failed e m)
  /-- The iterator has stopped, and the loop is over. -/
  | stopped {p : Standing} {booked m : Machine} {iterator : Ref} {e : Interrupt}
    (asks : l.Asks due p booked iterator (.error e m)) (stops : e.stops m.heap) :
    Goes l due p [] (.left (p.dropped l booked m))
  /-- It is about to define the variable. -/
  | handed {p : Standing} {booked m : Machine} {iterator item : Ref}
    (asks : l.Asks due p booked iterator (.ok item m)) : Goes l due p [] (.within (p.handed booked item m))
  /-- That is refused. -/
  | unbound {p : Standing} {booked m m' : Machine} {iterator item : Ref} {e : Interrupt}
    (asks : l.Asks due p booked iterator (.ok item m)) (fails : (p.handed booked item m).progress due = .error e m') :
    Goes l due p [] (.failed e m')
  /-- It is in its body, or the body ends other than by coming back. -/
  | last {r : Round} (turn : r.Turn l due) (out : ¬ r.Returns l) : Goes l due r.head [r] r.reached
  /-- It has come back, and goes on. -/
  | again {r : Round} {z : Standing} {rounds : List Round} {x : Reached} (turn : r.Turn l due)
    (back : r.reached = .left z) (here : z.At l.code l.head) (more : Goes l due z rounds x) :
    Goes l due r.head (r :: rounds) x

/-! ### Its instructions -/

/-- What the instruction at the head of a loop does with the iterator: it asks, and catches the end. -/
def asking (k : Reentry) (f : Frame) (done : String) (iterator : Ref) : Engine Step :=
  catching (iterateNext k iterator) >>= fun answer => match answer with
    | .ok item => pure (.next (f.push item))
    | .error e => isStop e >>= fun stop =>
      if stop then pop f >>= fun popped => branch popped.2 done true else throw (.raised e)

variable {l : Loop} {due : Schedule} {p q z : Standing} {x : Reached} {booked m m' : Machine} {iterator item : Ref}
  {e : Interrupt} {r : Round} {rounds : List Round}

/-- A frame that has not returned goes on. -/
theorem settle_next {f : Frame} (returned : f.returned = none) (ip : Nat) :
    settle ip (.next f) = .running { f with ip := ip + 1 } := by
  rw [settle, settle.proceed, returned]

theorem settle_jump {f : Frame} (returned : f.returned = none) (ip target : Nat) :
    settle ip (.jump target f) = .running { f with ip := target } := by
  rw [settle, settle.proceed, returned]

namespace Asks

/-- The operands are those under the iterator. -/
theorem stack_eq {o : Outcome Ref} (asks : l.Asks due p booked iterator o) :
    p.frame.stack = iterator :: p.frame.stack.tail := (List.cons_head?_tail asks.top).symm

theorem iterator_eq {o : Outcome Ref} {iterator' : Ref} (asks : l.Asks due p booked iterator o)
    (top : p.frame.stack.head? = some iterator') : iterator = iterator' := Option.some.inj (asks.top.symm.trans top)

/-- To ask is to ask the iterator on top. -/
theorem runUnder_execute {o : Outcome Ref} (asks : l.Asks due p booked iterator o) (n : Nat) (m : Machine) :
    (execute (reentry n) p.frame (.iterNext l.done)).runUnder due m =
      (asking (reentry n) p.frame l.done iterator).runUnder due m := by
  have top : peek p.frame = pure iterator := by rw [peek, asks.stack_eq]
  have unfolded : execute (reentry n) p.frame (.iterNext l.done) =
      (peek p.frame >>= asking (reentry n) p.frame l.done) := rfl
  rw [unfolded, top]
  simp only [runUnder_bind, runUnder_pure]

end Asks

namespace Stands

variable (stands : l.Stands)
include stands

theorem found_asks (here : p.At l.code l.head) :
    ∃ tag, p.frame.code.at? p.frame.ip = some ⟨.iterNext l.done, tag⟩ := by
  rw [here.code, here.ip]
  exact stands.asks

/-- If the iterator delivers an item, the item is put on top. -/
theorem progress_item (asks : l.Asks due p booked iterator (.ok item m)) :
    p.progress due = .ok (.running (p.handed booked item m).frame) (p.handed booked item m).machine := by
  obtain ⟨n, fuel, answered⟩ := asks.answers
  obtain ⟨tag, found⟩ := stands.found_asks asks.here
  have ran : (execute (reentry n) p.frame (.iterNext l.done)).runUnder due (booked.pushRoots p.frame.links) =
      .ok (.next (p.frame.push item)) m := by
    rw [asks.runUnder_execute n, asking, runUnder_bind, runUnder, answered]
    rfl
  rw [Standing.progress_of_executed fuel found asks.books ran, settle_next (f := p.frame.push item) asks.here.returned]
  rfl

/-- If it stops, it is dropped, and the run goes on behind the loop. -/
theorem progress_stop (asks : l.Asks due p booked iterator (.error e m)) (stops : e.stops m.heap) :
    p.progress due = .ok (.running (p.dropped l booked m).frame) (p.dropped l booked m).machine := by
  obtain ⟨n, fuel, answered⟩ := asks.answers
  obtain ⟨tag, found⟩ := stands.found_asks asks.here
  cases e with
  | raised e =>
    have ran : (execute (reentry n) p.frame (.iterNext l.done)).runUnder due (booked.pushRoots p.frame.links) =
        .ok (.jump (l.back + 1) (p.frame.withStack p.frame.stack.tail)) m := by
      have popped : pop p.frame = pure (iterator, p.frame.withStack p.frame.stack.tail) := by
        rw [pop, asks.stack_eq]
        rfl
      have leads := (stands.targets (p.frame.withStack p.frame.stack.tail) asks.here.code).2
      rw [asks.runUnder_execute n, asking, runUnder_bind, runUnder, answered]
      dsimp only
      rw [isStop, runUnder_bind, runUnder_ask]
      dsimp only
      rw [show m.heap.errorIs e.toErrorBody .iteratorStopped = true from stops, if_pos rfl, popped, runUnder_bind,
        runUnder_pure]
      dsimp only
      rw [branch, if_pos rfl, leads]
      rfl
    rw [Standing.progress_of_executed fuel found asks.books ran,
      settle_jump (f := p.frame.withStack p.frame.stack.tail) asks.here.returned]
    rfl
  | _ => cases stops

/-- If it fails otherwise, the run fails in the same way. -/
theorem progress_refused (asks : l.Asks due p booked iterator (.error e m)) (other : e.stops m.heap = false) :
    p.progress due = .error (e.atSite ⟨.iterNext l.done, l.head⟩) (m.truncateRoots booked.roots.size) := by
  obtain ⟨n, fuel, answered⟩ := asks.answers
  obtain ⟨tag, found⟩ := stands.found_asks asks.here
  have ran : (execute (reentry n) p.frame (.iterNext l.done)).runUnder due (booked.pushRoots p.frame.links) =
      .error e m := by
    rw [asks.runUnder_execute n, asking, runUnder_bind, runUnder, answered]
    cases e with
    | raised e =>
      dsimp only
      rw [isStop, runUnder_bind, runUnder_ask]
      dsimp only
      rw [show m.heap.errorIs e.toErrorBody .iteratorStopped = false from other, if_neg Bool.false_ne_true]
      rfl
    | _ => rfl
  rw [Standing.progress_of_failed fuel found asks.books ran, asks.here.ip]

/-- At its head a loop asks, unless a budget refuses that or there is nothing to ask. -/
theorem asks_or_fails (due : Schedule) (here : p.At l.code l.head) :
    (∃ booked iterator answer, l.Asks due p booked iterator answer) ∨
      ∃ e m, p.progress due = .error e m ∧ ∀ r, e ≠ .raised r := by
  cases fuel : p.fuel with
  | zero => exact .inr ⟨_, _, Standing.progress_of_exhausted fuel, by rintro r ⟨⟩⟩
  | succ n =>
    obtain ⟨tag, found⟩ := stands.found_asks here
    cases books : (book p.frame (.iterNext l.done)).runUnder due p.machine with
    | error e m =>
      exact .inr ⟨e, m, Standing.progress_of_refused fuel found books, not_raised_of_book books⟩
    | ok _ booked =>
      cases operands : p.frame.stack with
      | nil =>
        have ran : (execute (reentry n) p.frame (.iterNext l.done)).runUnder due (booked.pushRoots p.frame.links) =
            .error (.defect .stackUnderflow []) (booked.pushRoots p.frame.links) := by
          have bare : peek p.frame = fail .stackUnderflow := by rw [peek, operands]
          rw [execute, bare]
          rfl
        exact .inr ⟨_, _, Standing.progress_of_failed fuel found books ran, by rintro r ⟨⟩⟩
      | cons iterator rest =>
        exact .inl ⟨booked, iterator, _, here, by rw [operands]; rfl, books, n, fuel, rfl⟩

theorem body_has_handed (asks : l.Asks due p booked iterator (.ok item m)) :
    l.body.Has (p.handed booked item m) where
  code := asks.here.code
  first := Nat.le_of_eq (congrArg (· + 1) asks.here.ip.symm)
  last := by
    have order := stands.order
    have ip := asks.here.ip
    simp only [Standing.handed, body]
    omega
  returned := asks.here.returned

theorem found_binds (asks : l.Asks due p booked iterator (.ok item m)) :
    ∃ tag, (p.handed booked item m).frame.code.at? (p.handed booked item m).frame.ip =
      some ⟨.defineVar l.name, tag⟩ := by
  rw [show (p.handed booked item m).frame.code = l.code from asks.here.code,
    show (p.handed booked item m).frame.ip = l.head + 1 from congrArg (· + 1) asks.here.ip]
  exact stands.binds

/-- The item becomes the value of the variable. -/
theorem progress_bind {n : Nat} (asks : l.Asks due p booked iterator (.ok item m)) (fuel : p.fuel = n + 2)
    (books : (book (p.handed booked item m).frame (.defineVar l.name)).runUnder due (p.handed booked item m).machine =
      .ok () m') : (p.handed booked item m).progress due =
        .ok (.running { p.frame with ip := l.head + 2 }) (m'.withHeap fun h => h.define p.frame.scope l.name item) := by
  obtain ⟨tag, found⟩ := stands.found_binds asks
  have fuel' : (p.handed booked item m).fuel = n + 1 := congrArg (· - 1) fuel
  have ran : (execute (reentry n) (p.handed booked item m).frame (.defineVar l.name)).runUnder due m' =
      .ok (.next { p.frame with ip := p.frame.ip + 1 }) (m'.withHeap fun h => h.define p.frame.scope l.name item) := rfl
  rw [Standing.progress_of_quiet fuel' found rfl books ran,
    settle_next (f := { p.frame with ip := p.frame.ip + 1 }) asks.here.returned,
    show (p.handed booked item m).frame.ip + 1 = l.head + 2 from congrArg (· + 2) asks.here.ip]

/-- The variable is defined, unless a budget refuses that. -/
theorem binds_or_fails (asks : l.Asks due p booked iterator (.ok item m)) :
    (2 ≤ p.fuel ∧ ∃ m', (book (p.handed booked item m).frame (.defineVar l.name)).runUnder due
      (p.handed booked item m).machine = .ok () m') ∨
    ∃ e m', (p.handed booked item m).progress due = .error e m' ∧ ∀ r, e ≠ .raised r := by
  obtain ⟨n, fuel, -⟩ := asks.answers
  have fuel' : (p.handed booked item m).fuel = n := congrArg (· - 1) fuel
  cases n with
  | zero => exact .inr ⟨_, _, Standing.progress_of_exhausted fuel', by rintro r ⟨⟩⟩
  | succ n =>
    cases books : (book (p.handed booked item m).frame (.defineVar l.name)).runUnder due
        (p.handed booked item m).machine with
    | ok _ m' => exact .inl ⟨fuel ▸ Nat.le_add_left 2 n, m', rfl⟩
    | error e m' =>
      obtain ⟨tag, found⟩ := stands.found_binds asks
      exact .inr ⟨e, m', Standing.progress_of_refused fuel' found books, not_raised_of_book books⟩

/-- If the variable is not defined, that is due to a budget. -/
theorem not_raised_of_unbound (asks : l.Asks due p booked iterator (.ok item m))
    (fails : (p.handed booked item m).progress due = .error e m') (r : Raised) : e ≠ .raised r := by
  obtain ⟨fuel, m'', books⟩ | ⟨e', m'', fails', other⟩ := stands.binds_or_fails asks
  · obtain ⟨n, fuel⟩ := Nat.exists_eq_add_of_le' fuel
    rw [stands.progress_bind asks fuel books] at fails
    cases fails
  · rw [fails'] at fails
    cases fails
    exact other r

/-- If an iterator raises nothing but its end, a question fails for other reasons only. -/
theorem not_raised_of_refused (here : p.At l.code l.head) (fails : p.progress due = .error e m)
    (calm : ∀ booked iterator r m, l.Asks due p booked iterator (.error (.raised r) m) →
      (Interrupt.raised r).stops m.heap) (r : Raised) : e ≠ .raised r := by
  rintro rfl
  obtain ⟨booked, iterator, answer, asks⟩ | ⟨e', m', fails', other⟩ := stands.asks_or_fails due here
  · obtain ⟨item, m'⟩ | ⟨e', m'⟩ := answer
    · rw [stands.progress_item asks] at fails
      cases fails
    · cases stops : e'.stops m'.heap with
      | true =>
        rw [stands.progress_stop asks stops] at fails
        cases fails
      | false =>
        rw [stands.progress_refused asks stops] at fails
        cases e' with
        | raised r' =>
          rw [calm booked iterator r' m' asks] at stops
          cases stops
        | _ => cases fails
  · rw [fails'] at fails
    cases fails
    exact other r rfl

/-! ### Its rounds -/

/-- A round goes through the loop to its body. -/
theorem course_of_turn (turn : r.Turn l due) (later : l.turns.Course due r.body x) : l.turns.Course due r.head x := by
  obtain ⟨m, books, body⟩ := turn.binds
  obtain ⟨n, fuel⟩ : ∃ n, r.head.fuel = n + 2 := Nat.exists_eq_add_of_le' turn.fuel
  have asked := stands.progress_item turn.asks
  have bound := stands.progress_bind turn.asks fuel books
  refine .on (stands.turns_has turn.asks.here) (.on asked) ?_
  refine .on (turns_has_of_body _ (stands.body_has_handed turn.asks)) (.on bound) ?_
  rw [body] at later
  exact later

/-- What goes as a loop goes is a course of its instructions. -/
theorem course_of_goes (goes : l.Goes due p rounds x) : l.turns.Course due p x := by
  induction goes with
  | asking here => exact .within (stands.turns_has here)
  | refused here fails => exact .failed (stands.turns_has here) fails
  | @stopped p booked m iterator e asks stops =>
    refine .on (stands.turns_has asks.here) (.on (stands.progress_stop asks stops)) (.out fun inside => ?_)
    exact absurd inside.last (Nat.not_succ_le_self l.back)
  | handed asks =>
    exact .on (stands.turns_has asks.here) (.on (stands.progress_item asks))
      (.within (turns_has_of_body _ (stands.body_has_handed asks)))
  | unbound asks fails =>
    exact .on (stands.turns_has asks.here) (.on (stands.progress_item asks))
      (.failed (turns_has_of_body _ (stands.body_has_handed asks)) fails)
  | @last r turn out =>
    refine stands.course_of_turn turn ?_
    have course := turn.course
    cases reached : r.reached with
    | left z =>
      rw [reached] at course
      have outside : ¬ l.body.Has z := course.not_has_of_left
      exact course.trans turns_has_of_body (.out (not_turns_has outside fun here => out ⟨z, reached, here⟩))
    | _ =>
      rw [reached] at course
      exact course.widen turns_has_of_body (by rintro q ⟨⟩)
  | @again r z rounds x turn back here more ih =>
    have course := turn.course
    rw [back] at course
    exact stands.course_of_turn turn (course.trans turns_has_of_body ih)

/-- At its head a loop is given an item or the end, or the run fails. -/
theorem answer_cases (due : Schedule) (here : p.At l.code l.head) :
    (∃ booked iterator item m, l.Asks due p booked iterator (.ok item m)) ∨
    (∃ booked iterator e m, l.Asks due p booked iterator (.error e m) ∧ e.stops m.heap) ∨
      ∃ e m, p.progress due = .error e m := by
  obtain ⟨booked, iterator, ⟨item, m⟩ | ⟨e, m⟩, asks⟩ | ⟨e, m, fails, -⟩ := stands.asks_or_fails due here
  · exact .inl ⟨booked, iterator, item, m, asks⟩
  · cases stops : e.stops m.heap with
    | true => exact .inr (.inl ⟨booked, iterator, e, m, asks, stops⟩)
    | false => exact .inr (.inr ⟨_, _, stands.progress_refused asks stops⟩)
  · exact .inr (.inr ⟨e, m, fails⟩)

/-- What comes behind the item is a round, unless the variable is not defined. -/
theorem turn_of_course (asks : l.Asks due p booked iterator (.ok item m))
    (course : l.body.Course due (p.handed booked item m) x) :
    x = .within (p.handed booked item m) ∨
    (∃ e m', x = .failed e m' ∧ (p.handed booked item m).progress due = .error e m') ∨
      ∃ r : Round, r.head = p ∧ r.reached = x ∧ r.Turn l due := by
  cases course with
  | within inside => exact .inl rfl
  | out outside => exact absurd (stands.body_has_handed asks) outside
  | failed inside fails => exact .inr (.inl ⟨_, _, rfl, fails⟩)
  | finished inside ends =>
    obtain ⟨fuel, m', books⟩ | ⟨e, m', fails, -⟩ := stands.binds_or_fails asks
    · obtain ⟨n, fuel⟩ := Nat.exists_eq_add_of_le' fuel
      rw [stands.progress_bind asks fuel books] at ends
      cases ends
    · rw [fails] at ends
      cases ends
  | on inside moves more =>
    obtain ⟨fuel, m', books⟩ | ⟨e, m', fails, -⟩ := stands.binds_or_fails asks
    · obtain ⟨n, fuel'⟩ := Nat.exists_eq_add_of_le' fuel
      obtain rfl := moves.eq_of_running (stands.progress_bind asks fuel' books)
      exact .inr (.inr ⟨⟨p, booked, iterator, item, m, _, x⟩, rfl, rfl, asks, fuel, ⟨m', books, rfl⟩, more⟩)
    · exact absurd fails (moves.not_failed e m')

/-- A course that comes by the head of a loop goes as a loop goes. One that is in the body goes through it, and then on
from the head if it comes back. -/
theorem goes_of_course (course : l.turns.Course due p x) :
    (p.At l.code l.head → ∃ rounds, l.Goes due p rounds x) ∧
    (l.body.Has p → (l.body.Course due p x ∧ ∀ z, x = .left z → ¬ z.At l.code l.head) ∨
      ∃ z rounds, l.body.Course due p (.left z) ∧ z.At l.code l.head ∧ l.Goes due z rounds x) := by
  induction course with
  | @within p inside => exact ⟨fun here => ⟨[], .asking here⟩, fun body => .inl ⟨.within body, by rintro z ⟨⟩⟩⟩
  | @out p outside =>
    exact ⟨fun here => absurd (stands.turns_has here) outside,
      fun body => absurd (turns_has_of_body p body) outside⟩
  | @failed p e m inside fails =>
    exact ⟨fun here => ⟨[], .refused here fails⟩, fun body => .inl ⟨.failed body fails, by rintro z ⟨⟩⟩⟩
  | @finished p value m inside ends =>
    refine ⟨fun here => ?_, fun body => .inl ⟨.finished body ends, by rintro z ⟨⟩⟩⟩
    -- the instruction at the head does not end a frame
    obtain ⟨booked, iterator, item, m', asks⟩ | ⟨booked, iterator, e, m', asks, stops⟩ | ⟨e, m', fails⟩ :=
      stands.answer_cases due here
    · rw [stands.progress_item asks] at ends
      cases ends
    · rw [stands.progress_stop asks stops] at ends
      cases ends
    · rw [fails] at ends
      cases ends
  | @on p q x inside moves more ih =>
    refine ⟨fun here => ?_, fun body => ?_⟩
    · obtain ⟨booked, iterator, item, m, asks⟩ | ⟨booked, iterator, e, m, asks, stops⟩ | ⟨e, m, fails⟩ :=
        stands.answer_cases due here
      · obtain rfl := moves.eq_of_running (stands.progress_item asks)
        obtain ⟨course, out⟩ | ⟨z, rounds, course, back, goes⟩ := ih.2 (stands.body_has_handed asks)
        · obtain rfl | ⟨e, m', rfl, fails⟩ | ⟨r, rfl, rfl, turn⟩ := stands.turn_of_course asks course
          · exact ⟨[], .handed asks⟩
          · exact ⟨[], .unbound asks fails⟩
          · exact ⟨[r], .last turn (by rintro ⟨z, left, here⟩; exact out z left here)⟩
        · obtain ⟨⟨⟩⟩ | ⟨e, m', ⟨⟩, -⟩ | ⟨r, rfl, reached, turn⟩ := stands.turn_of_course asks course
          exact ⟨r :: rounds, .again turn reached back goes⟩
      · obtain rfl := moves.eq_of_running (stands.progress_stop asks stops)
        have behind : ¬ l.turns.Has (p.dropped l booked m) := fun has => absurd has.last (Nat.not_succ_le_self l.back)
        cases more with
        | out => exact ⟨[], .stopped asks stops⟩
        | within has | on has | failed has | finished has => exact absurd has behind
      · exact absurd fails (moves.not_failed e m)
    · by_cases still : l.body.Has q
      · obtain ⟨course, out⟩ | ⟨z, rounds, course, back, goes⟩ := ih.2 still
        · exact .inl ⟨.on body moves course, out⟩
        · exact .inr ⟨z, rounds, .on body moves course, back, goes⟩
      · by_cases back : q.At l.code l.head
        · obtain ⟨rounds, goes⟩ := ih.1 back
          exact .inr ⟨q, rounds, .on body moves (.out still), back, goes⟩
        · have behind : ¬ l.turns.Has q := not_turns_has still back
          cases more with
          | out => exact .inl ⟨.on body moves (.out still), by rintro z ⟨⟩; exact back⟩
          | within has | on has | failed has | finished has => exact absurd has behind

end Stands

end Loop

end ObjectMachine
