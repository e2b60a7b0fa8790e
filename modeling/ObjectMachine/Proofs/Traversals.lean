import ObjectMachine.Proofs.Loops
/-!
Loops as wholes. A run enters a loop: it reads the function that makes iterators, evaluates the iterable and calls the
function, and comes to the head of the loop with an iterator on top of the operands. From there the rounds lead behind
the loop. What comes of the instructions on the way is said one by one, and put together to a course of the whole
loop.
-/
namespace ObjectMachine

namespace Loop

/-! ### The way in -/

/-- Where a loop evaluates its iterable. -/
def iterable (l : Loop) : Stretch := ⟨l.code, l.start + 1, l.call - 1⟩

/-- A loop from its start to its end. -/
def whole (l : Loop) : Stretch := ⟨l.code, l.start, l.back⟩

end Loop

/-- A run comes to a loop: it reads the function that makes iterators and evaluates the iterable. -/
structure Entry where
  /-- The run at the start of the loop. -/
  start : Standing
  /-- The machine when the instruction is booked that reads the function. -/
  readOn : Machine
  /-- The function. -/
  function : Ref
  /-- The run with the value of the iterable on top of the operands. -/
  evaluated : Standing
  /-- That value. -/
  value : Ref
  /-- The machine when the call is booked. -/
  calledOn : Machine
  /-- How much fuel the call leaves. -/
  depth : Nat

namespace Entry

open Engine

/-- The run behind the instruction that reads the function. -/
def opened (en : Entry) (l : Loop) : Standing :=
  ⟨en.start.fuel - 1, { en.start.frame with stack := en.function :: en.start.frame.stack, ip := l.start + 1 },
    en.readOn⟩

/-- What comes of the call: an iterator is made, one call deeper. -/
def answer (en : Entry) (due : Schedule) : Outcome Ref :=
  (keepingObjects [en.function, en.value] (calling "iter" [en.value]
    (getIterator (reentry en.depth) en.value))).runUnder due (en.calledOn.pushRoots en.evaluated.frame.links)

/-- The run at the head of the loop, with an iterator. -/
def asking (en : Entry) (l : Loop) (iterator : Ref) (m : Machine) : Standing :=
  ⟨en.evaluated.fuel - 1, { en.evaluated.frame with stack := iterator :: en.start.frame.stack, ip := l.head },
    m.truncateRoots en.calledOn.roots.size⟩

/-- A run enters a loop: `iter` is the built-in function, and the iterable puts one value on top of the operands. -/
structure Enters (en : Entry) (l : Loop) (due : Schedule) : Prop where
  /-- It is at the start of the loop. -/
  here : en.start.At l.code l.start
  /-- There is fuel. -/
  fuel : 0 < en.start.fuel
  /-- The instruction is booked that reads the function. -/
  reads : (book en.start.frame (.getVar "iter")).runUnder due en.start.machine = .ok () en.readOn
  /-- The name leads to the function. -/
  resolves : en.readOn.heap.resolve? en.start.frame.scope "iter" = some en.function
  /-- The iterable is evaluated. -/
  evaluates : l.iterable.Course due (en.opened l) (.left en.evaluated)
  /-- The run is at the call then. -/
  there : en.evaluated.At l.code l.call
  /-- The value of the iterable is on top of the function. -/
  operands : en.evaluated.frame.stack = en.value :: en.function :: en.start.frame.stack
  /-- There is fuel for the call. -/
  enough : en.evaluated.fuel = en.depth + 3
  /-- The call is booked. -/
  calls : (book en.evaluated.frame (.call 1)).runUnder due en.evaluated.machine = .ok () en.calledOn
  /-- The function is the built-in one. -/
  builtin : ∃ f, en.calledOn.heap.payload? en.function = some (.function f) ∧ Declaration.iter.Makes f

end Entry

/-- A run that goes through a loop, from its start to its end. -/
structure Traversal where
  /-- The way in. -/
  entry : Entry
  /-- The iterator. -/
  iterator : Ref
  /-- The machine on which it is made. -/
  made : Machine
  /-- The rounds. -/
  rounds : List Round
  /-- The run behind the loop. -/
  behind : Standing

/-- A loop is gone through: a run enters it, an iterator is made, and the rounds lead to the end. -/
structure Traversal.Through (t : Traversal) (l : Loop) (due : Schedule) : Prop where
  /-- The run enters the loop. -/
  enters : t.entry.Enters l due
  /-- The iterator is made. -/
  makes : t.entry.answer due = .ok t.iterator t.made
  /-- The rounds. -/
  goes : l.Goes due (t.entry.asking l t.iterator t.made) t.rounds (.left t.behind)

namespace Round

open Engine

variable {r : Round} {l : Loop} {due : Schedule} {iterator iterator' data data' : Ref}

/-- Between the item and the next question some objects stay as they are, and the slots in order. -/
def LeavesAlone (r : Round) (l : Loop) (due : Schedule) (refs : List Ref) : Prop :=
  ∀ z, r.reached = .left z → ∀ booked, (book z.frame (.iterNext l.done)).runUnder due z.machine = .ok () booked →
    booked.heap.objects.WellFormed ∧ ∀ ref ∈ refs, booked.heap.payload? ref = r.delivered.heap.payload? ref

/-- An iterator over built-in data stands where it stood if it stays as it is, and the data does. -/
theorem LeavesAlone.standsBefore {xs : List Item} {z : Standing} {booked : Machine}
    (alone : r.LeavesAlone l due [iterator, data]) (left : r.reached = .left z)
    (books : (book z.frame (.iterNext l.done)).runUnder due z.machine = .ok () booked)
    (stands : StandsBefore r.delivered.heap iterator data xs) : StandsBefore booked.heap iterator data xs := by
  obtain ⟨order, same⟩ := alone z left booked books
  have unmoved := same iterator List.mem_cons_self
  have unmodified := same data (.tail _ List.mem_cons_self)
  exact stands.congr order unmoved unmodified

/-- So its iteration is not affected. -/
theorem unaffected_of_leavesAlone (alone : r.LeavesAlone l due [iterator, data]) :
    r.Unaffected l due fun h h' => ∃ xs, StandsBefore h iterator data xs ∧ StandsBefore h' iterator' data' xs := by
  rintro z booked h left books ⟨xs, stands, stands'⟩
  exact ⟨xs, alone.standsBefore left books stands, stands'⟩

end Round

namespace Loop

open Engine

variable {l : Loop} {due : Schedule} {p : Standing} {x : Reached} {booked m : Machine} {iterator : Ref} {e : Interrupt}
  {en : Entry}

namespace Stands

variable (stands : l.Stands)
include stands

/-- The function is read that makes iterators. -/
theorem progress_read {n : Nat} {function : Ref} (here : p.At l.code l.start) (fuel : p.fuel = n + 1)
    (books : (book p.frame (.getVar "iter")).runUnder due p.machine = .ok () booked)
    (resolves : booked.heap.resolve? p.frame.scope "iter" = some function) :
    p.progress due = .ok (.running { p.frame with stack := function :: p.frame.stack, ip := l.start + 1 }) booked := by
  obtain ⟨tag, found⟩ := stands.reads
  rw [← here.code, ← here.ip] at found
  have ran : (execute (reentry n) p.frame (.getVar "iter")).runUnder due booked =
      .ok (.next (p.frame.push function)) (booked.withHeap fun _ => booked.heap) := by
    rw [execute, readVariable]
    simp only [runUnder_bind, runUnder_ask, resolves]
    rfl
  rw [Standing.progress_of_quiet fuel found rfl books ran, settle_next (f := p.frame.push function) here.returned,
    here.ip]
  rfl

/-- Behind its body the loop jumps back to its head. -/
theorem progress_back {n : Nat} (here : p.At l.code l.back) (fuel : p.fuel = n + 1)
    (books : (book p.frame (.jump l.again)).runUnder due p.machine = .ok () booked) :
    p.progress due = .ok (.running { p.frame with ip := l.head }) booked := by
  obtain ⟨tag, found⟩ := stands.jumps
  rw [← here.code, ← here.ip] at found
  have ran : (execute (reentry n) p.frame (.jump l.again)).runUnder due booked =
      .ok (.jump l.head p.frame) (booked.withHeap fun _ => booked.heap) := by
    rw [execute, branch, if_pos rfl, (stands.targets p.frame here.code).1]
    rfl
  rw [Standing.progress_of_quiet fuel found rfl books ran, settle_jump here.returned]
  rfl

/-- The function that makes iterators is called one call deeper: what it gives becomes the iterator, and an error leaves
the loop. -/
theorem progress_call {n : Nat} {function value : Ref} {rest : List Ref} {f : Function} (here : p.At l.code l.call)
    (operands : p.frame.stack = value :: function :: rest) (fuel : p.fuel = n + 3)
    (books : (book p.frame (.call 1)).runUnder due p.machine = .ok () booked)
    (holds : booked.heap.payload? function = some (.function f)) (makes : Declaration.iter.Makes f)
    {answer : Outcome Ref} (gets : (keepingObjects [function, value] (calling "iter" [value]
      (getIterator (reentry n) value))).runUnder due (booked.pushRoots p.frame.links) = answer) :
    (∀ iterator m, answer = .ok iterator m → p.progress due = .ok
      (.running { p.frame with stack := iterator :: rest, ip := l.head }) (m.truncateRoots booked.roots.size)) ∧
    ∀ e m, answer = .error e m →
      p.progress due = .error (e.atSite ⟨.call 1, l.call⟩) (m.truncateRoots booked.roots.size) := by
  obtain ⟨tag, found⟩ := stands.calls
  rw [← here.code, ← here.ip] at found
  have takes : Declaration.iter.Takes booked.heap [value] := ⟨by decide, .cons (Declaration.fits_any "value") .nil⟩
  have prepared : (booked.pushRoots p.frame.links).heap.prepare function [value] =
      .ok (some ⟨f, ⟨[value], none⟩⟩) := by
    show booked.heap.prepare function [value] = _
    rw [Heap.prepare, holds]
    dsimp only
    rw [makes.matchArgs_of_takes takes]
  have called : ((reentry (n + 2)).call function [value]).runUnder due (booked.pushRoots p.frame.links) = answer := by
    rw [← gets, runUnder_call_of_prepared makes.body prepared, makes.name]
    rfl
  have executed (m : Machine) : (execute (reentry (n + 2)) p.frame (.call 1)).runUnder due m =
      ((reentry (n + 2)).call function [value] >>= fun result =>
        pure (.next (p.frame.withStack (result :: rest)))).runUnder due m := by
    have args : popMany p.frame 1 = pure ([value], p.frame.withStack (function :: rest)) := by
      rw [popMany, operands]
      rfl
    rw [execute, args]
    rfl
  refine ⟨?_, ?_⟩
  · rintro iterator m rfl
    have ran : (execute (reentry (n + 2)) p.frame (.call 1)).runUnder due (booked.pushRoots p.frame.links) =
        .ok (.next (p.frame.withStack (iterator :: rest))) m := by
      rw [executed, runUnder_bind, called]
      rfl
    rw [Standing.progress_of_executed fuel found books ran,
      settle_next (f := p.frame.withStack (iterator :: rest)) here.returned, here.ip]
    rfl
  · rintro e m rfl
    have ran : (execute (reentry (n + 2)) p.frame (.call 1)).runUnder due (booked.pushRoots p.frame.links) =
        .error e m := by
      rw [executed, runUnder_bind, called]
    rw [Standing.progress_of_failed fuel found books ran, here.ip]

theorem whole_has_of_turns (p : Standing) (inside : l.turns.Has p) : l.whole.Has p :=
  ⟨inside.code, by have := stands.opens; have := inside.first; simp only [turns, whole, head] at *; omega, inside.last,
    inside.returned⟩

theorem whole_has_of_iterable (p : Standing) (inside : l.iterable.Has p) : l.whole.Has p :=
  ⟨inside.code, Nat.le_of_succ_le inside.first, by
    have := stands.order
    have := inside.last
    simp only [iterable, whole, head] at *
    omega, inside.returned⟩

theorem whole_has {i : Nat} (here : p.At l.code i) (first : l.start ≤ i) (last : i ≤ l.call) : l.whole.Has p :=
  ⟨here.code, here.ip ▸ first, by
    have := stands.order
    simp only [whole, head, here.ip] at *
    omega, here.returned⟩

/-- A run that enters a loop gets to the call. -/
theorem course_of_enters (enters : en.Enters l due) (later : l.whole.Course due en.evaluated x) :
    l.whole.Course due en.start x := by
  obtain ⟨n, fuel⟩ : ∃ n, en.start.fuel = n + 1 := Nat.exists_eq_add_of_le' enters.fuel
  have read := stands.progress_read enters.here fuel enters.reads enters.resolves
  exact .on (stands.whole_has enters.here (Nat.le_refl _) (Nat.le_of_lt stands.opens)) (.on read)
    (enters.evaluates.trans stands.whole_has_of_iterable later)

/-- With an iterator it gets to the head of the loop. -/
theorem course_of_made (enters : en.Enters l due) (made : en.answer due = .ok iterator m)
    (later : l.whole.Course due (en.asking l iterator m) x) : l.whole.Course due en.start x := by
  obtain ⟨f, holds, makes⟩ := enters.builtin
  have called :=
    (stands.progress_call enters.there enters.operands enters.enough enters.calls holds makes rfl).1 _ _ made
  exact stands.course_of_enters enters
    (.on (stands.whole_has enters.there (Nat.le_of_lt stands.opens) (Nat.le_refl _)) (.on called) later)

/-- If no iterator is made, the error leaves the loop. -/
theorem course_of_unmade (enters : en.Enters l due) (unmade : en.answer due = .error e m) :
    l.whole.Course due en.start (.failed (e.atSite ⟨.call 1, l.call⟩) (m.truncateRoots en.calledOn.roots.size)) := by
  obtain ⟨f, holds, makes⟩ := enters.builtin
  have failed :=
    (stands.progress_call enters.there enters.operands enters.enough enters.calls holds makes rfl).2 _ _ unmade
  exact stands.course_of_enters enters
    (.failed (stands.whole_has enters.there (Nat.le_of_lt stands.opens) (Nat.le_refl _)) failed)

end Stands

end Loop

end ObjectMachine
