import ObjectMachine.Proofs.Operators
/-!
Runs that are under way. The run of a frame goes from one instruction to the next. Where it hands out a value it
waits, and whoever resumes it goes on with the same frame, on whatever machine there is by then. So what happens in a
stretch of code is a course: it goes on in the stretch for a while, and then it has left the stretch, or an error has
left it, or the frame is over, or the course has not been looked at any further.
-/
namespace ObjectMachine

/-- A run that is under way: the fuel that is left, the frame, and the machine. -/
structure Standing where
  /-- The fuel that is left. -/
  fuel : Nat
  /-- The frame. -/
  frame : Frame
  /-- The machine on which it goes on. -/
  machine : Machine

/-- How far a course has come. -/
inductive Reached where
  /-- It is still in the stretch. -/
  | within (q : Standing)
  /-- It has left the stretch, and goes on elsewhere. -/
  | left (q : Standing)
  /-- An interruption ends the run. -/
  | failed (e : Interrupt) (m : Machine)
  /-- The frame is over. -/
  | finished (value : Option Ref) (m : Machine)

/-- Consecutive instructions of some code. -/
structure Stretch where
  /-- The code. -/
  code : Code
  /-- The position of the first instruction. -/
  first : Nat
  /-- The position of the last instruction. -/
  last : Nat

namespace Engine

variable {due : Schedule} {k : Reentry} {f : Frame} {op : Opcode} {m m' : Machine} {e : Interrupt}

/-- What precedes the effect of an instruction: it is booked, garbage is collected if that is due, and the observer is
told. -/
def book (f : Frame) (op : Opcode) : Engine Unit := do
  tick
  collectIfDue fun _ => f.links
  observeAt (.instruction f.ip op.name f.stack.length)

/-- What an instruction holds while it may run other code. -/
def heldBy (f : Frame) (op : Opcode) : List Node := if op.runsCode then f.links else []

/-- An instruction is refused by a budget only, and never with an error that can be caught. -/
theorem not_raised_of_book (refused : (book f op).runUnder due m = .error e m') (r : Raised) : e ≠ .raised r := by
  have ticked : tick.runUnder due m = .error e m' := by
    obtain ticked | ⟨_, _, -, later⟩ := error_of_bind refused
    · exact ticked
    · cases later
  obtain ⟨⟨objects, scopes, budget, since⟩, builtins, globals, depth, roots, printer, tracer⟩ := m
  simp only [tick, runUnder, Op.perform, Op.onHeap, Heap.tick] at ticked
  cases budget with
  | unlimited => cases ticked
  | limited a =>
    cases limit : a.limits.maxOperations with
    | none =>
      simp only [Budget.tick, limit] at ticked
      cases ticked
    | some limit' =>
      simp only [Budget.tick, limit] at ticked
      split at ticked <;> cases ticked
      rename_i beyond
      split at beyond <;> cases beyond
      rintro ⟨⟩

/-- An instruction takes its effect behind what precedes it. -/
theorem runUnder_instruction {instruction : Instruction} (found : f.code.at? f.ip = some instruction) (m : Machine) :
    (runInstruction k f).runUnder due m =
      (book f instruction.op >>= fun _ =>
        executing ⟨instruction.op, f.ip⟩ (keeping (heldBy f instruction.op) (execute k f instruction.op)) >>=
          fun step => pure (settle f.ip step)).runUnder due m := by
  simp only [runInstruction, found, book, runUnder_bind]
  cases tick.runUnder due m <;> rfl

end Engine

namespace Standing

/-- What its next instruction comes to. -/
def progress (due : Schedule) (p : Standing) : Outcome Engine.Progress :=
  match p.fuel with
  | 0 => .error .outOfFuel p.machine
  | n + 1 => (Engine.runInstruction (Engine.reentry n) p.frame).runUnder due p.machine

/-- What the rest of it comes to. -/
def run (due : Schedule) (p : Standing) : Outcome Completion :=
  (Engine.runFrameWith p.fuel p.frame).runUnder due p.machine

/-- What the rest of a run comes to behind an instruction. -/
def onward (due : Schedule) (fuel : Nat) : Outcome Engine.Progress → Outcome Completion
  | .ok (.running f) m => run due ⟨fuel, f, m⟩
  | .ok (.complete completion) m => .ok completion m
  | .error e m => .error e m

/-- A run is its instructions, one after the other. -/
theorem run_eq (due : Schedule) (p : Standing) : p.run due = onward due (p.fuel - 1) (p.progress due) := by
  obtain ⟨fuel, f, m⟩ := p
  cases fuel with
  | zero => rfl
  | succ n =>
    show (Engine.runFrameWith (n + 1) f).runUnder due m =
      onward due n ((Engine.runInstruction (Engine.reentry n) f).runUnder due m)
    rw [Engine.runFrameWith, Engine.runUnder_bind, Engine.reentry]
    split <;> rename_i ran
    · rw [ran]
      split <;> rfl
    · rw [ran]
      rfl

end Standing

/-- What the rest of a run comes to that was followed this far. -/
def Reached.rest (due : Schedule) : Reached → Outcome Completion
  | within q | left q => q.run due
  | failed e m => .error e m
  | finished value m => .ok (.done value) m

namespace Standing

variable {due : Schedule} {p : Standing} {op : Opcode} {tag : Option String} {m m' : Machine} {e : Interrupt} {n : Nat}

/-! ### Single instructions -/

/-- Without fuel a run is cut off. -/
theorem progress_of_exhausted (exhausted : p.fuel = 0) : p.progress due = .error .outOfFuel p.machine := by
  rw [progress, exhausted]

theorem progress_eq (fuel : p.fuel = n + 1) (found : p.frame.code.at? p.frame.ip = some ⟨op, tag⟩) :
    p.progress due = (Engine.book p.frame op >>= fun _ =>
      Engine.executing ⟨op, p.frame.ip⟩
        (Engine.keeping (Engine.heldBy p.frame op) (Engine.execute (Engine.reentry n) p.frame op)) >>= fun step =>
          pure (Engine.settle p.frame.ip step)).runUnder due p.machine := by
  rw [progress, fuel]
  exact Engine.runUnder_instruction found p.machine

/-- An instruction that is refused ends the run. -/
theorem progress_of_refused (fuel : p.fuel = n + 1) (found : p.frame.code.at? p.frame.ip = some ⟨op, tag⟩)
    (refused : (Engine.book p.frame op).runUnder due p.machine = .error e m) : p.progress due = .error e m := by
  rw [progress_eq fuel found, Engine.runUnder_bind, refused]

/-- An instruction that is booked takes its effect. -/
theorem progress_of_executed {step : Step} (fuel : p.fuel = n + 1)
    (found : p.frame.code.at? p.frame.ip = some ⟨op, tag⟩)
    (booked : (Engine.book p.frame op).runUnder due p.machine = .ok () m)
    (ran : (Engine.execute (Engine.reentry n) p.frame op).runUnder due (m.pushRoots (Engine.heldBy p.frame op)) =
      .ok step m') : p.progress due = .ok (Engine.settle p.frame.ip step) (m'.truncateRoots m.roots.size) := by
  rw [progress_eq fuel found, Engine.runUnder_bind, booked]
  simp only [Engine.runUnder_bind, Engine.runUnder, ran]
  rfl

/-- An error of its effect leaves it, and a defect remembers the instruction. -/
theorem progress_of_failed (fuel : p.fuel = n + 1) (found : p.frame.code.at? p.frame.ip = some ⟨op, tag⟩)
    (booked : (Engine.book p.frame op).runUnder due p.machine = .ok () m)
    (ran : (Engine.execute (Engine.reentry n) p.frame op).runUnder due (m.pushRoots (Engine.heldBy p.frame op)) =
      .error e m') : p.progress due = .error (e.atSite ⟨op, p.frame.ip⟩) (m'.truncateRoots m.roots.size) := by
  rw [progress_eq fuel found, Engine.runUnder_bind, booked]
  simp only [Engine.runUnder_bind, Engine.runUnder, ran]
  rfl

/-- An instruction that runs no other code and leaves the roots alone leaves the machine of its effect. -/
theorem progress_of_quiet {step : Step} {g : Heap → Heap} (fuel : p.fuel = n + 1)
    (found : p.frame.code.at? p.frame.ip = some ⟨op, tag⟩) (quiet : op.runsCode = false)
    (booked : (Engine.book p.frame op).runUnder due p.machine = .ok () m)
    (ran : (Engine.execute (Engine.reentry n) p.frame op).runUnder due m = .ok step (m.withHeap g)) :
    p.progress due = .ok (Engine.settle p.frame.ip step) (m.withHeap g) := by
  have held : Engine.heldBy p.frame op = [] := by rw [Engine.heldBy, quiet, if_neg Bool.false_ne_true]
  rw [progress_of_executed fuel found booked (by rw [held]; exact ran)]
  exact congrArg (EStateM.Result.ok _) ((m.withHeap g).truncateRoots_pushRoots [])

/-! ### Courses -/

/-- A run goes on: by an instruction, or resumed where it handed out a value. -/
inductive Moves (due : Schedule) (p : Standing) : Standing → Prop where
  /-- By an instruction. -/
  | on {f : Frame} {m : Machine} (goes : p.progress due = .ok (.running f) m) : Moves due p ⟨p.fuel - 1, f, m⟩
  /-- By whoever resumes it, at any time. -/
  | resumed {value : Ref} {f : Frame} {m : Machine} (waits : p.progress due = .ok (.complete (.yielded value f)) m)
    (fuel : Nat) (m' : Machine) : Moves due p ⟨fuel, f, m'⟩

/-- If the instruction says where the run goes on, it goes on there. -/
theorem Moves.eq_of_running {q : Standing} {f : Frame} (moves : p.Moves due q)
    (goes : p.progress due = .ok (.running f) m) : q = ⟨p.fuel - 1, f, m⟩ := by
  cases moves with
  | on goes' =>
    rw [goes] at goes'
    cases goes'
    rfl
  | resumed waits =>
    rw [goes] at waits
    cases waits

theorem Moves.not_failed {q : Standing} (moves : p.Moves due q) (e : Interrupt) (m : Machine) :
    p.progress due ≠ .error e m := by
  rintro fails
  cases moves with
  | on goes =>
    rw [fails] at goes
    cases goes
  | resumed waits =>
    rw [fails] at waits
    cases waits

/-- A run is at a position of some code. -/
structure At (p : Standing) (c : Code) (i : Nat) : Prop where
  /-- It is a run of the code. -/
  code : p.frame.code = c
  /-- It is at the position. -/
  ip : p.frame.ip = i
  /-- It has not returned. -/
  returned : p.frame.returned = none

instance (p : Standing) (c : Code) (i : Nat) : Decidable (p.At c i) :=
  decidable_of_iff (p.frame.code = c ∧ p.frame.ip = i ∧ p.frame.returned = none)
    ⟨fun ⟨code, ip, returned⟩ => ⟨code, ip, returned⟩, fun ⟨code, ip, returned⟩ => ⟨code, ip, returned⟩⟩

end Standing

namespace Stretch

variable {due : Schedule} {s s' : Stretch} {p q z : Standing} {x y : Reached}

/-- A run is in a stretch of code. -/
structure Has (s : Stretch) (p : Standing) : Prop where
  /-- It is a run of the code. -/
  code : p.frame.code = s.code
  /-- It is not before the stretch. -/
  first : s.first ≤ p.frame.ip
  /-- It is not behind the stretch. -/
  last : p.frame.ip ≤ s.last
  /-- It has not returned. -/
  returned : p.frame.returned = none

instance (s : Stretch) (p : Standing) : Decidable (s.Has p) :=
  decidable_of_iff
    (p.frame.code = s.code ∧ s.first ≤ p.frame.ip ∧ p.frame.ip ≤ s.last ∧ p.frame.returned = none)
    ⟨fun ⟨code, first, last, returned⟩ => ⟨code, first, last, returned⟩,
      fun ⟨code, first, last, returned⟩ => ⟨code, first, last, returned⟩⟩

/-- A run that comes by a stretch of code gets this far. -/
inductive Course (s : Stretch) (due : Schedule) : Standing → Reached → Prop where
  /-- It is in the stretch, and is not looked at any further. -/
  | within {p : Standing} (inside : s.Has p) : Course s due p (.within p)
  /-- It has left the stretch. -/
  | out {p : Standing} (outside : ¬ s.Has p) : Course s due p (.left p)
  /-- It goes on. -/
  | on {p q : Standing} {x : Reached} (inside : s.Has p) (moves : p.Moves due q) (more : Course s due q x) :
    Course s due p x
  /-- An instruction fails. -/
  | failed {p : Standing} {e : Interrupt} {m : Machine} (inside : s.Has p) (fails : p.progress due = .error e m) :
    Course s due p (.failed e m)
  /-- The frame is over. -/
  | finished {p : Standing} {value : Option Ref} {m : Machine} (inside : s.Has p)
    (ends : p.progress due = .ok (.complete (.done value)) m) : Course s due p (.finished value m)

/-- A run gets at least as far in a wider stretch, if it does not end in the narrower one. -/
theorem Course.trans (first : s.Course due p (.left z)) (wider : ∀ q, s.Has q → s'.Has q)
    (later : s'.Course due z x) : s'.Course due p x := by
  generalize reached : Reached.left z = y at first
  induction first with
  | out outside =>
    cases reached
    exact later
  | on inside moves more ih => exact .on (wider _ inside) moves (ih reached)
  | within | failed | finished => cases reached

/-- What does not leave a stretch goes the same way in a wider one. -/
theorem Course.widen (course : s.Course due p x) (wider : ∀ q, s.Has q → s'.Has q) (stays : ∀ q, x ≠ .left q) :
    s'.Course due p x := by
  induction course with
  | within inside => exact .within (wider _ inside)
  | out outside => exact absurd rfl (stays _)
  | on inside moves more ih => exact .on (wider _ inside) moves (ih stays)
  | failed inside fails => exact .failed (wider _ inside) fails
  | finished inside ends => exact .finished (wider _ inside) ends

/-- A run that has left a stretch is not in it. -/
theorem Course.not_has_of_left (course : s.Course due p (.left z)) : ¬ s.Has z := by
  generalize reached : Reached.left z = y at course
  induction course with
  | out outside =>
    cases reached
    exact outside
  | on inside moves more ih => exact ih reached
  | within | failed | finished => cases reached

/-- How far a run gets by some number of instructions, if nobody resumes it. -/
def follow (s : Stretch) (due : Schedule) : Nat → Standing → Reached
  | 0, p => if s.Has p then .within p else .left p
  | n + 1, p =>
    if s.Has p then
      match p.progress due with
      | .ok (.running f) m => follow s due n ⟨p.fuel - 1, f, m⟩
      | .ok (.complete (.done value)) m => .finished value m
      | .ok (.complete (.yielded ..)) _ => .within p
      | .error e m => .failed e m
    else .left p

/-- A run can be followed as far as one likes. -/
theorem course_follow (s : Stretch) (due : Schedule) (n : Nat) (p : Standing) : s.Course due p (s.follow due n p) := by
  induction n generalizing p with
  | zero =>
    rw [follow]
    split
    · exact .within ‹_›
    · exact .out ‹_›
  | succ n ih =>
    rw [follow]
    split
    · rename_i inside
      split
      · rename_i f m goes
        exact .on inside (.on goes) (ih _)
      · rename_i value m ends
        exact .finished inside ends
      · exact .within inside
      · rename_i e m fails
        exact .failed inside fails
    · exact .out ‹_›

/-- To follow a run does not change what the rest of it comes to. -/
theorem rest_follow (s : Stretch) (due : Schedule) (n : Nat) (p : Standing) :
    (s.follow due n p).rest due = p.run due := by
  induction n generalizing p with
  | zero =>
    rw [follow]
    split <;> rfl
  | succ n ih =>
    rw [follow]
    split
    · rw [p.run_eq]
      split
      · rename_i f m goes
        rw [ih, goes]
        rfl
      · rename_i value m ends
        rw [ends]
        rfl
      · rename_i value f m waits
        rw [Reached.rest, p.run_eq]
      · rename_i e m fails
        rw [fails]
        rfl
    · rfl

end Stretch

end ObjectMachine
