import ObjectMachine.Request
/-!
Histories: what a computation goes through, moment by moment. The history of a computation is read
off the same tree that `Engine.runUnder` runs, with the machine as it is at each moment. Moments
inside a forgiven computation are marked, because what goes wrong there has no consequence.
-/
namespace ObjectMachine

/-- The machine as an outcome leaves it. -/
def Outcome.machine {α : Type} : Outcome α → Machine
  | .ok _ m => m
  | .error _ m => m

/-- Something that a computation goes through. -/
inductive Moment : Type 1 where
  /-- An operation is performed on a machine, while nodes are held that nothing keeps alive. -/
  | acts {α : Type} (o : Op α) (held : List Node) (m : Machine)
  /-- An interruption arises. -/
  | throws (e : Interrupt) (m : Machine)
  /-- A call is nested: a function, a generator or other code starts. -/
  | enters (m : Machine)
  /-- A call is not nested, because the budget refuses. -/
  | refuses (m : Machine)
  /-- A section of a protected block starts, or is resumed. -/
  | opens (phase : Phase) (resumed : Bool) (m : Machine)
  /-- A section of a protected block does not start, or is not resumed, because the budget
  refuses. -/
  | bars (phase : Phase) (resumed : Bool) (e : Exhaustion) (m : Machine)
  /-- A section of a protected block that was opened on a machine ends, or hands out a value. -/
  | shuts (phase : Phase) (m : Machine) (outcome : Outcome Completion)
  /-- A moment of a forgiven computation. -/
  | forgiven (moment : Moment)

/-- The moments of a call that is nested in a machine, unless the budget refuses. -/
def Machine.historyInside (m : Machine) (history : Machine → List Moment) : List Moment :=
  match m.enter with
  | .error _ => [.refuses m]
  | .ok inner => .enters m :: history inner

namespace Engine

variable {α β : Type}

/-- What a computation goes through, from a machine on, when garbage is collected by a schedule and
nodes are held. -/
def history (due : Schedule) {α : Type} : List Node → Engine α → Machine → List Moment
  | _, give _, _ => []
  | _, throw e, m => [.throws e m]
  | held, act o, m => [.acts o held m]
  | held, andThen x f, m =>
    x.history due held m ++
      match x.runUnder due m with
      | .ok a m => (f a).history due held m
      | .error _ _ => []
  | held, keeping nodes x, m => x.history due held (m.pushRoots nodes)
  | held, holding nodes x, m => x.history due (nodes ++ held) m
  | held, executing _ x, m => x.history due held m
  | held, calling name _ x, m =>
    m.historyInside fun inner => x.history due held (inner.observe (.call name))
  | held, nested x, m => m.historyInside fun inner => x.history due held inner
  | held, inSection phase resumed x, m =>
    match m.enter with
    | .error e => [.bars phase resumed e m]
    | .ok inner =>
      .opens phase resumed m ::
        (x.history due held inner ++ [.shuts phase m (x.runUnder due inner)])
  | held, resuming _ _ x, m =>
    m.historyInside fun inner => x.history due held (inner.observe .resume)
  | held, catching x, m => x.history due held m
  | held, forgiving x, m => (x.history due held m).map .forgiven

/-! ### One computation after another -/

variable {due : Schedule} {m m' : Machine}

theorem runUnder_bind (x : Engine α) (f : α → Engine β) (m : Machine) :
    (x >>= f).runUnder due m =
      match x.runUnder due m with
      | .ok a m => (f a).runUnder due m
      | .error i m => .error i m := by
  show (andThen x f).runUnder due m = _
  cases ran : x.runUnder due m <;> simp only [runUnder, ran]

theorem ok_of_bind {x : Engine α} {f : α → Engine β} {b : β}
    (run : (x >>= f).runUnder due m = .ok b m') :
    ∃ a m₁, x.runUnder due m = .ok a m₁ ∧ (f a).runUnder due m₁ = .ok b m' := by
  rw [runUnder_bind] at run
  cases ran : x.runUnder due m with
  | ok a m₁ =>
    rw [ran] at run
    exact ⟨a, m₁, rfl, run⟩
  | error e m₁ =>
    rw [ran] at run
    cases run

/-- What ends with an interruption was interrupted before or behind. -/
theorem error_of_bind {x : Engine α} {f : α → Engine β} {i : Interrupt}
    (run : (x >>= f).runUnder due m = .error i m') :
    x.runUnder due m = .error i m' ∨
      ∃ a m₁, x.runUnder due m = .ok a m₁ ∧ (f a).runUnder due m₁ = .error i m' := by
  rw [runUnder_bind] at run
  cases ran : x.runUnder due m with
  | ok a m₁ =>
    rw [ran] at run
    exact .inr ⟨a, m₁, rfl, run⟩
  | error e m₁ =>
    rw [ran] at run
    cases run
    exact .inl rfl

theorem runUnder_pure (a : α) (m : Machine) : (pure a : Engine α).runUnder due m = .ok a m := rfl

theorem runUnder_ask (f : Heap → α) (m : Machine) : (ask f).runUnder due m = .ok (f m.heap) m := rfl

theorem runUnder_load {r : Ref} {o : Object} (found : m.heap.object? r = some o) :
    (load r).runUnder due m = .ok o m := by
  simp only [load, runUnder, Op.perform, found]

theorem runUnder_payload (due : Schedule) (r : Ref) (m : Machine) :
    (payload r).runUnder due m =
      match m.heap.payload? r with
      | some p => .ok p m
      | none => .error .dangling m := by
  show (andThen (load r) _).runUnder due m = _
  simp only [load, runUnder, Op.perform, Heap.payload?]
  cases m.heap.object? r <;> rfl

end Engine

/-- What a request goes through on a machine. -/
def Request.history (r : Request) (m : Machine) (printer : Printer) : List Moment :=
  (r.computation m.globals).history Heap.collectionDue [] (m.startRequest printer)

end ObjectMachine
