import ObjectMachine.Proofs.Nesting
import ObjectMachine.Proofs.Sessions
/-!
What a computation reports. The events are read off the same tree that `Engine.runUnder` runs. Nothing that runs
depends on the observer: with another one a computation ends in the same way, and the observer has been told exactly
these events, in this order. So an observer that records without a limit has recorded exactly these.
-/
namespace ObjectMachine

/-- The events that an operation reports. -/
def Op.reports {α : Type} (m : Machine) : Op α → List Event
  | observe e => [e m.depth]
  | _ => []

/-- The events of a call that is nested in a machine, unless the budget refuses. -/
def Machine.reportsInside (m : Machine) (reports : Machine → List Event) : List Event :=
  match m.enter with
  | .error _ => []
  | .ok inner => reports inner

/-- The events of a section as it is left: the exit of its block, if nothing of the block runs any more. -/
def Outcome.exits {α : Type} (depth : Nat) : Outcome α → List Event
  | .ok .. | .error (.raised _) _ => []
  | .error _ _ => [.tryExit depth]

namespace Engine

/-- The events that a computation reports, when garbage is collected by a schedule. -/
def reports (due : Schedule) {α : Type} : Engine α → Machine → List Event
  | give _, _ => []
  | throw _, _ => []
  | act o, m => o.reports m
  | andThen x f, m =>
    x.reports due m ++
      match x.runUnder due m with
      | .ok a m => (f a).reports due m
      | .error _ _ => []
  | keeping nodes x, m => x.reports due (m.pushRoots nodes)
  | holding _ x, m => x.reports due m
  | executing _ x, m => x.reports due m
  | calling name _ x, m =>
    m.reportsInside fun inner =>
      .call name inner.depth :: (x.reports due (inner.observe (.call name)) ++ [.leave inner.depth])
  | nested x, m => m.reportsInside fun inner => x.reports due inner
  | inSection _ _ x, m =>
    m.reportsInside fun inner => x.reports due inner ++ (x.runUnder due inner).exits m.depth
  | resuming _ _ x, m =>
    m.reportsInside fun inner => .resume inner.depth :: x.reports due (inner.observe .resume)
  | catching x, m => x.reports due m
  | forgiving x, m => x.reports due m

variable {due : Schedule} {α β : Type}

theorem reports_bind (x : Engine α) (f : α → Engine β) (m : Machine) :
    (x >>= f).reports due m = x.reports due m ++
      match x.runUnder due m with
      | .ok a m' => (f a).reports due m'
      | .error _ _ => [] := by
  show (andThen x f).reports due m = _
  cases ran : x.runUnder due m <;> simp only [reports, ran]

theorem history_bind (x : Engine α) (f : α → Engine β) (held : List Node) (m : Machine) :
    (x >>= f).history due held m = x.history due held m ++
      match x.runUnder due m with
      | .ok a m' => (f a).history due held m'
      | .error _ _ => [] := by
  show (andThen x f).history due held m = _
  cases ran : x.runUnder due m <;> simp only [history, ran]

end Engine

/-! ### Observers -/

namespace Tracer

/-- Whether the observer keeps notices too, which are no events. -/
def keepsNotices : Tracer → Bool
  | log _ => true
  | _ => false

/-- What an observer has kept after some events. -/
def observeAll (t : Tracer) (events : List Event) : Tracer := events.foldl observe t

variable {t : Tracer}

theorem note_eq (plain : t.keepsNotices = false) (n : Notice) : t.note n = t := by
  cases t with
  | log entries => cases plain
  | _ => rfl

theorem keepsNotices_observe (t : Tracer) (e : Event) : (t.observe e).keepsNotices = t.keepsNotices := by
  cases t with
  | recording limit events =>
    simp only [observe]
    split
    · split <;> rfl
    · rfl
  | _ => rfl

theorem keepsNotices_observeAll (t : Tracer) (events : List Event) :
    (t.observeAll events).keepsNotices = t.keepsNotices := by
  induction events generalizing t with
  | nil => rfl
  | cons e later ih => exact (ih (t.observe e)).trans (t.keepsNotices_observe e)

theorem observeAll_append (t : Tracer) (events later : List Event) :
    t.observeAll (events ++ later) = (t.observeAll events).observeAll later :=
  List.foldl_append

end Tracer

/-- The machine with another observer. -/
def Machine.watchedBy (m : Machine) (t : Tracer) : Machine := { m with tracer := t }

/-- How a computation ends if the machine has another observer then. -/
def Outcome.watchedBy {α : Type} (t : Tracer) : Outcome α → Outcome α
  | .ok a m => .ok a (m.watchedBy t)
  | .error e m => .error e (m.watchedBy t)

namespace Machine

variable {m : Machine} {t : Tracer}

theorem heap_watchedBy (m : Machine) (t : Tracer) : (m.watchedBy t).heap = m.heap := rfl

theorem globals_watchedBy (m : Machine) (t : Tracer) : (m.watchedBy t).globals = m.globals := rfl

theorem pushRoots_watchedBy (m : Machine) (t : Tracer) (nodes : List Node) :
    (m.watchedBy t).pushRoots nodes = (m.pushRoots nodes).watchedBy t := rfl

theorem startRequest_watchedBy (m : Machine) (t : Tracer) (printer : Printer) :
    (m.watchedBy t).startRequest printer = (m.startRequest printer).watchedBy t := rfl

theorem observe_watchedBy (m : Machine) (t : Tracer) (e : Nat → Event) :
    (m.watchedBy t).observe e = (m.observe e).watchedBy (t.observe (e m.depth)) := rfl

theorem note_watchedBy (m : Machine) (plain : t.keepsNotices = false) (n : Notice) :
    (m.watchedBy t).note n = (m.note n).watchedBy t :=
  congrArg m.watchedBy (Tracer.note_eq plain n)

theorem collectWith_watchedBy (m : Machine) (plain : t.keepsNotices = false) (nodes : List Node) :
    (m.watchedBy t).collectWith nodes = (m.collectWith nodes).watchedBy t :=
  congrArg (m.collectWith nodes).watchedBy (Tracer.note_eq plain _)

theorem enter_watchedBy (m : Machine) (t : Tracer) : (m.watchedBy t).enter = m.enter.map fun m => m.watchedBy t := by
  simp only [enter, watchedBy]
  cases m.heap.budget.checkDepth m.depth <;> rfl

theorem depth_eq_of_nesting {m' inner : Machine} (same : m'.nesting = inner.nesting) : m'.depth = inner.depth :=
  congrArg Prod.fst same

end Machine

namespace Op

variable {α : Type} {t : Tracer}

theorem onHeap_watchedBy (f : Heap → Except Exhaustion α × Heap) (m : Machine) (t : Tracer) :
    onHeap f (m.watchedBy t) = (onHeap f m).watchedBy t := by
  simp only [onHeap, Machine.watchedBy]
  split <;> rfl

/-- An operation does not depend on who observes it; the observer is told what it reports. -/
theorem perform_watchedBy (due : Schedule) (o : Op α) (m : Machine) (plain : t.keepsNotices = false) :
    o.perform due (m.watchedBy t) = (o.perform due m).watchedBy (t.observeAll (o.reports m)) := by
  cases o with
  | load r =>
    show perform due (.load r) (m.watchedBy t) = (perform due (.load r) m).watchedBy t
    simp only [perform]
    rw [Machine.heap_watchedBy]
    split <;> rfl
  | loadScope s =>
    show perform due (.loadScope s) (m.watchedBy t) = (perform due (.loadScope s) m).watchedBy t
    simp only [perform]
    rw [Machine.heap_watchedBy]
    split <;> rfl
  | change r c =>
    show perform due (.change r c) (m.watchedBy t) = (perform due (.change r c) m).watchedBy t
    simp only [perform]
    rw [Machine.heap_watchedBy]
    split <;> rfl
  | store o => exact onHeap_watchedBy (fun h => h.allocate o) m t
  | storeType name parents => exact onHeap_watchedBy (fun h => h.allocateType name parents) m t
  | openScope outer => exact onHeap_watchedBy (fun h => h.allocateScope ⟨.empty, some outer⟩) m t
  | tick => exact onHeap_watchedBy Heap.tick m t
  | note n => exact congrArg (EStateM.Result.ok ()) (m.note_watchedBy plain n)
  | collectIfDue nodes =>
    show perform due (.collectIfDue nodes) (m.watchedBy t) = (perform due (.collectIfDue nodes) m).watchedBy t
    simp only [perform]
    rw [Machine.heap_watchedBy]
    split
    · exact congrArg (EStateM.Result.ok ()) (m.collectWith_watchedBy plain _)
    · rfl
  | print s =>
    show printTo s (m.watchedBy t) = (printTo s m).watchedBy t
    simp only [printTo, Machine.watchedBy]
    split <;> rfl
  | _ => rfl

end Op

namespace Engine

variable {α : Type} {t : Tracer}

/-- A computation does not depend on who observes it; the observer is told what it reports, event by event. -/
theorem runUnder_watchedBy (due : Schedule) (x : Engine α) (m : Machine) (plain : t.keepsNotices = false) :
    x.runUnder due (m.watchedBy t) = (x.runUnder due m).watchedBy (t.observeAll (x.reports due m)) := by
  -- one case for each node of the tree; what precedes a part decides which observer the part starts with
  induction x generalizing m t with
  | give a => rfl
  | throw e => rfl
  | act o => exact o.perform_watchedBy due m plain
  | andThen x f ihx ihf =>
    simp only [runUnder, reports, ihx m plain]
    cases x.runUnder due m with
    | ok a m' =>
      rw [Tracer.observeAll_append]
      exact ihf a m' ((t.keepsNotices_observeAll _).trans plain)
    | error e m' =>
      rw [List.append_nil]
      rfl
  | keeping nodes x ih =>
    have inner := ih (m.pushRoots nodes) plain
    simp only [runUnder, reports]
    rw [m.pushRoots_watchedBy, inner]
    cases x.runUnder due (m.pushRoots nodes) <;> rfl
  | holding nodes x ih => exact ih m plain
  | executing site x ih =>
    simp only [runUnder, reports, ih m plain]
    cases x.runUnder due m <;> rfl
  | calling name args x ih =>
    simp only [runUnder, reports, Machine.reportsInside, m.enter_watchedBy t]
    cases m.enter with
    | error e => rfl
    | ok inner =>
      have body := ih (inner.observe (.call name)) ((t.keepsNotices_observe (.call name inner.depth)).trans plain)
      have same := x.runUnder_nesting due (inner.observe (.call name))
      simp only [Except.map, inner.observe_watchedBy, body]
      -- the call is left at the depth at which it was entered
      cases ran : x.runUnder due (inner.observe (.call name)) with
      | ok a m' | error e m' =>
        rw [ran] at same
        have depth : m'.depth = inner.depth := Machine.depth_eq_of_nesting same
        simp only [Tracer.observeAll, List.foldl_cons, List.foldl_append, List.foldl_nil, ← depth]
        rfl
  | nested x ih =>
    simp only [runUnder, reports, Machine.reportsInside, m.enter_watchedBy t]
    cases m.enter with
    | error e => rfl
    | ok inner =>
      simp only [Except.map, ih inner plain]
      cases x.runUnder due inner <;> rfl
  | inSection phase resumed x ih =>
    simp only [runUnder, reports, Machine.reportsInside, m.enter_watchedBy t]
    cases entered : m.enter with
    | error e => rfl
    | ok inner =>
      have same := Machine.nesting_leave entered (x.runUnder_nesting due inner)
      simp only [Except.map, ih inner plain, Tracer.observeAll_append]
      cases ran : x.runUnder due inner with
      | ok a m' => rfl
      | error e m' =>
        rw [ran] at same
        have depth : m'.leave.depth = m.depth := Machine.depth_eq_of_nesting same
        rw [← depth]
        cases e <;> rfl
  | resuming generator name x ih =>
    simp only [runUnder, reports, Machine.reportsInside, m.enter_watchedBy t]
    cases m.enter with
    | error e => rfl
    | ok inner =>
      have body := ih (inner.observe .resume) ((t.keepsNotices_observe (.resume inner.depth)).trans plain)
      simp only [Except.map, inner.observe_watchedBy, body]
      cases x.runUnder due (inner.observe .resume) with
      | ok a m' => rfl
      | error e m' => cases e <;> rfl
  | catching x ih =>
    simp only [runUnder, reports, ih m plain]
    cases x.runUnder due m with
    | ok a m' => rfl
    | error e m' => cases e <;> rfl
  | forgiving x ih =>
    simp only [runUnder, reports, ih m plain]
    cases x.runUnder due m with
    | ok a m' => rfl
    | error e m' =>
      simp only [Outcome.watchedBy]
      split <;> rfl

end Engine

/-! ### Sessions -/

/-- The events of a request. -/
def Request.reports (r : Request) (m : Machine) (printer : Printer) : List Event :=
  (r.computation m.globals).reports Heap.collectionDue (m.startRequest printer)

/-- The events of an action; only a request reports any. -/
def HostAction.reports (m : Machine) : HostAction → List Event
  | request printer r => r.reports m printer
  | _ => []

/-- The events of a session. -/
def Machine.sessionReports (m : Machine) : List HostAction → List Event
  | [] => []
  | a :: later => a.reports m ++ (a.perform m).sessionReports later

namespace Machine

variable {t : Tracer}

/-- A request is answered in the same way whoever observes it; the observer is told what it reports. -/
theorem serve_watchedBy (m : Machine) (plain : t.keepsNotices = false) (printer : Printer) (r : Request) :
    (m.watchedBy t).serve printer r =
      ((m.serve printer r).1, (m.serve printer r).2.watchedBy (t.observeAll (r.reports m printer))) := by
  have ran := (r.computation m.globals).runUnder_watchedBy Heap.collectionDue (m.startRequest printer) plain
  have still := (t.keepsNotices_observeAll (r.reports m printer)).trans plain
  simp only [Machine.serve, Machine.request, Engine.run]
  rw [startRequest_watchedBy, globals_watchedBy, ran]
  cases (r.computation m.globals).runUnder Heap.collectionDue (m.startRequest printer) with
  | ok a m' => rfl
  | error e m' =>
    -- what is told of a failure does not depend on the observer either, and the observer does not keep it
    show (Except.error (m'.failureOf e),
        (m'.watchedBy (t.observeAll (r.reports m printer))).noteFailure (m'.failureOf e)) =
      (Except.error (m'.failureOf e),
        (m'.noteFailure (m'.failureOf e)).watchedBy (t.observeAll (r.reports m printer)))
    cases m'.failureOf e with
    | reported report => exact congrArg (fun t => (_, m'.watchedBy t)) (Tracer.note_eq still _)
    | halted => rfl

theorem changeNamed_watchedBy (m : Machine) (t : Tracer) (name : String) (heap? : Option Heap) :
    (m.watchedBy t).changeNamed name heap? = (m.changeNamed name heap?).map fun m => m.watchedBy t := by
  cases heap? <;> rfl

theorem perform_watchedBy (m : Machine) (plain : t.keepsNotices = false) (a : HostAction) :
    a.perform (m.watchedBy t) = (a.perform m).watchedBy (t.observeAll (a.reports m)) := by
  cases a with
  | request printer r => exact congrArg Prod.snd (m.serve_watchedBy plain printer r)
  | store s =>
    show ((m.watchedBy t).store s).2 = (m.store s).2.watchedBy t
    simp only [Machine.store, watchedBy]
    split <;> rfl
  | define name value => rfl
  | assign name value =>
    show HostAction.perform (m.watchedBy t) (.assign name value) = (HostAction.perform m (.assign name value)).watchedBy t
    simp only [HostAction.perform, setGlobal, changeNamed_watchedBy, heap_watchedBy, globals_watchedBy]
    cases m.changeNamed name (m.heap.assign? m.globals name value) <;> rfl
  | undefine name =>
    show HostAction.perform (m.watchedBy t) (.undefine name) = (HostAction.perform m (.undefine name)).watchedBy t
    simp only [HostAction.perform, deleteGlobal, changeNamed_watchedBy, heap_watchedBy, globals_watchedBy]
    cases m.changeNamed name (m.heap.undefine? m.globals name) <;> rfl
  | collect extra => exact congrArg (m.collect extra).2.watchedBy (Tracer.note_eq plain _)

/-- A session goes the same way whoever observes it; the observer is told what its requests report. -/
theorem afterSession_watchedBy (m : Machine) (plain : t.keepsNotices = false) (actions : List HostAction) :
    (m.watchedBy t).afterSession actions =
      (m.afterSession actions).watchedBy (t.observeAll (m.sessionReports actions)) := by
  induction actions generalizing m t with
  | nil => rfl
  | cons a later ih =>
    show (a.perform (m.watchedBy t)).afterSession later = ((a.perform m).afterSession later).watchedBy _
    rw [m.perform_watchedBy plain a, ih _ ((t.keepsNotices_observeAll _).trans plain), sessionReports,
      Tracer.observeAll_append]

end Machine

/-! ### Records -/

/-- A recording of events that keeps only so many of them as its limit allows. -/
def Tracer.recorded (limit : Option Nat) (events : List Event) : Tracer :=
  .recording limit (limit.elim events events.take).toArray

namespace Tracer

theorem recorded_nil (limit : Option Nat) : recorded limit [] = recording limit #[] := by
  cases limit with
  | none => rfl
  | some n => rw [recorded, Option.elim_some, List.take_nil]

/-- A recording keeps an event if there is still room for it. -/
theorem observe_recorded (limit : Option Nat) (events : List Event) (e : Event) :
    (recorded limit events).observe e = recorded limit (events ++ [e]) := by
  cases limit with
  | none => simp [recorded, observe]
  | some n =>
    simp only [recorded, observe, Option.elim_some, List.size_toArray, List.length_take]
    split
    · rename_i room
      have all : events.length < n := by omega
      rw [List.take_of_length_le (Nat.le_of_lt all), List.take_of_length_le (by simpa using Nat.succ_le_of_lt all)]
      simp
    · rename_i full
      rw [List.take_append_of_le_length (by omega)]

theorem observeAll_recorded (limit : Option Nat) (events later : List Event) :
    (recorded limit events).observeAll later = recorded limit (events ++ later) := by
  induction later generalizing events with
  | nil => rw [List.append_nil]; rfl
  | cons e later ih =>
    show ((recorded limit events).observe e).observeAll later = _
    rw [observe_recorded, ih, List.append_assoc, List.singleton_append]

end Tracer

/-- The observer of a machine records without a limit, and these are the events so far. -/
def Machine.Records (m : Machine) (events : List Event) : Prop :=
  m.tracer = .recording none events.toArray

namespace Machine

variable {m : Machine} {events : List Event}

theorem Records.watchedBy_eq (records : m.Records events) : m.watchedBy (.recorded none events) = m := by
  obtain ⟨heap, builtins, globals, depth, roots, printer, tracer⟩ := m
  cases records
  rfl

/-- A request adds to a record what it reports. -/
theorem Records.serve (records : m.Records events) (printer : Printer) (r : Request) :
    (m.serve printer r).2.Records (events ++ r.reports m printer) := by
  have served := m.serve_watchedBy (t := .recorded none events) rfl printer r
  rw [records.watchedBy_eq, Tracer.observeAll_recorded] at served
  rw [served]
  rfl

/-- A session adds to a record what its requests report. -/
theorem Records.afterSession (records : m.Records events) (actions : List HostAction) :
    (m.afterSession actions).Records (events ++ m.sessionReports actions) := by
  have passed := m.afterSession_watchedBy (t := .recorded none events) rfl actions
  rw [records.watchedBy_eq, Tracer.observeAll_recorded] at passed
  rw [passed]
  rfl

/-- The observer of a machine at its start makes no difference to it. -/
theorem boot_watchedBy (budget : Budget) {t : Tracer} (plain : t.keepsNotices = false) :
    boot budget t = (boot budget .silent).watchedBy t :=
  congrArg (boot budget .silent).watchedBy (Tracer.note_eq plain _)

theorem records_boot (budget : Budget) : (boot budget (.recording none #[])).Records [] := rfl

end Machine

end ObjectMachine
