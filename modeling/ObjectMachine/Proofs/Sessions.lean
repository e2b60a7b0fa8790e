import ObjectMachine.Proofs.History
import ObjectMachine.Proofs.Storage
/-!
Sessions: what a host does with a machine, one action after another, and what each request goes through.
A property of the heap that every moment keeps, and that the host's own actions keep, holds throughout
a session.
-/
namespace ObjectMachine

/-! ### Invariants of a computation -/

namespace Moment

/-- The machine at a moment. -/
def machine : Moment → Machine
  | acts _ _ m | throws _ m | enters m | refuses m => m
  | opens _ _ m | bars _ _ _ m | shuts _ m _ => m
  | forgiven moment => moment.machine

/-- The heap that a moment leaves behind. -/
def heapAfter (due : Schedule) : Moment → Heap
  | acts o _ m => (o.perform due m).machine.heap
  | forgiven moment => moment.heapAfter due
  | moment => moment.machine.heap

/-- A moment keeps a property of the heap. -/
def Keeps (due : Schedule) (I : Heap → Prop) (moment : Moment) : Prop :=
  I moment.machine.heap → I (moment.heapAfter due)

end Moment

/-- A property of the heap survives the end of a generator. -/
def Heap.SurvivesEnds (I : Heap → Prop) : Prop :=
  ∀ h r, I h → I (h.modify r (Change.generator .finished).apply)

namespace Machine

@[simp] theorem heap_observe (m : Machine) (e : Nat → Event) : (m.observe e).heap = m.heap := rfl

@[simp] theorem heap_note (m : Machine) (n : Notice) : (m.note n).heap = m.heap := rfl

@[simp] theorem heap_leave (m : Machine) : m.leave.heap = m.heap := rfl

@[simp] theorem heap_pushRoots (m : Machine) (nodes : List Node) :
    (m.pushRoots nodes).heap = m.heap := rfl

@[simp] theorem heap_truncateRoots (m : Machine) (count : Nat) :
    (m.truncateRoots count).heap = m.heap := rfl

@[simp] theorem heap_withHeap (m : Machine) (f : Heap → Heap) : (m.withHeap f).heap = f m.heap := rfl

@[simp] theorem heap_startRequest (m : Machine) (printer : Printer) :
    (m.startRequest printer).heap = m.heap := rfl

theorem heap_of_enter {m inner : Machine} (entered : m.enter = .ok inner) : inner.heap = m.heap := by
  simp only [enter] at entered
  split at entered <;> cases entered
  rfl

theorem heap_noteFailure (m : Machine) (failure : Failure) :
    (m.noteFailure failure).heap = m.heap := by
  cases failure <;> rfl

/-- A property of the heap holds throughout a nested call if it holds throughout what is called. -/
theorem invariant_historyInside {I : Heap → Prop} {m : Machine} {history : Machine → List Moment}
    (start : I m.heap)
    (inside : ∀ inner, m.enter = .ok inner → ∀ moment ∈ history inner, I moment.machine.heap)
    (moment : Moment) (mem : moment ∈ m.historyInside history) : I moment.machine.heap := by
  simp only [historyInside] at mem
  cases entered : m.enter with
  | error e =>
    simp only [entered, List.mem_singleton] at mem
    exact mem ▸ start
  | ok inner =>
    simp only [entered, List.mem_cons] at mem
    rcases mem with rfl | mem
    · exact start
    · exact inside inner entered moment mem

/-- A nested call goes through everything that is called. -/
theorem mem_historyInside {m inner : Machine} {history : Machine → List Moment}
    (entered : m.enter = .ok inner) {moment : Moment} (mem : moment ∈ history inner) :
    moment ∈ m.historyInside history := by
  simp only [historyInside, entered]
  exact List.mem_cons_of_mem _ mem

end Machine

namespace Engine

variable {α : Type} {due : Schedule} {I : Heap → Prop}

/-! ### What is around a computation -/

section
variable {x : Engine α} {m m' inner : Machine} {a : α}

theorem heap_runUnder_keeping (due : Schedule) (nodes : List Node) (x : Engine α) (m : Machine) :
    ((keeping nodes x).runUnder due m).machine.heap = (x.runUnder due (m.pushRoots nodes)).machine.heap := by
  simp only [runUnder]
  cases x.runUnder due (m.pushRoots nodes) <;> rfl

theorem heap_runUnder_executing (due : Schedule) (site : Site) (x : Engine α) (m : Machine) :
    ((executing site x).runUnder due m).machine.heap = (x.runUnder due m).machine.heap := by
  simp only [runUnder]
  cases x.runUnder due m <;> rfl

theorem heap_runUnder_catching (due : Schedule) (x : Engine α) (m : Machine) :
    (x.catching.runUnder due m).machine.heap = (x.runUnder due m).machine.heap := by
  simp only [runUnder]
  cases x.runUnder due m with
  | ok a m' => rfl
  | error e m' => cases e <;> rfl

theorem heap_runUnder_forgiving (due : Schedule) (x : Engine α) (m : Machine) :
    (x.forgiving.runUnder due m).machine.heap = (x.runUnder due m).machine.heap := by
  simp only [runUnder]
  cases x.runUnder due m with
  | ok a m' => rfl
  | error e m' => cases e <;> rfl

theorem heap_runUnder_calling (due : Schedule) (name : String) (args : List Ref) (x : Engine α)
    (entered : m.enter = .ok inner) : ((calling name args x).runUnder due m).machine.heap =
      (x.runUnder due (inner.observe (.call name))).machine.heap := by
  simp only [runUnder, entered]
  cases x.runUnder due (inner.observe (.call name)) <;> rfl

theorem heap_runUnder_nested (due : Schedule) (x : Engine α) (entered : m.enter = .ok inner) :
    (x.nested.runUnder due m).machine.heap = (x.runUnder due inner).machine.heap := by
  simp only [runUnder, entered]
  cases x.runUnder due inner <;> rfl

/-- The value is that of the computation. -/
theorem ok_of_keeping {nodes : List Node} (ran : (keeping nodes x).runUnder due m = .ok a m') :
    ∃ m₁, x.runUnder due (m.pushRoots nodes) = .ok a m₁ ∧ m'.heap = m₁.heap := by
  simp only [runUnder] at ran
  cases inside : x.runUnder due (m.pushRoots nodes) with
  | ok b m₁ =>
    rw [inside] at ran
    cases ran
    exact ⟨m₁, rfl, rfl⟩
  | error e m₁ =>
    rw [inside] at ran
    cases ran

theorem ok_of_executing {site : Site} (ran : (executing site x).runUnder due m = .ok a m') :
    x.runUnder due m = .ok a m' := by
  simp only [runUnder] at ran
  cases inside : x.runUnder due m with
  | ok b m₁ =>
    rw [inside] at ran
    exact ran
  | error e m₁ =>
    rw [inside] at ran
    cases ran

theorem ok_of_calling {name : String} {args : List Ref} (entered : m.enter = .ok inner)
    (ran : (calling name args x).runUnder due m = .ok a m') :
    ∃ m₁, x.runUnder due (inner.observe (.call name)) = .ok a m₁ ∧ m'.heap = m₁.heap := by
  simp only [runUnder, entered] at ran
  cases inside : x.runUnder due (inner.observe (.call name)) with
  | ok b m₁ =>
    rw [inside] at ran
    cases ran
    exact ⟨m₁, rfl, rfl⟩
  | error e m₁ =>
    rw [inside] at ran
    cases ran

theorem ok_of_nested (entered : m.enter = .ok inner) (ran : x.nested.runUnder due m = .ok a m') :
    ∃ m₁, x.runUnder due inner = .ok a m₁ ∧ m'.heap = m₁.heap := by
  simp only [runUnder, entered] at ran
  cases inside : x.runUnder due inner with
  | ok b m₁ =>
    rw [inside] at ran
    cases ran
    exact ⟨m₁, rfl, rfl⟩
  | error e m₁ =>
    rw [inside] at ran
    cases ran

end

/-! ### What holds throughout -/

/-- A property that holds at the start and that every moment keeps holds at the end. -/
theorem invariant_runUnder (ends : Heap.SurvivesEnds I) (x : Engine α) {held : List Node} {m : Machine}
    (start : I m.heap) (keeps : ∀ moment ∈ x.history due held m, moment.Keeps due I) :
    I (x.runUnder due m).machine.heap := by
  induction x generalizing held m with
  | give a => exact start
  | throw e => exact start
  | act o => exact keeps _ List.mem_cons_self start
  | andThen x f ihx ihf =>
    simp only [history, List.mem_append] at keeps
    have hx := ihx start fun moment mem => keeps moment (.inl mem)
    simp only [runUnder]
    cases ran : x.runUnder due m with
    | ok a m' =>
      simp only [ran] at hx keeps
      exact ihf a hx fun moment mem => keeps moment (.inr mem)
    | error e m' =>
      rw [ran] at hx
      exact hx
  | keeping nodes x ih =>
    rw [heap_runUnder_keeping]
    exact ih (m := m.pushRoots nodes) start keeps
  | holding nodes x ih => exact ih start keeps
  | executing site x ih =>
    rw [heap_runUnder_executing]
    exact ih start keeps
  | calling name args x ih =>
    cases entered : m.enter with
    | error e => simpa only [runUnder, entered, Outcome.machine] using start
    | ok inner =>
      have begun : I (inner.observe (.call name)).heap := Machine.heap_of_enter entered ▸ start
      rw [heap_runUnder_calling due name args x entered]
      exact ih begun fun moment mem => keeps moment (Machine.mem_historyInside entered mem)
  | nested x ih =>
    cases entered : m.enter with
    | error e => simpa only [runUnder, entered, Outcome.machine] using start
    | ok inner =>
      have begun : I inner.heap := Machine.heap_of_enter entered ▸ start
      rw [heap_runUnder_nested due x entered]
      exact ih begun fun moment mem => keeps moment (Machine.mem_historyInside entered mem)
  | inSection phase resumed x ih =>
    cases entered : m.enter with
    | error e => simpa only [runUnder, entered, Outcome.machine] using start
    | ok inner =>
      have begun : I inner.heap := Machine.heap_of_enter entered ▸ start
      simp only [history, entered, List.mem_cons, List.mem_append] at keeps
      have hx := ih begun fun moment mem => keeps moment (.inr (.inl mem))
      simp only [runUnder, entered]
      cases ran : x.runUnder due inner with
      | ok a m' => rw [ran] at hx; exact hx
      | error e m' => rw [ran] at hx; cases e <;> exact hx
  | resuming generator name x ih =>
    cases entered : m.enter with
    | error e => simpa only [runUnder, entered, Outcome.machine] using start
    | ok inner =>
      have begun : I (inner.observe .resume).heap := Machine.heap_of_enter entered ▸ start
      have hx := ih begun fun moment mem => keeps moment (Machine.mem_historyInside entered mem)
      simp only [runUnder, entered]
      cases ran : x.runUnder due (inner.observe .resume) with
      | ok a m' => rw [ran] at hx; exact hx
      | error e m' =>
        rw [ran] at hx
        cases e with
        | raised error => exact hx
        | _ => exact ends _ _ hx
  | catching x ih =>
    rw [heap_runUnder_catching]
    exact ih start keeps
  | forgiving x ih =>
    rw [heap_runUnder_forgiving]
    exact ih start fun moment mem => keeps (.forgiven moment) (List.mem_map_of_mem mem)

/-- A property that holds at the start and that every moment keeps holds at every moment. -/
theorem invariant_history (ends : Heap.SurvivesEnds I) (x : Engine α) {held : List Node} {m : Machine}
    (start : I m.heap) (keeps : ∀ moment ∈ x.history due held m, moment.Keeps due I)
    (moment : Moment) (mem : moment ∈ x.history due held m) : I moment.machine.heap := by
  induction x generalizing held m moment with
  | give a => cases mem
  | throw e => exact List.mem_singleton.mp mem ▸ start
  | act o => exact List.mem_singleton.mp mem ▸ start
  | andThen x f ihx ihf =>
    simp only [history, List.mem_append] at mem keeps
    rcases mem with mem | mem
    · exact ihx start (fun moment mem => keeps moment (.inl mem)) moment mem
    · have last := x.invariant_runUnder ends start fun moment mem => keeps moment (.inl mem)
      cases ran : x.runUnder due m with
      | error e m' => simp [ran] at mem
      | ok a m' =>
        simp only [ran] at mem keeps last
        exact ihf a last (fun moment mem => keeps moment (.inr mem)) moment mem
  | keeping nodes x ih => exact ih (m := m.pushRoots nodes) start keeps moment mem
  | holding nodes x ih => exact ih start keeps moment mem
  | executing site x ih => exact ih start keeps moment mem
  | calling name args x ih =>
    refine Machine.invariant_historyInside start ?_ moment mem
    intro inner entered moment mem
    exact ih (m := inner.observe (.call name)) (Machine.heap_of_enter entered ▸ start)
      (fun moment mem => keeps moment (Machine.mem_historyInside entered mem)) moment mem
  | nested x ih =>
    refine Machine.invariant_historyInside start ?_ moment mem
    intro inner entered moment mem
    exact ih (Machine.heap_of_enter entered ▸ start)
      (fun moment mem => keeps moment (Machine.mem_historyInside entered mem)) moment mem
  | inSection phase resumed x ih =>
    simp only [history] at mem keeps
    cases entered : m.enter with
    | error e =>
      simp only [entered, List.mem_singleton] at mem
      exact mem ▸ start
    | ok inner =>
      simp only [entered, List.mem_cons, List.mem_append, List.not_mem_nil, or_false] at mem keeps
      rcases mem with rfl | mem | rfl
      · exact start
      · exact ih (Machine.heap_of_enter entered ▸ start)
          (fun moment mem => keeps moment (.inr (.inl mem))) moment mem
      · exact start
  | resuming generator name x ih =>
    refine Machine.invariant_historyInside start ?_ moment mem
    intro inner entered moment mem
    exact ih (m := inner.observe .resume) (Machine.heap_of_enter entered ▸ start)
      (fun moment mem => keeps moment (Machine.mem_historyInside entered mem)) moment mem
  | catching x ih => exact ih start keeps moment mem
  | forgiving x ih =>
    obtain ⟨inner, innerMem, rfl⟩ := List.mem_map.mp mem
    exact ih start (fun moment mem => keeps (.forgiven moment) (List.mem_map_of_mem mem)) inner
      innerMem

end Engine

/-! ### Actions of the host -/

/-- What a host does with a machine. -/
inductive HostAction where
  /-- Makes a request, with a printer for its output. -/
  | request (printer : Printer) (r : Request)
  /-- Stores a snapshot. -/
  | store (s : Snapshot)
  /-- Defines a variable of the outer scope. -/
  | define (name : String) (value : Ref)
  /-- Assigns to a variable as the outer scope sees it. -/
  | assign (name : String) (value : Ref)
  /-- Removes a variable of the outer scope. -/
  | undefine (name : String)
  /-- Collects garbage, keeping some values. -/
  | collect (extra : List Ref)

namespace HostAction

/-- The machine after an action. -/
def perform (m : Machine) : HostAction → Machine
  | request printer r => (m.serve printer r).2
  | store s => (m.store s).2
  | define name value => m.defineGlobal name value
  | assign name value =>
    match m.setGlobal name value with
    | .ok m => m
    | .error _ => m
  | undefine name =>
    match m.deleteGlobal name with
    | .ok m => m
    | .error _ => m
  | collect extra => (m.collect extra).2

/-- What a machine goes through during an action; only a request runs code. -/
def history (m : Machine) : HostAction → List Moment
  | request printer r => r.history m printer
  | _ => []

end HostAction

namespace Machine

/-- The machine after a session. -/
def afterSession (m : Machine) (actions : List HostAction) : Machine :=
  actions.foldl HostAction.perform m

/-- What a machine goes through during a session. -/
def sessionHistory (m : Machine) : List HostAction → List Moment
  | [] => []
  | a :: later => a.history m ++ (a.perform m).sessionHistory later

/-- The heaps of a machine throughout a session: between the actions, and before and after each
moment. -/
def sessionHeaps (m : Machine) : List HostAction → List Heap
  | [] => [m.heap]
  | a :: later =>
    m.heap :: ((a.history m).flatMap fun moment =>
      [moment.machine.heap, moment.heapAfter Heap.collectionDue]) ++ (a.perform m).sessionHeaps later

end Machine

namespace Payload

/-- Whether a host can store such data. -/
def isStorable : Payload → Bool
  | int _ | num _ | str _ | list _ | map _ => true
  | _ => false

end Payload

/-- A property of the heap survives the storing of data by a host. -/
def Heap.SurvivesStores (I : Heap → Prop) : Prop :=
  ∀ h p, Payload.isStorable p → I h → I (h.allocate (.ofPayload p none)).2

/-- A property of the heap survives what a host does without running code. -/
structure Heap.SurvivesHost (I : Heap → Prop) : Prop where
  /-- Storing data. -/
  store : SurvivesStores I
  /-- Changing variables. -/
  vars : ∀ h h', h'.objects = h.objects → I h → I h'
  /-- Collecting garbage. -/
  collect : ∀ h nodes, I h → I (h.collect nodes).2

namespace Snapshot

variable {I : Heap → Prop}

/-- The heap as the storing of a snapshot leaves it. -/
def heapOf {α : Type} : EStateM.Result StoreFault Heap α → Heap
  | .ok _ h => h
  | .error _ h => h

theorem invariant_bind {α β : Type} {x : EStateM StoreFault Heap α}
    {f : α → EStateM StoreFault Heap β} (hx : ∀ h, I h → I (heapOf (x h)))
    (hf : ∀ a h, I h → I (heapOf (f a h))) (h : Heap) (start : I h) : I (heapOf ((x >>= f) h)) := by
  have first := hx h start
  simp only [bind, EStateM.bind]
  split
  · rename_i a h' ran
    rw [ran] at first
    exact hf a h' first
  · rename_i e h' ran
    rw [ran] at first
    exact first

theorem invariant_storePayload (stores : Heap.SurvivesStores I) {p : Payload} (storable : p.isStorable)
    (h : Heap) (start : I h) : I (heapOf (storePayload p h)) := by
  have stored := stores h p storable start
  simp only [storePayload]
  split <;> rename_i allocated <;> rw [allocated] at stored <;> exact stored

mutual

theorem invariant_store (stores : Heap.SurvivesStores I) (s : Snapshot) (h : Heap) (start : I h) :
    I (heapOf (s.store h)) := by
  cases s with
  | null => exact start
  | bool b => exact start
  | int i => exact invariant_storePayload stores rfl h start
  | num x => exact invariant_storePayload stores rfl h start
  | str s => exact invariant_storePayload stores rfl h start
  | list items =>
    exact invariant_bind (invariant_storeItems stores items)
      (fun refs => invariant_storePayload stores rfl) h start
  | map entries =>
    exact invariant_bind (invariant_storeEntries stores entries .empty)
      (fun stored => invariant_storePayload stores rfl) h start
  | range start' stop step => exact start
  | type name => exact start
  | function name => exact start
  | error typeName message => exact start
  | plain typeName members => exact start
  | iterator => exact start
  | generator name => exact start
  | cycle placeholder => exact start

theorem invariant_storeItems (stores : Heap.SurvivesStores I) (items : List Snapshot) (h : Heap)
    (start : I h) : I (heapOf (storeItems items h)) := by
  cases items with
  | nil => exact start
  | cons v later =>
    refine invariant_bind (invariant_store stores v) ?_ h start
    intro r
    refine invariant_bind (invariant_storeItems stores later) ?_
    exact fun refs h start => start

theorem invariant_storeEntries (stores : Heap.SurvivesStores I) (entries : List (Snapshot × Snapshot))
    (stored : Entries) (h : Heap) (start : I h) : I (heapOf (storeEntries stored entries h)) := by
  match entries with
  | [] => exact start
  | (key, v) :: later =>
    exact invariant_bind (invariant_store stores key)
      (fun keyObject => invariant_bind (invariant_store stores v) fun value h start =>
        invariant_storeEntries stores later _ h start) h start

end

end Snapshot

namespace Machine

variable {I : Heap → Prop}

theorem heap_serve (m : Machine) (printer : Printer) (r : Request) :
    (m.serve printer r).2.heap =
      ((r.computation m.globals).run (m.startRequest printer)).machine.heap := by
  simp only [serve, request]
  cases (r.computation m.globals).run (m.startRequest printer) with
  | ok a m' => rfl
  | error e m' => exact m'.heap_noteFailure _

theorem heap_store (m : Machine) (s : Snapshot) :
    (m.store s).2.heap = Snapshot.heapOf (s.store m.heap) := by
  obtain ⟨heap, builtins, globals, depth, roots, printer, tracer⟩ := m
  simp only [store]
  cases s.store heap <;> rfl

/-- A property that survives what the host does and that every moment of a request keeps holds after
the action. -/
theorem invariant_perform (survives : Heap.SurvivesHost I) (ends : Heap.SurvivesEnds I) (m : Machine)
    (a : HostAction) (start : I m.heap)
    (keeps : ∀ moment ∈ a.history m, moment.Keeps Heap.collectionDue I) : I (a.perform m).heap := by
  cases a with
  | request printer r =>
    rw [HostAction.perform, heap_serve]
    exact (r.computation m.globals).invariant_runUnder ends start keeps
  | store s =>
    rw [HostAction.perform, heap_store]
    exact Snapshot.invariant_store survives.store s m.heap start
  | define name value => exact survives.vars _ _ (m.heap.objects_define _ _ _) start
  | assign name value =>
    simp only [HostAction.perform, setGlobal, changeNamed]
    cases changed : m.heap.assign? m.globals name value with
    | none => exact start
    | some heap =>
      have same := m.heap.objects_assign m.globals name value
      rw [changed] at same
      exact survives.vars _ _ same start
  | undefine name =>
    simp only [HostAction.perform, deleteGlobal, changeNamed]
    cases changed : m.heap.undefine? m.globals name with
    | none => exact start
    | some heap =>
      have same := m.heap.objects_undefine m.globals name
      rw [changed] at same
      exact survives.vars _ _ same start
  | collect extra => exact survives.collect _ _ start

/-- The heap that a moment of a session leaves behind is one of the session. -/
theorem heapAfter_mem_sessionHeaps {m : Machine} {actions : List HostAction} {moment : Moment}
    (mem : moment ∈ m.sessionHistory actions) :
    moment.heapAfter Heap.collectionDue ∈ m.sessionHeaps actions := by
  induction actions generalizing m with
  | nil => cases mem
  | cons a later ih =>
    simp only [sessionHistory, sessionHeaps, List.mem_append, List.mem_cons, List.mem_flatMap] at mem ⊢
    rcases mem with mem | mem
    · exact .inl (.inr ⟨moment, mem, .inr (.inl rfl)⟩)
    · exact .inr (ih mem)

/-- The last heap of a session is one of the session. -/
theorem heap_afterSession_mem_sessionHeaps (m : Machine) (actions : List HostAction) :
    (m.afterSession actions).heap ∈ m.sessionHeaps actions := by
  induction actions generalizing m with
  | nil => exact List.mem_cons_self
  | cons a later ih => exact List.mem_append_right _ (ih (a.perform m))

/-- A property that survives what the host does and that every moment keeps holds throughout a
session. -/
theorem invariant_session (survives : Heap.SurvivesHost I) (ends : Heap.SurvivesEnds I) (m : Machine)
    (actions : List HostAction) (start : I m.heap)
    (keeps : ∀ moment ∈ m.sessionHistory actions, moment.Keeps Heap.collectionDue I) :
    (∀ h ∈ m.sessionHeaps actions, I h) ∧
      ∀ moment ∈ m.sessionHistory actions, I moment.machine.heap := by
  induction actions generalizing m with
  | nil =>
    refine ⟨?_, ?_⟩
    · intro h mem
      exact List.mem_singleton.mp mem ▸ start
    · intro moment mem
      cases mem
  | cons a later ih =>
    simp only [sessionHistory, sessionHeaps, List.mem_append, List.mem_cons, List.mem_flatMap,
      List.not_mem_nil, or_false] at keeps ⊢
    have next := invariant_perform survives ends m a start fun moment mem => keeps moment (.inl mem)
    obtain ⟨heaps, moments⟩ := ih (a.perform m) next fun moment mem => keeps moment (.inr mem)
    have now (moment : Moment) (mem : moment ∈ a.history m) : I moment.machine.heap := by
      cases a with
      | request printer r =>
        refine (r.computation m.globals).invariant_history ends (m := m.startRequest printer) start ?_
          moment mem
        exact fun moment mem => keeps moment (.inl mem)
      | _ => cases mem
    refine ⟨?_, ?_⟩
    · rintro h ((rfl | ⟨moment, mem, rfl | rfl⟩) | mem)
      · exact start
      · exact now moment mem
      · exact keeps moment (.inl mem) (now moment mem)
      · exact heaps h mem
    · rintro moment (mem | mem)
      · exact now moment mem
      · exact moments moment mem

end Machine

end ObjectMachine
