import ObjectMachine.Proofs.Nesting
/-!
The course of a protected block. A block starts its sections one after another; a section may hand
out values and wait to be resumed. `Control` is where a block stands, `Control.Moves` how the events
of its sections move it, and `Engine.protect_follows` says that every execution of a block, from its
start or continued, takes such a course and ends as the course says.
-/
namespace ObjectMachine

/-! ### Events -/

namespace Pending

/-- What is pending after a section that is over. -/
def ofResult : Except Raised (Option Ref) → Pending
  | .ok none => proceed
  | .ok (some value) => leave value
  | .error e => rethrow e

/-- What is pending after a cleanup: what it ends with, unless it ends normally. -/
def replacedBy (p : Pending) : Pending → Pending
  | proceed => p
  | leave value => leave value
  | rethrow e => rethrow e

end Pending

/-- How a section is left. -/
inductive Ending where
  /-- It hands out a value and waits. -/
  | waits
  /-- It is over: by its end, a return or an error that can be caught. -/
  | ended (outcome : Pending)
  /-- It is interrupted by what cannot be caught. -/
  | cut
deriving DecidableEq

/-- How a section is left when its code ends in some way. -/
def Ending.ofOutcome : Outcome Completion → Ending
  | .ok (.done value) _ => ended (.ofResult (.ok value))
  | .ok (.yielded ..) _ => waits
  | .error (.raised e) _ => ended (.rethrow e)
  | .error _ _ => cut

/-- Something that happens to a section of a block. -/
inductive SectionEvent where
  /-- It starts, or is resumed. -/
  | opens (phase : Phase) (resumed : Bool)
  /-- It does not start, or is not resumed, because calls are nested too deeply. -/
  | bars (phase : Phase) (resumed : Bool) (e : Exhaustion)
  /-- It is left. -/
  | shuts (phase : Phase) (ending : Ending)
deriving DecidableEq

/-- The event that a moment is for the block that runs at a depth. -/
def Moment.sectionEvent? (depth : Nat) : Moment → Option SectionEvent
  | opens phase resumed m => if m.depth = depth then some (.opens phase resumed) else none
  | bars phase resumed e m => if m.depth = depth then some (.bars phase resumed e) else none
  | shuts phase m outcome =>
    if m.depth = depth then some (.shuts phase (.ofOutcome outcome)) else none
  | forgiven moment => moment.sectionEvent? depth
  | acts .. | throws .. | enters _ | refuses _ => none

theorem Moment.sectionEvent?_eq_none {depth : Nat} (moment : Moment) (h : depth < moment.depth) :
    moment.sectionEvent? depth = none := by
  induction moment with
  | opens phase resumed m => exact if_neg (Nat.ne_of_gt h)
  | bars phase resumed e m => exact if_neg (Nat.ne_of_gt h)
  | shuts phase m outcome => exact if_neg (Nat.ne_of_gt h)
  | forgiven moment ih => exact ih h
  | _ => rfl

namespace Engine

variable {α β : Type} {due : Schedule} {held : List Node} {m : Machine}

/-- What happens to the sections of the block that a computation executes at its own depth. Blocks
that run inside the sections are deeper. -/
def sectionEvents (due : Schedule) (held : List Node) (x : Engine α) (m : Machine) :
    List SectionEvent :=
  (x.history due held m).filterMap (Moment.sectionEvent? m.depth)

/-- Code that runs deeper does nothing to the sections of a block. -/
theorem filterMap_history_deeper (x : Engine α) {inner : Machine} {depth : Nat}
    (h : depth < inner.depth) :
    (x.history due held inner).filterMap (Moment.sectionEvent? depth) = [] := by
  rw [List.filterMap_eq_nil_iff]
  intro moment mem
  exact moment.sectionEvent?_eq_none (Nat.lt_of_lt_of_le h (x.depth_le_of_mem_history mem))

theorem sectionEvents_andThen_ok {x : Engine α} (f : α → Engine β) {a : α} {m' : Machine}
    (ran : x.runUnder due m = .ok a m') :
    (andThen x f).sectionEvents due held m =
      x.sectionEvents due held m ++ (f a).sectionEvents due held m' := by
  have same := x.runUnder_nesting due m
  rw [ran] at same
  have depth : m'.depth = m.depth := (Prod.ext_iff.mp same).1
  simp only [sectionEvents, history, ran, List.filterMap_append, depth]

theorem sectionEvents_andThen_error {x : Engine α} (f : α → Engine β) {e : Interrupt} {m' : Machine}
    (ran : x.runUnder due m = .error e m') :
    (andThen x f).sectionEvents due held m = x.sectionEvents due held m := by
  simp only [sectionEvents, history, ran, List.append_nil]

@[simp] theorem sectionEvents_act (o : Op α) : (act o).sectionEvents due held m = [] := rfl

@[simp] theorem sectionEvents_give (a : α) : (give a).sectionEvents due held m = [] := rfl

@[simp] theorem sectionEvents_throw (e : Interrupt) :
    (throw e : Engine α).sectionEvents due held m = [] := rfl

theorem sectionEvents_inSection_ok {phase : Phase} {resumed : Bool} {x : Engine Completion}
    {inner : Machine} (entered : m.enter = .ok inner) :
    (inSection phase resumed x).sectionEvents due held m =
      [.opens phase resumed, .shuts phase (.ofOutcome (x.runUnder due inner))] := by
  simp [sectionEvents, history, entered, Moment.sectionEvent?,
    filterMap_history_deeper x (Machine.depth_lt_of_enter entered)]

theorem sectionEvents_inSection_error {phase : Phase} {resumed : Bool} {x : Engine Completion}
    {e : Exhaustion} (entered : m.enter = .error e) :
    (inSection phase resumed x).sectionEvents due held m = [.bars phase resumed e] := by
  simp [sectionEvents, history, entered, Moment.sectionEvent?]

end Engine

/-! ### Courses -/

/-- Where a block stands. -/
inductive Control where
  /-- Nothing has started. -/
  | idle
  /-- A section is about to start. -/
  | ready (phase : Phase) (pending : Pending)
  /-- A section runs. -/
  | inside (phase : Phase) (pending : Pending)
  /-- A section waits to be resumed. -/
  | waiting (phase : Phase) (pending : Pending)
  /-- The block is over, and this outcome is delivered. -/
  | finished (outcome : Pending)
  /-- The block was left because a section could not be entered. -/
  | refused (e : Exhaustion)
  /-- The block was left by what cannot be caught. -/
  | broken

namespace Control

/-- Where a block stands when its protected region was left. -/
def ofRegion (s : Sections) (outcome : Pending) : Control :=
  if s.cleanup.isSome then ready .cleanup outcome else finished outcome

/-- Where a block stands when a section is over. -/
def ofSection (s : Sections) : Phase → Pending → Pending → Control
  | .guarded, _, .rethrow e =>
    if s.handler.isSome then ready .handler .proceed else ofRegion s (.rethrow e)
  | .guarded, _, outcome => ofRegion s outcome
  | .handler, _, outcome => ofRegion s outcome
  | .cleanup, pending, outcome => finished (pending.replacedBy outcome)

/-- How an event moves a block. -/
inductive Moves (s : Sections) : Control → SectionEvent → Control → Prop where
  | start : Moves s idle (.opens .guarded false) (inside .guarded .proceed)
  | refuse (e : Exhaustion) : Moves s idle (.bars .guarded false e) (refused e)
  | enter (phase : Phase) (pending : Pending) :
    Moves s (ready phase pending) (.opens phase false) (inside phase pending)
  | resume (phase : Phase) (pending : Pending) :
    Moves s (waiting phase pending) (.opens phase true) (inside phase pending)
  | lose (phase : Phase) (pending : Pending) (e : Exhaustion) :
    Moves s (waiting phase pending) (.bars phase true e) (refused e)
  | wait (phase : Phase) (pending : Pending) :
    Moves s (inside phase pending) (.shuts phase .waits) (waiting phase pending)
  | ended (phase : Phase) (pending outcome : Pending) :
    Moves s (inside phase pending) (.shuts phase (.ended outcome)) (ofSection s phase pending outcome)
  | cut (phase : Phase) (pending : Pending) :
    Moves s (inside phase pending) (.shuts phase .cut) broken

/-- How events move a block, one after another. -/
inductive Course (s : Sections) : Control → List SectionEvent → Control → Prop where
  | nil (c : Control) : Course s c [] c
  | cons {c c' c'' : Control} {event : SectionEvent} {later : List SectionEvent}
    (move : Moves s c event c') (rest : Course s c' later c'') : Course s c (event :: later) c''

theorem Course.append {s : Sections} {c c' c'' : Control} {events later : List SectionEvent}
    (first : Course s c events c') (rest : Course s c' later c'') :
    Course s c (events ++ later) c'' := by
  induction first with
  | nil c => exact rest
  | cons move _ ih => exact .cons move (ih rest)

end Control

/-! ### Outcomes -/

/-- Whether the interruption is an error that programs can catch. -/
def Interrupt.isRaised : Interrupt → Bool
  | raised _ => true
  | _ => false

namespace Frame

/-- The frame without the sections that wait in it. -/
def base (f : Frame) : Frame := { f with parked := [] }

/-- Where the block stands that is the current instruction of the frame. Nothing is pending but
during the cleanup. -/
def control (f : Frame) : Control :=
  match f.parked with
  | [] => .idle
  | ⟨.cleanup, pending, _⟩ :: _ => .waiting .cleanup pending
  | ⟨phase, _, _⟩ :: _ => .waiting phase .proceed

end Frame

/-- An instruction of a frame delivers the outcome of a block whose code ends before a position. -/
inductive Delivered (f : Frame) (next : Nat) : Pending → Outcome Step → Prop where
  | proceed (m : Machine) : Delivered f next .proceed (.ok (.jump next f) m)
  | leave (value : Ref) (m : Machine) :
    Delivered f next (.leave value) (.ok (.jump next { f with returned := some value }) m)
  | rethrow (e : Raised) (m : Machine) : Delivered f next (.rethrow e) (.error (.raised e) m)

/-- The execution of a block in a frame ends as it must where the block stands. -/
inductive Shows (f : Frame) (next : Nat) : Control → Outcome Step → Prop where
  | waiting {g : Frame} {phase : Phase} {pending : Pending} (value : Ref) (m : Machine)
    (same : g.base = f) (control : g.control = .waiting phase pending) :
    Shows f next (.waiting phase pending) (.ok (.suspended value g) m)
  | finished {outcome : Pending} {out : Outcome Step} (delivered : Delivered f next outcome out) :
    Shows f next (.finished outcome) out
  | refused (e : Exhaustion) (m : Machine) : Shows f next (.refused e) (.error (.ofExhaustion e) m)
  | broken (e : Interrupt) (m : Machine) (fatal : e.isRaised = false) :
    Shows f next .broken (.error e m)
  | unhandled (pending : Pending) (e : Interrupt) (m : Machine) (fatal : e.isRaised = false) :
    Shows f next (.ready .handler pending) (.error e m)

namespace Engine

variable {due : Schedule} {held : List Node} {m : Machine} {s : Sections} {f : Frame}
  {k : Reentry}

/-- A computation takes a block through a course and ends as it must where the block then stands. -/
def Follows (due : Schedule) (held : List Node) (s : Sections) (f : Frame) (c : Control)
    (x : Engine Step) (m : Machine) : Prop :=
  ∃ c', c.Course s (x.sectionEvents due held m) c' ∧ Shows f s.next c' (x.runUnder due m)

/-- How the run of a section ends when the section is left in some way. -/
inductive SectionEnds : Ending → Outcome SectionEnd → Prop where
  | waits (value : Ref) (body : Frame) (m : Machine) :
    SectionEnds .waits (.ok (.yielded value body) m)
  | ended (result : Except Raised (Option Ref)) (m : Machine) :
    SectionEnds (.ended (.ofResult result)) (.ok (.ended result) m)
  | cut (e : Interrupt) (m : Machine) (fatal : e.isRaised = false) : SectionEnds .cut (.error e m)

theorem runSection_of_enter (due : Schedule) (held : List Node) (k : Reentry) (phase : Phase)
    (resumed : Bool) (pending : Pending) (body : Frame) {inner : Machine} (entered : m.enter = .ok inner) :
    ∃ ending, (runSection k phase resumed pending body).sectionEvents due held m =
        [.opens phase resumed, .shuts phase ending] ∧
      SectionEnds ending ((runSection k phase resumed pending body).runUnder due m) := by
  let x := keeping pending.links (k.runFrame body)
  refine ⟨.ofOutcome (x.runUnder due inner), ?_, ?_⟩
  · rw [← sectionEvents_inSection_ok entered]
    cases ran : (inSection phase resumed x).runUnder due m with
    | ok result m' =>
      refine (sectionEvents_andThen_ok _ ran).trans (List.append_right_eq_self.mpr ?_)
      split <;> rfl
    | error e m' => exact sectionEvents_andThen_error _ ran
  · show SectionEnds _ ((andThen (inSection phase resumed x) _).runUnder due m)
    simp only [runUnder, entered]
    cases x.runUnder due inner with
    | ok completion m' =>
      cases completion with
      | done value => exact .ended (.ok value) m'.leave
      | yielded value body => exact .waits value body m'.leave
    | error e m' =>
      cases e with
      | raised e => exact .ended (.error e) m'.leave
      | _ => exact .cut _ _ rfl

theorem runSection_of_refusal (due : Schedule) (held : List Node) (k : Reentry) (phase : Phase)
    (resumed : Bool) (pending : Pending) (body : Frame) {e : Exhaustion} (refused : m.enter = .error e) :
    (runSection k phase resumed pending body).sectionEvents due held m =
        [.bars phase resumed e] ∧
      (runSection k phase resumed pending body).runUnder due m = .error (.ofExhaustion e) m := by
  let x := keeping pending.links (k.runFrame body)
  have ran : (inSection phase resumed x).runUnder due m = .error (.ofExhaustion e) m := by
    simp only [runUnder, refused]
  constructor
  · exact (sectionEvents_andThen_error _ ran).trans (sectionEvents_inSection_error refused)
  · show (andThen (inSection phase resumed x) _).runUnder due m = _
    simp only [runUnder, refused]

/-- A block runs a section and goes on with how it ends. -/
theorem follows_section {c : Control} {phase : Phase} {resumed : Bool} {pending : Pending}
    {body : Frame} {g : SectionEnd → Engine Step}
    (opens : Control.Moves s c (.opens phase resumed) (.inside phase pending))
    (bars : ∀ e, m.enter = .error e → Control.Moves s c (.bars phase resumed e) (.refused e))
    (waits : ∀ value body m', Follows due held s f (.waiting phase pending) (g (.yielded value body)) m')
    (finish : ∀ result m' inner, m'.enter = .ok inner →
      Follows due held s f (.ofSection s phase pending (.ofResult result)) (g (.ended result)) m') :
    Follows due held s f c (andThen (runSection k phase resumed pending body) g) m := by
  cases entered : m.enter with
  | error e =>
    obtain ⟨events, ran⟩ := runSection_of_refusal due held k phase resumed pending body entered
    refine ⟨.refused e, ?_, ?_⟩
    · rw [sectionEvents_andThen_error g ran, events]
      exact .cons (bars e entered) (.nil _)
    · simp only [runUnder, ran]
      exact .refused e m
  | ok inner =>
    obtain ⟨ending, events, ends⟩ :=
      runSection_of_enter due held k phase resumed pending body entered
    have same := (runSection k phase resumed pending body).runUnder_nesting due m
    cases ran : (runSection k phase resumed pending body).runUnder due m with
    | error e m' =>
      rw [ran] at ends
      obtain ⟨⟩ | ⟨⟩ | ⟨_, _, fatal⟩ := ends
      refine ⟨.broken, ?_, ?_⟩
      · rw [sectionEvents_andThen_error g ran, events]
        exact .cons opens (.cons (.cut phase pending) (.nil _))
      · simp only [runUnder, ran]
        exact .broken e m' fatal
    | ok ended m' =>
      rw [ran] at ends same
      have later : ∀ c', Control.Moves s (.inside phase pending) (.shuts phase ending) c' →
          Follows due held s f c' (g ended) m' →
          Follows due held s f c (andThen (runSection k phase resumed pending body) g) m := by
        rintro c' shuts ⟨c'', course, shows⟩
        refine ⟨c'', ?_, ?_⟩
        · rw [sectionEvents_andThen_ok g ran, events]
          exact .cons opens (.cons shuts course)
        · simp only [runUnder, ran]
          exact shows
      cases ends with
      | waits value body => exact later _ (.wait phase pending) (waits value body m')
      | ended result =>
        obtain ⟨inner', entered'⟩ := Machine.enter_of_nesting_eq same entered
        exact later _ (.ended phase pending _) (finish result m' inner' entered')

/-- A block that is over delivers its outcome. -/
theorem follows_finishBlock (outcome : Pending) :
    Follows due held s f (.finished outcome) (finishBlock f s.next outcome) m := by
  refine ⟨.finished outcome, ?_, .finished ?_⟩
  · have events : (finishBlock f s.next outcome).sectionEvents due held m = [] := by
      refine (sectionEvents_andThen_ok (x := observeAt .tryExit) _ rfl).trans ?_
      cases outcome <;> rfl
    rw [events]
    exact .nil _
  · cases outcome with
    | proceed => exact .proceed _
    | leave value => exact .leave value _
    | rethrow e => exact .rethrow e _

/-- A section that hands out a value waits on the frame. -/
theorem follows_park {phase : Phase} {pending : Pending} {body : Frame} (fresh : f.parked = [])
    (value : Ref) (control : (park f phase pending body).control = .waiting phase pending) :
    Follows due held s f (.waiting phase pending)
      (return .suspended value (park f phase pending body)) m := by
  refine ⟨.waiting phase pending, .nil _, .waiting value m ?_ control⟩
  simp only [park, Frame.base, ← fresh]

/-- A cleanup replaces what was pending unless it ends normally. -/
theorem follows_runCleanup {c : Control} {resumed : Bool} {pending : Pending} {body : Frame}
    (fresh : f.parked = [])
    (opens : Control.Moves s c (.opens .cleanup resumed) (.inside .cleanup pending))
    (bars : ∀ e, m.enter = .error e → Control.Moves s c (.bars .cleanup resumed e) (.refused e)) :
    Follows due held s f c (runCleanup k f s.next resumed pending body) m := by
  refine follows_section opens bars ?_ ?_
  · exact fun value _ _ => follows_park fresh value rfl
  · intro result m' inner _
    match result with
    | .ok (some value) => exact follows_finishBlock (.leave value)
    | .ok none => exact follows_finishBlock pending
    | .error e => exact follows_finishBlock (.rethrow e)

/-- When the protected region was left, the cleanup starts if there is one. -/
theorem follows_startCleanup {inner : Machine} (fresh : f.parked = [])
    (entered : m.enter = .ok inner) (outcome : Pending) :
    Follows due held s f (.ofRegion s outcome) (startCleanup k f s outcome) m := by
  simp only [startCleanup, Control.ofRegion]
  cases cleanup : s.cleanup with
  | none => exact follows_finishBlock outcome
  | some code =>
    refine follows_runCleanup fresh (.enter .cleanup outcome) ?_
    intro e refused
    rw [entered] at refused
    cases refused

/-- When the handler is over, the protected region is left. -/
theorem follows_runHandler {c : Control} {resumed : Bool} {body : Frame} (fresh : f.parked = [])
    (opens : Control.Moves s c (.opens .handler resumed) (.inside .handler .proceed))
    (bars : ∀ e, m.enter = .error e → Control.Moves s c (.bars .handler resumed e) (.refused e)) :
    Follows due held s f c (runHandler k f s resumed body) m := by
  refine follows_section opens bars ?_ ?_
  · exact fun value _ _ => follows_park fresh value rfl
  · intro result m' inner entered
    match result with
    | .ok (some value) => exact follows_startCleanup fresh entered (.leave value)
    | .ok none => exact follows_startCleanup fresh entered .proceed
    | .error e => exact follows_startCleanup fresh entered (.rethrow e)

/-! ### Error objects -/

/-- A computation that runs no section and meets no error that can be caught. -/
def Quiet {α : Type} (x : Engine α) : Prop :=
  ∀ due held m, x.sectionEvents due held m = [] ∧
    ∀ e m', x.runUnder due m = .error e m' → e.isRaised = false

namespace Quiet

variable {α β : Type}

theorem give (a : α) : Quiet (give a) := fun _ _ _ => ⟨rfl, fun _ _ ran => nomatch ran⟩

theorem andThen {x : Engine α} {g : α → Engine β} (hx : Quiet x) (hg : ∀ a, Quiet (g a)) :
    Quiet (andThen x g) := by
  intro due held m
  cases ran : x.runUnder due m with
  | error e m' =>
    refine ⟨(sectionEvents_andThen_error g ran).trans (hx due held m).1, ?_⟩
    intro e' m'' ran'
    simp only [runUnder, ran] at ran'
    cases ran'
    exact (hx due held m).2 e m' ran
  | ok a m' =>
    refine ⟨?_, ?_⟩
    · rw [sectionEvents_andThen_ok g ran, (hx due held m).1, (hg a due held m').1]
      rfl
    · intro e m'' ran'
      simp only [runUnder, ran] at ran'
      exact (hg a due held m').2 e m'' ran'

theorem store (o : Object) : Quiet (act (.store o)) := by
  refine fun due held m => ⟨rfl, fun e m' ran => ?_⟩
  simp only [runUnder, Op.perform, Op.onHeap, Heap.allocate, Heap.book, Budget.allocate] at ran
  grind [Interrupt.isRaised, Interrupt.ofExhaustion]

theorem openScope (outer : ScopeRef) : Quiet (act (.openScope outer)) := by
  refine fun due held m => ⟨rfl, fun e m' ran => ?_⟩
  simp only [runUnder, Op.perform, Op.onHeap, Heap.allocateScope, Heap.book, Budget.allocate] at ran
  grind [Interrupt.isRaised, Interrupt.ofExhaustion]

theorem change (r : Ref) (c : Change) : Quiet (change r c) := by
  refine fun due held m => ⟨rfl, fun e m' ran => ?_⟩
  simp only [Engine.change, runUnder, Op.perform] at ran
  split at ran <;> cases ran
  rfl

theorem define (scope : ScopeRef) (name : String) (value : Ref) :
    Quiet (define scope name value) :=
  fun _ _ _ => ⟨rfl, fun _ _ ran => nomatch ran⟩

theorem newErrorObject (e : ErrorBody) (causes : List ErrorBody) :
    Quiet (newErrorObject e causes) :=
  .andThen (.store _) fun _ => .andThen (.store _) fun _ => .give _

theorem bodyObject (e : ErrorBody) : Quiet (bodyObject e) := by
  simp only [Engine.bodyObject]
  cases e.value with
  | some object => exact .andThen (.change _ _) fun _ => .give _
  | none => exact .andThen (.newErrorObject _ _) fun _ => .andThen (.change _ _) fun _ => .give _

theorem bodyObjects (causes : List ErrorBody) : Quiet (bodyObjects causes) := by
  induction causes with
  | nil => exact .give _
  | cons e later ih => exact .andThen (.bodyObject e) fun _ => .andThen ih fun _ => .give _

/-- Making the object of an error is quiet. -/
theorem errorObject (e : Raised) : Quiet (errorObject e) := by
  simp only [Engine.errorObject]
  cases e.value with
  | some object => exact .andThen (.change _ _) fun _ => .give _
  | none =>
    refine .andThen (.newErrorObject _ _) fun (object, message) => ?_
    dsimp only
    split
    · exact .andThen (.change _ _) fun _ => .give _
    · exact .andThen (.bodyObjects _) fun _ => .andThen (.store _) fun _ =>
        .andThen (.change _ _) fun _ => .give _

end Quiet

/-- What is quiet does not move a block; if it fails, then with what cannot be caught. -/
theorem follows_quiet {α : Type} {x : Engine α} {g : α → Engine Step} {pending : Pending}
    (quiet : Quiet x)
    (later : ∀ a m' inner, m'.enter = .ok inner →
      Follows due held s f (.ready .handler pending) (g a) m')
    {inner : Machine} (entered : m.enter = .ok inner) :
    Follows due held s f (.ready .handler pending) (andThen x g) m := by
  have same := x.runUnder_nesting due m
  cases ran : x.runUnder due m with
  | error e m' =>
    refine ⟨.ready .handler pending, ?_, ?_⟩
    · rw [sectionEvents_andThen_error g ran, (quiet due held m).1]
      exact .nil _
    · simp only [runUnder, ran]
      exact .unhandled pending e m' ((quiet due held m).2 e m' ran)
  | ok a m' =>
    rw [ran] at same
    obtain ⟨inner', entered'⟩ := Machine.enter_of_nesting_eq same entered
    obtain ⟨c, course, shows⟩ := later a m' inner' entered'
    refine ⟨c, ?_, ?_⟩
    · rw [sectionEvents_andThen_ok g ran, (quiet due held m).1]
      exact course
    · simp only [runUnder, ran]
      exact shows

/-! ### Blocks -/

/-- An error that left the guarded section starts the handler. -/
theorem follows_startHandler {inner : Machine} (fresh : f.parked = []) (entered : m.enter = .ok inner)
    (binding : Option String) (code : Code) (e : Raised) :
    Follows due held s f (.ready .handler .proceed) (startHandler k f s binding code e) m := by
  have run (scope : ScopeRef) (m' inner : Machine) (entered : m'.enter = .ok inner) :
      Follows due held s f (.ready .handler .proceed)
        (runHandler k f s false (Frame.start code scope)) m' := by
    refine follows_runHandler fresh (.enter .handler .proceed) ?_
    intro e refused
    rw [entered] at refused
    cases refused
  refine follows_quiet (.openScope f.scope) ?_ entered
  intro scope m' inner entered
  dsimp only
  cases binding with
  | none => exact run scope m' inner entered
  | some name =>
    refine follows_quiet (.errorObject e) ?_ entered
    intro error m' inner entered
    refine follows_quiet (.define scope name error) ?_ entered
    exact fun _ => run scope

/-- When the guarded section is over, its error goes to the handler if there is one; otherwise the
protected region is left. -/
theorem follows_runGuarded {c : Control} {resumed : Bool} {body : Frame} (fresh : f.parked = [])
    (binding : Option String)
    (opens : Control.Moves s c (.opens .guarded resumed) (.inside .guarded .proceed))
    (bars : ∀ e, m.enter = .error e → Control.Moves s c (.bars .guarded resumed e) (.refused e)) :
    Follows due held s f c (runGuarded k f s binding resumed body) m := by
  refine follows_section opens bars ?_ ?_
  · exact fun value _ _ => follows_park fresh value rfl
  · intro result m' inner entered
    match result with
    | .ok (some value) => exact follows_startCleanup fresh entered (.leave value)
    | .ok none => exact follows_startCleanup fresh entered .proceed
    | .error e =>
      cases handler : s.handler with
      | none =>
        simp only [Pending.ofResult, Control.ofSection, handler]
        exact follows_startCleanup fresh entered (.rethrow e)
      | some code =>
        simp only [Pending.ofResult, Control.ofSection, handler]
        exact follows_startHandler fresh entered binding code e

/-- Every execution of a block, from its start or continued, takes a course from where the block
stands, and ends as it must where the block then stands. -/
theorem protect_follows (due : Schedule) (held : List Node) (k : Reentry) (m : Machine)
    {block : String} (found : Sections.find? f block = some s)
    (binding : Option String) :
    Follows due held s f.base f.control (protect k f block binding) m := by
  simp only [protect, found]
  obtain ⟨activation, parked⟩ := f
  cases parked with
  | nil =>
    have entering : Follows due held s ⟨activation, []⟩ .idle
        (runGuarded k ⟨activation, []⟩ s binding false (Frame.start s.guarded activation.scope))
        (m.observe .tryEnter) :=
      follows_runGuarded rfl binding .start fun e _ => .refuse e
    obtain ⟨c, course, shows⟩ := entering
    refine ⟨c, ?_, shows⟩
    rw [← List.nil_append (sectionEvents _ _ _ _)] at course
    exact course
  | cons waiting inner =>
    obtain ⟨phase, pending, body⟩ := waiting
    cases phase with
    | guarded =>
      exact follows_runGuarded rfl binding (.resume .guarded .proceed)
        fun e _ => .lose .guarded .proceed e
    | handler =>
      exact follows_runHandler rfl (.resume .handler .proceed)
        fun e _ => .lose .handler .proceed e
    | cleanup =>
      exact follows_runCleanup rfl (.resume .cleanup pending) fun e _ => .lose .cleanup pending e

end Engine

end ObjectMachine
