import ObjectMachine.Proofs.Running
import ObjectMachine.Proofs.Sections
/-!
The body of a generator, instruction by instruction. `Engine.straight` runs a body with the sections of its
blocks and lists what is dispatched: the instruction, the frame with its operands and its scope, the
frames around it with what is pending there, and the machine. Where the body hands out a value, it either
stops as the engine does, or records the value and goes on; nothing else differs. `Engine.mirrors_runFrame`
says that the engine ends as the run that stops.
-/
namespace ObjectMachine

/-- A frame whose current instruction is a block, while a section of the block runs. -/
structure Waiting where
  /-- The frame, without the section. -/
  frame : Frame
  /-- Which section runs. -/
  phase : Phase
  /-- What is pending meanwhile. -/
  pending : Pending

/-- An instruction that is about to be executed. -/
structure Dispatch where
  /-- The frames around, innermost first. -/
  around : List Waiting
  /-- The frame. -/
  frame : Frame
  /-- The machine, without roots, observer and limit of instructions. -/
  machine : Machine

/-- Whether a block is dispatched again, because one of its sections is resumed. -/
def Dispatch.again (d : Dispatch) : Bool := !d.frame.parked.isEmpty

/-- What happens while a body runs. -/
inductive BodyEvent where
  /-- An instruction is dispatched. -/
  | dispatched (d : Dispatch)
  /-- A value is handed out. -/
  | handedOut (value : Ref)

namespace BodyEvent

/-- Whether a block is dispatched again. -/
def again : BodyEvent → Bool
  | dispatched d => d.again
  | handedOut _ => false

/-- The value that is handed out. -/
def value? : BodyEvent → Option Ref
  | dispatched _ => none
  | handedOut value => some value

end BodyEvent

/-- What happened, and how it ended. -/
structure Trail (α : Type) where
  /-- The events, in order. -/
  log : List BodyEvent
  /-- The end. -/
  outcome : Outcome α

namespace Trail

variable {α β : Type}

/-- A computation in which nothing of the body is dispatched. -/
def of (o : Outcome α) : Trail α := ⟨[], o.bare⟩

/-- What happens after other events. -/
def after (log : List BodyEvent) (t : Trail α) : Trail α := ⟨log ++ t.log, t.outcome⟩

/-- Goes on with the value of a trail. -/
def andThen (t : Trail α) (f : α → Machine → Trail β) : Trail β :=
  match t with
  | ⟨log, .ok a m⟩ => (f a m).after log
  | ⟨log, .error e m⟩ => ⟨log, .error e m⟩

/-- A defect remembers where it arose. -/
def atSite (site : Site) (t : Trail α) : Trail α :=
  ⟨t.log, match t.outcome with
    | .ok a m => .ok a m
    | .error e m => .error (e.atSite site) m⟩

/-- The end of a section. -/
def leaving (t : Trail Completion) : Trail SectionEnd :=
  ⟨t.log, match t.outcome with
    | .ok (.yielded value body) m => .ok (.yielded value body) m.leave
    | .ok (.done value) m => .ok (.ended (.ok value)) m.leave
    | .error (.raised e) m => .ok (.ended (.error e)) m.leave
    | .error e m => .error e m.leave⟩

end Trail

namespace Engine

/-- How the code of a section runs within other code. -/
abbrev Runner : Type := List Waiting → Frame → Machine → Trail Completion

section
variable (run : Runner) (around : List Waiting) (f : Frame) (s : Sections)

/-- Runs a section one call deeper. -/
def sectionTrail (phase : Phase) (pending : Pending) (body : Frame) (m : Machine) :
    Trail SectionEnd :=
  match m.enter with
  | .error e => ⟨[], .error (.ofExhaustion e) m⟩
  | .ok inner => (run (⟨f, phase, pending⟩ :: around) body inner).leaving

/-- Runs or continues a section. The block waits with it, or goes on with its result. -/
def phaseTrail (phase : Phase) (pending : Pending)
    (rest : Except Raised (Option Ref) → Machine → Trail Step) (body : Frame) (m : Machine) :
    Trail Step :=
  (sectionTrail run around f phase pending body m).andThen fun ended m =>
    match ended with
    | .yielded value body => ⟨[], .ok (.suspended value (park f phase pending body)) m⟩
    | .ended result => rest result m

/-- Leaves a block. -/
def finishTrail (pending : Pending) (m : Machine) : Trail Step :=
  .of ((finishBlock f s.next pending).runUnder .never m)

/-- Runs or continues the cleanup. -/
def cleanupTrail (pending : Pending) : Frame → Machine → Trail Step :=
  phaseTrail run around f .cleanup pending fun result =>
    finishTrail f s (pending.replacedBy (.ofResult result))

/-- Starts the cleanup, if there is one. -/
def startCleanupTrail (pending : Pending) (m : Machine) : Trail Step :=
  match s.cleanup with
  | some code => cleanupTrail run around f s pending (Frame.start code f.scope) m
  | none => finishTrail f s pending m

/-- Runs or continues the handler. -/
def handlerTrail : Frame → Machine → Trail Step :=
  phaseTrail run around f .handler .proceed fun result =>
    startCleanupTrail run around f s (.ofResult result)

/-- Opens the scope of the handler, which holds the error. -/
def bindError (binding : Option String) (e : Raised) : Engine ScopeRef := do
  let scope ← newScope f.scope
  match binding with
  | some name =>
    let error ← errorObject e
    define scope name error
  | none => pure ()
  return scope

/-- Goes on after the guarded section. -/
def afterGuardedTrail (binding : Option String) (result : Except Raised (Option Ref)) (m : Machine) :
    Trail Step :=
  match result, s.handler with
  | .error e, some code =>
    (Trail.of ((bindError f binding e).runUnder .never m)).andThen fun scope m =>
      handlerTrail run around f s (Frame.start code scope) m
  | result, _ => startCleanupTrail run around f s (.ofResult result) m

/-- Runs or continues the guarded section. -/
def guardedTrail (binding : Option String) : Frame → Machine → Trail Step :=
  phaseTrail run around f .guarded .proceed (afterGuardedTrail run around f s binding)

/-- Continues the section that waits in a block, and goes on after it. -/
def resumeTrail (binding : Option String) (phase : Phase) (pending : Pending) (body : Frame)
    (m : Machine) : Trail Step :=
  match phase with
  | .guarded => guardedTrail run around f s binding body m
  | .handler => handlerTrail run around f s body m
  | .cleanup => cleanupTrail run around f s pending body m

end

/-- Executes a block, or continues the section that waits in it. -/
def protectTrail (run : Runner) (around : List Waiting) (f : Frame) (block : String)
    (binding : Option String) (m : Machine) : Trail Step :=
  match Sections.find? f block with
  | none => ⟨[], .error (.defect (.guardedBody block) []) m⟩
  | some s =>
    match f.parked with
    | [] => guardedTrail run around f s binding (Frame.start s.guarded f.scope) m
    | ⟨phase, pending, body⟩ :: inner =>
      resumeTrail run around f.base s binding phase pending ⟨body, inner⟩ m

/-- Executes an instruction. -/
def instructionTrail (fuel : Nat) (run : Runner) (around : List Waiting) (f : Frame) (op : Opcode)
    (m : Machine) : Trail Step :=
  match op with
  | .tryBlock block binding => protectTrail run around f block binding m
  | op => .of ((execute (reentry fuel) f op).runUnder .never m)

/-- Goes on after an instruction. A value that is handed out ends the run, unless values are only
recorded. -/
def proceedTrail (records : Bool) (run : Runner) (around : List Waiting) (ip : Nat) (step : Step)
    (m : Machine) : Trail Completion :=
  match settle ip step with
  | .running f => run around f m
  | .complete (.done value) => ⟨[], .ok (.done value) m⟩
  | .complete (.yielded value f) =>
    if records then (run around f m).after [.handedOut value]
    else ⟨[], .ok (.yielded value f) m⟩

/-- Runs a body from a frame on. -/
def straight (records : Bool) : Nat → Runner
  | 0, _, _, m => ⟨[], .error .outOfFuel m⟩
  | fuel + 1, around, f, m =>
    match f.code.at? f.ip with
    | none => ⟨[], .ok (.done none) m⟩
    | some instruction =>
      (((instructionTrail fuel (straight records fuel) around f instruction.op m).atSite
          ⟨instruction.op, f.ip⟩).andThen
        (proceedTrail records (straight records fuel) around f.ip)).after
          [.dispatched ⟨around, f, m⟩]

/-! ### The engine -/

/-- A computation ends as a trail on the bare machine, unless too many instructions are counted. -/
structure Mirrors {α : Type} (x : Engine α) (t : Machine → Trail α) : Prop where
  /-- Once too many instructions were counted, that stays so. -/
  overdrawn : ∀ m, m.Overdrawn → (x.runUnder .never m).machine.Overdrawn
  /-- The ends are the same. -/
  outcome : ∀ m, ¬ (x.runUnder .never m).machine.Overdrawn →
    (t m.bare).outcome = (x.runUnder .never m).bare

namespace Mirrors

variable {α β : Type} {roots : List Ref} {r : Rights} {x y : Engine α} {t t' : Machine → Trail α}

theorem give (a : α) : (Engine.give a).Mirrors fun m => ⟨[], .ok a m⟩ :=
  ⟨fun _ excess => excess, fun _ _ => rfl⟩

theorem throw (e : Interrupt) : (Engine.throw e : Engine α).Mirrors fun m => ⟨[], .error e m⟩ :=
  ⟨fun _ excess => excess, fun _ _ => rfl⟩

theorem of (below : BelowWith roots r x y) : x.Mirrors fun m => .of (x.runUnder .never m) :=
  ⟨below.carried carries_overdrawn, fun _ within => below.bare_eq within⟩

theorem congr (same : ∀ m : Machine, (t m.bare).outcome = (t' m.bare).outcome) (mirrors : x.Mirrors t) :
    x.Mirrors t' :=
  ⟨mirrors.overdrawn, fun m within => (same m).symm.trans (mirrors.outcome m within)⟩

theorem andThen {f : α → Engine β} {g : α → Machine → Trail β} (first : x.Mirrors t)
    (later : ∀ a, (f a).Mirrors (g a)) : (Engine.andThen x f).Mirrors fun m => (t m).andThen g := by
  have overdrawn (m : Machine) (excess : (x.runUnder .never m).machine.Overdrawn) :
      ((Engine.andThen x f).runUnder .never m).machine.Overdrawn := by
    simp only [runUnder]
    cases ran : x.runUnder .never m with
    | ok a m' =>
      rw [ran] at excess
      exact (later a).overdrawn m' excess
    | error e m' =>
      rw [ran] at excess
      exact excess
  refine ⟨fun m excess => overdrawn m (first.overdrawn m excess), fun m within => ?_⟩
  -- within the limit at the end means within the limit after the first part
  have same := first.outcome m fun excess => within (overdrawn m excess)
  simp only [runUnder] at within ⊢
  generalize t m.bare = trail at same ⊢
  obtain ⟨log, outcome⟩ := trail
  obtain rfl : outcome = (x.runUnder .never m).bare := same
  cases ran : x.runUnder .never m with
  | ok a m' =>
    rw [ran] at within
    exact (later a).outcome m' within
  | error e m' => rfl

/-- What leaves the bare machine as it is shows in no trail. -/
theorem skip {a : α} {f : α → Engine β} {g : Machine → Trail β}
    (silent : x.Mirrors fun m => ⟨[], .ok a m⟩) (later : ∀ a, (f a).Mirrors g) :
    (Engine.andThen x f).Mirrors g :=
  (silent.andThen (g := fun _ => g) later).congr fun _ => rfl

theorem of_runUnder_eq (same : ∀ m, x.runUnder .never m = y.runUnder .never m) (mirrors : y.Mirrors t) :
    x.Mirrors t := by
  refine ⟨fun m excess => ?_, fun m within => ?_⟩
  · rw [same]
    exact mirrors.overdrawn m excess
  · rw [same] at within ⊢
    exact mirrors.outcome m within

theorem assoc {γ : Type} {f : α → Engine β} {g : β → Engine γ} {t : Machine → Trail γ}
    (mirrors : (Engine.andThen x fun a => Engine.andThen (f a) g).Mirrors t) :
    (Engine.andThen (Engine.andThen x f) g).Mirrors t := by
  refine mirrors.of_runUnder_eq fun m => ?_
  simp only [runUnder]
  cases x.runUnder .never m <;> rfl

theorem keeping (nodes : List Node) (mirrors : x.Mirrors t) : (Engine.keeping nodes x).Mirrors t := by
  refine ⟨fun m excess => ?_, fun m within => ?_⟩
  · have inner := mirrors.overdrawn (m.pushRoots nodes) excess
    simp only [runUnder]
    generalize x.runUnder .never (m.pushRoots nodes) = o at inner ⊢
    cases o <;> exact inner
  · have inner := mirrors.outcome (m.pushRoots nodes)
    simp only [runUnder] at within ⊢
    generalize x.runUnder .never (m.pushRoots nodes) = o at inner within ⊢
    cases o <;> exact inner within

theorem executing (site : Site) (mirrors : x.Mirrors t) :
    (Engine.executing site x).Mirrors fun m => (t m).atSite site := by
  refine ⟨fun m excess => ?_, fun m within => ?_⟩
  · have inner := mirrors.overdrawn m excess
    simp only [runUnder]
    generalize x.runUnder .never m = o at inner ⊢
    cases o <;> exact inner
  · have inner := mirrors.outcome m
    simp only [runUnder, Trail.atSite] at within ⊢
    generalize x.runUnder .never m = o at inner within ⊢
    cases o <;> (rw [inner within]; rfl)

theorem tick : Engine.tick.Mirrors fun m => ⟨[], .ok () m⟩ := by
  refine ⟨(Below.tick (r := ⟨false, false⟩)).carried carries_overdrawn, fun m within => ?_⟩
  -- the bare machine counts no instructions, so counting shows there only where the limit is exceeded
  rcases m.heap.budget.tick_cases with ⟨counted, same⟩ | ⟨excess, -⟩
  · simp only [Engine.tick, runUnder, Op.perform, Op.onHeap, Heap.tick, counted, Outcome.bare,
      Machine.bare, Heap.unmetered, same]
  · exact (within (Op.overdrawn_onHeap (f := Heap.tick) excess)).elim

theorem collectIfDue (nodes : Unit → List Node) :
    (Engine.collectIfDue nodes).Mirrors fun m => ⟨[], .ok () m⟩ :=
  ⟨fun _ excess => excess, fun _ _ => rfl⟩

theorem observeAt (e : Nat → Event) : (Engine.observeAt e).Mirrors fun m => ⟨[], .ok () m⟩ :=
  ⟨fun _ excess => excess, fun _ _ => rfl⟩

/-- On a bare machine, a trail ends with a value only if the computation does. -/
theorem run_of_ok {m m' : Machine} {a : α} (mirrors : x.Mirrors t) (below : BelowWith roots r x y)
    (bare : m.bare = m) (ended : (t m).outcome = .ok a m') :
    ∃ last, x.runUnder .never m = .ok a last ∧ m' = last.bare := by
  have same := mirrors.outcome m (below.not_overdrawn bare)
  rw [bare, ended] at same
  cases ran : x.runUnder .never m with
  | error e last =>
    rw [ran] at same
    cases same
  | ok b last =>
    rw [ran] at same
    cases same
    exact ⟨last, rfl, rfl⟩

/-- From a bare machine on, the trail goes to a bare machine, at the same depth and under the same limit. -/
theorem kept {m : Machine} (mirrors : x.Mirrors t) (below : BelowWith roots r x y) (bare : m.bare = m) :
    (t m).outcome.machine.bare = (t m).outcome.machine ∧ (t m).outcome.machine.nesting = m.nesting := by
  have same := mirrors.outcome m (below.not_overdrawn bare)
  have nesting := runUnder_nesting .never x m
  rw [bare] at same
  generalize x.runUnder .never m = o at same nesting
  rw [same]
  cases o with
  | ok a last => exact ⟨last.bare_bare, last.nesting_bare.trans nesting⟩
  | error e last => exact ⟨last.bare_bare, last.nesting_bare.trans nesting⟩

end Mirrors

theorem mirrors_finish (f : Frame) (s : Sections) (pending : Pending) :
    (finishBlock f s.next pending).Mirrors (finishTrail f s pending) :=
  .of (r := ⟨false, false⟩) (below_finishBlock f s.next pending [])

section
variable {k : Reentry} {run : Runner}
  (inner : ∀ around body, (k.runFrame body).Mirrors (run around body))
include inner

theorem mirrors_runSection (around : List Waiting) (f : Frame) (phase : Phase) (resumed : Bool)
    (pending : Pending) (body : Frame) :
    (runSection k phase resumed pending body).Mirrors (sectionTrail run around f phase pending body) := by
  -- a section keeps what is pending as roots, which the bare machine does not have
  let x := keeping pending.links (k.runFrame body)
  have mirrors : x.Mirrors (run (⟨f, phase, pending⟩ :: around) body) := (inner _ body).keeping _
  have unfolded (m : Machine) : (runSection k phase resumed pending body).runUnder .never m =
      match m.enter with
      | .error e => .error (.ofExhaustion e) m
      | .ok deeper =>
        match x.runUnder .never deeper with
        | .ok (.yielded value body) m => .ok (.yielded value body) m.leave
        | .ok (.done value) m => .ok (.ended (.ok value)) m.leave
        | .error (.raised e) m => .ok (.ended (.error e)) m.leave
        | .error e m => .error e (m.leave.observe .tryExit) := by
    show (andThen (inSection phase resumed x) _).runUnder .never m = _
    simp only [runUnder]
    cases m.enter with
    | error e => rfl
    | ok deeper =>
      dsimp only
      rcases x.runUnder .never deeper with ⟨_ | _, _⟩ | ⟨_ | _, _⟩ <;> rfl
  refine ⟨fun m excess => ?_, fun m within => ?_⟩
  · rw [unfolded]
    cases entered : m.enter with
    | error e => exact excess
    | ok deeper =>
      have last := mirrors.overdrawn deeper (by rwa [Machine.Overdrawn, Machine.heap_of_enter entered])
      dsimp only
      generalize x.runUnder .never deeper = o at last ⊢
      rcases o with ⟨_ | _, _⟩ | ⟨_ | _, _⟩ <;> exact last
  · rw [unfolded] at within ⊢
    simp only [sectionTrail, Machine.bare_enter, Trail.leaving]
    cases entered : m.enter with
    | error e => rfl
    | ok deeper =>
      have last := mirrors.outcome deeper
      rw [entered] at within
      simp only [Except.map] at within ⊢
      generalize x.runUnder .never deeper = o at last within ⊢
      rcases o with ⟨_ | _, _⟩ | ⟨_ | _, _⟩ <;> (rw [last within]; rfl)

theorem mirrors_phase (around : List Waiting) {f : Frame} {phase : Phase} {resumed : Bool}
    {pending : Pending} {body : Frame}
    {rest : Except Raised (Option Ref) → Machine → Trail Step} {x : SectionEnd → Engine Step}
    (waits : ∀ value body, x (.yielded value body) = give (.suspended value (park f phase pending body)))
    (goesOn : ∀ result, (x (.ended result)).Mirrors (rest result)) :
    (andThen (runSection k phase resumed pending body) x).Mirrors
      (phaseTrail run around f phase pending rest body) := by
  refine (mirrors_runSection inner around f phase resumed pending body).andThen fun ended => ?_
  cases ended with
  | yielded value body =>
    rw [waits]
    exact .give _
  | ended result => exact goesOn result

theorem mirrors_cleanup (around : List Waiting) (f : Frame) (s : Sections) (resumed : Bool)
    (pending : Pending) (body : Frame) :
    (runCleanup k f s.next resumed pending body).Mirrors (cleanupTrail run around f s pending body) := by
  refine mirrors_phase inner around (fun _ _ => rfl) fun result => ?_
  match result with
  | .ok (some value) => exact mirrors_finish f s (.leave value)
  | .ok none => exact mirrors_finish f s pending
  | .error e => exact mirrors_finish f s (.rethrow e)

theorem mirrors_startCleanup (around : List Waiting) (f : Frame) (s : Sections) (pending : Pending) :
    (startCleanup k f s pending).Mirrors (startCleanupTrail run around f s pending) := by
  simp only [startCleanup]
  split <;> rename_i cleanup
  · refine (mirrors_cleanup inner around f s false pending _).congr fun m => ?_
    simp only [startCleanupTrail, cleanup]
  · refine (mirrors_finish f s pending).congr fun m => ?_
    simp only [startCleanupTrail, cleanup]

theorem mirrors_handler (around : List Waiting) (f : Frame) (s : Sections) (resumed : Bool) (body : Frame) :
    (runHandler k f s resumed body).Mirrors (handlerTrail run around f s body) := by
  refine mirrors_phase inner around (fun _ _ => rfl) fun result => ?_
  match result with
  | .ok (some value) => exact mirrors_startCleanup inner around f s (.leave value)
  | .ok none => exact mirrors_startCleanup inner around f s .proceed
  | .error e => exact mirrors_startCleanup inner around f s (.rethrow e)

theorem mirrors_startHandler (around : List Waiting) (f : Frame) (s : Sections) (binding : Option String)
    (code : Code) (e : Raised) :
    (startHandler k f s binding code e).Mirrors fun m =>
      (Trail.of ((bindError f binding e).runUnder .never m)).andThen fun scope m =>
        handlerTrail run around f s (Frame.start code scope) m := by
  -- binding the error dispatches nothing of the body: it is one step of the trail
  have bound : (bindError f binding e).Mirrors fun m => .of ((bindError f binding e).runUnder .never m) := by
    have below : Below ⟨false, false⟩ (bindError f binding e) (bindError f binding e) := by
      unfold bindError
      grind -funext
    exact .of (below [])
  refine (bound.andThen fun scope => mirrors_handler inner around f s false _).of_runUnder_eq fun m => ?_
  cases binding with
  | none =>
    show (andThen (newScope f.scope) _).runUnder .never m =
      (andThen (andThen (newScope f.scope) _) _).runUnder .never m
    simp only [runUnder]
    cases (newScope f.scope).runUnder .never m <;> rfl
  | some name =>
    show (andThen (newScope f.scope) _).runUnder .never m =
      (andThen (andThen (newScope f.scope) _) _).runUnder .never m
    simp only [runUnder]
    cases (newScope f.scope).runUnder .never m with
    | error e' m' => rfl
    | ok scope m' =>
      simp only [Bind.bind, runUnder]
      cases (errorObject e).runUnder .never m' <;> rfl

theorem mirrors_guarded (around : List Waiting) (f : Frame) (s : Sections) (binding : Option String)
    (resumed : Bool) (body : Frame) :
    (runGuarded k f s binding resumed body).Mirrors (guardedTrail run around f s binding body) := by
  refine mirrors_phase inner around (fun _ _ => rfl) fun result => ?_
  match result with
  | .ok (some value) => exact mirrors_startCleanup inner around f s (.leave value)
  | .ok none => exact mirrors_startCleanup inner around f s .proceed
  | .error e =>
    simp only
    split <;> rename_i handler
    · refine (mirrors_startHandler inner around f s binding _ e).congr fun m => ?_
      simp only [afterGuardedTrail, handler]
    · refine (mirrors_startCleanup inner around f s (.rethrow e)).congr fun m => ?_
      simp only [afterGuardedTrail, handler]
      rfl

theorem mirrors_protect (around : List Waiting) (f : Frame) (block : String) (binding : Option String) :
    (protect k f block binding).Mirrors (protectTrail run around f block binding) := by
  simp only [protect]
  split <;> rename_i found
  · refine (Mirrors.throw _).congr fun m => ?_
    simp only [protectTrail, found]
  · rename_i s
    cases waits : f.parked with
    | nil =>
      refine (Mirrors.skip (.observeAt .tryEnter) fun _ =>
        mirrors_guarded inner around f s binding false (Frame.start s.guarded f.scope)).congr fun m => ?_
      simp only [protectTrail, found, waits]
    | cons p parked =>
      obtain ⟨phase, pending, body⟩ := p
      cases phase with
      | guarded =>
        refine (mirrors_guarded inner around f.base s binding true ⟨body, parked⟩).congr fun m => ?_
        simp only [protectTrail, found, waits, resumeTrail]
      | handler =>
        refine (mirrors_handler inner around f.base s true ⟨body, parked⟩).congr fun m => ?_
        simp only [protectTrail, found, waits, resumeTrail]
      | cleanup =>
        refine (mirrors_cleanup inner around f.base s true pending ⟨body, parked⟩).congr fun m => ?_
        simp only [protectTrail, found, waits, resumeTrail]

end

theorem mirrors_instruction {run : Runner} (fuel : Nat)
    (inner : ∀ around body, (runFrameWith fuel body).Mirrors (run around body))
    (around : List Waiting) (f : Frame) (op : Opcode) :
    (execute (reentry fuel) f op).Mirrors (instructionTrail fuel run around f op) := by
  cases op with
  | tryBlock block binding => exact mirrors_protect inner around f block binding
  | _ => exact .of (r := ⟨false, false⟩) (below_execute (below_reentry fuel 0) f _)

/-- What the engine does with a step that was settled. -/
def goOn (fuel : Nat) : Progress → Engine Completion
  | .running f => runFrameWith fuel f
  | .complete completion => give completion

/-- The engine ends as the run that stops where a value is handed out. -/
theorem mirrors_runFrame (fuel : Nat) (around : List Waiting) (f : Frame) :
    (runFrameWith fuel f).Mirrors (straight false fuel around f) := by
  induction fuel generalizing around f with
  | zero => exact .throw .outOfFuel
  | succ fuel ih =>
    show (andThen (runInstruction (reentry fuel) f) _).Mirrors _
    simp only [runInstruction]
    split <;> rename_i found
    · refine Mirrors.of_runUnder_eq (y := give (.done none)) (fun _ => rfl) ?_
      refine (Mirrors.give _).congr fun m => ?_
      simp only [straight, found]
    · rename_i instruction
      have proceeds (step : Step) : (andThen (give (settle f.ip step)) (goOn fuel)).Mirrors
          (proceedTrail false (straight false fuel) around f.ip step) := by
        refine Mirrors.of_runUnder_eq (y := goOn fuel (settle f.ip step)) (fun _ => rfl) ?_
        unfold proceedTrail
        split <;> rename_i settled
        · rw [settled]
          exact ih around _
        · rw [settled]
          exact .give _
        · rw [settled]
          exact .give _
      have executed := (mirrors_instruction fuel ih around f instruction.op).keeping
        (if instruction.op.runsCode then f.links else [])
      have whole := (executed.executing ⟨instruction.op, f.ip⟩).andThen proceeds
      -- what precedes the instruction does not show on the bare machine
      refine Mirrors.congr (fun m => ?_) (Mirrors.assoc (.skip .tick fun _ =>
        .assoc (.skip (.collectIfDue _) fun _ => .assoc (.skip (.observeAt _) fun _ => .assoc whole))))
      simp only [straight, found, Trail.after]

end Engine

end ObjectMachine
