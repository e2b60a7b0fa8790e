import ObjectMachine.Proofs.Bare
import ObjectMachine.Proofs.Retention
/-!
A generator that runs. Nobody but the computation that resumed a generator puts it into another state:
while it runs, it can neither be resumed again nor be released.
-/
namespace ObjectMachine

namespace Heap

variable {h h' : Heap} {generator : Ref} {name : String}

/-- A generator runs, and new objects get vacant slots. -/
structure Runs (h : Heap) (generator : Ref) (name : String) : Prop where
  /-- The free list is well formed. -/
  wellFormed : h.objects.WellFormed
  /-- The generator runs. -/
  running : h.payload? generator = some (.generator name .running)

/-- A change of another object, or of something else than the state, leaves a generator running. -/
theorem Runs.modify (runs : h.Runs generator name) (r : Ref) (c : Change)
    (keeps : r ≠ generator ∨ c.onPayload (.generator name .running) = .generator name .running) :
    (h.modify r c.apply).Runs generator name := by
  refine ⟨runs.wellFormed.modify _ _, ?_⟩
  rw [payload?_modify, runs.running]
  split
  · rename_i same
    exact congrArg some (keeps.resolve_left fun other => other same)
  · rfl

/-- The heap with a generator in another state. -/
def putState (h : Heap) (generator : Ref) (state : GeneratorState) : Heap :=
  h.modify generator (Change.generator state).apply

variable {state : GeneratorState}

theorem payload?_putState (found : h.payload? generator = some (.generator name state))
    (state' : GeneratorState) :
    (h.putState generator state').payload? generator = some (.generator name state') := by
  rw [putState, payload?_modify, if_pos rfl, found]
  rfl

/-- What a generator did between two states does not show. -/
theorem putState_putState (found : h.payload? generator = some (.generator name state))
    (between : GeneratorState) : (h.putState generator between).putState generator state = h := by
  obtain ⟨objects, scopes, budget, since⟩ := h
  -- only the payload of one object is written, and the second change overwrites the first one
  simp only [putState, modify, Arena.modify_modify, Heap.mk.injEq, and_true]
  refine Arena.modify_eq_self fun o stored => ?_
  obtain ⟨type, members, payload⟩ := o
  have same : payload = .generator name state := by
    simp only [payload?, object?, stored, Option.map_some, Option.some.injEq] at found
    exact found
  rw [same]
  rfl

end Heap

namespace Op

variable {α : Type} {r : Rights} {m : Machine} {generator : Ref} {name : String}

/-- Without the right to put generators into a state, an operation changes no generator and makes none. -/
theorem onPayload_eq_generator_iff (o : Op α) (permitted : o.Permitted r) (none : r.generators = false)
    {c : Change} (changes : o.change? = some (generator, c)) {p : Payload} {state : GeneratorState} :
    c.onPayload p = .generator name state ↔ p = .generator name state := by
  cases o with
  | change r c =>
    cases changes
    cases c with
    | generator state =>
      rw [show _ = true from permitted] at none
      cases none
    | _ => cases p <;> simp [Change.onPayload]
  | _ => cases changes

/-- An operation that puts no generator into a state leaves a generator running. -/
theorem perform_runs (o : Op α) (permitted : o.Permitted r) (none : r.generators = false)
    (runs : m.heap.Runs generator name) : (o.perform .never m).machine.heap.Runs generator name := by
  refine ⟨o.wellFormed_perform runs.wellFormed permitted.defining, ?_⟩
  have spares (c : Change) (changes : o.change? = some (generator, c)) :
      c.onPayload (.generator name .running) = .generator name .running :=
    (o.onPayload_eq_generator_iff permitted none changes).mpr rfl
  exact (o.payload?_perform runs.wellFormed permitted spares runs.running).resolve_right
    fun gone => Bool.false_ne_true gone.2.1

end Op

namespace Engine

variable {α β : Type} {generator : Ref} {name : String} {k : Reentry}

/-- A computation leaves a generator running. -/
def LeavesRunning (generator : Ref) (name : String) (x : Engine α) : Prop :=
  ∀ m, m.heap.Runs generator name → (x.runUnder .never m).machine.heap.Runs generator name

theorem LeavesRunning.andThen {x : Engine α} {f : α → Engine β} (first : x.LeavesRunning generator name)
    (later : ∀ a, (f a).LeavesRunning generator name) :
    (andThen x f).LeavesRunning generator name := by
  intro m runs
  have after := first m runs
  simp only [runUnder]
  cases ran : x.runUnder .never m with
  | ok a m' =>
    rw [ran] at after
    exact later a m' after
  | error e m' =>
    rw [ran] at after
    exact after

theorem runUnder_putState {due : Schedule} {m : Machine} {state : GeneratorState}
    (found : m.heap.payload? generator = some (.generator name state)) (state' : GeneratorState) :
    (change generator (.generator state')).runUnder due m =
      .ok () (m.withHeap fun h => h.putState generator state') := by
  have occupied : m.heap.objects.occupied generator.slot = true := by
    rw [Arena.occupied, Option.isSome_iff_exists]
    obtain ⟨o, stored, -⟩ := Option.map_eq_some_iff.mp found
    exact ⟨o, stored⟩
  simp only [change, runUnder, Op.perform, occupied, if_true]
  rfl

theorem leavesRunning_putState {other : Ref} (different : other ≠ generator) (state : GeneratorState) :
    (change other (.generator state)).LeavesRunning generator name := by
  intro m runs
  simp only [change, runUnder, Op.perform]
  split
  · exact runs.modify other _ (.inl different)
  · exact runs

theorem leavesRunning_resuming {other : Ref} (different : other ≠ generator) (own : String)
    {x : Engine Completion} (inner : x.LeavesRunning generator name) :
    (resuming other own x).LeavesRunning generator name := by
  intro m runs
  simp only [runUnder]
  cases entered : m.enter with
  | error e => exact runs
  | ok nested =>
    have last := inner (nested.observe .resume) (by rwa [Machine.heap_observe, Machine.heap_of_enter entered])
    dsimp only
    generalize x.runUnder .never (nested.observe .resume) = o at last ⊢
    rcases o with _ | ⟨_ | _, _⟩
    · exact last
    · exact last
    all_goals exact Heap.Runs.modify last other _ (.inl different)

/-- To resume one generator leaves another one running. -/
theorem leavesRunning_resume {other : Ref} (different : other ≠ generator) (own : String) (frame : Frame)
    (before : GeneratorState) (inner : (k.runFrame frame).LeavesRunning generator name) :
    (resume k other own frame before).LeavesRunning generator name := by
  have put (state : GeneratorState) :
      (change other (.generator state)).LeavesRunning generator name :=
    leavesRunning_putState different state
  -- only the other generator is put into states: running, back, suspended or finished
  refine (put .running).andThen fun _ => ?_
  refine (leavesRunning_resuming different own inner).andThen fun ended => ?_
  split
  · exact (put before).andThen fun _ m runs => runs
  · exact LeavesRunning.andThen (fun m runs => runs) fun _ => (put _).andThen fun _ m runs => runs
  · exact (put .finished).andThen fun _ m runs => runs
  · exact (put .finished).andThen fun _ m runs => runs

/-- What a generator that is asked for an item does depends on its state. -/
theorem runUnder_generatorNext (due : Schedule) (k : Reentry) (other : Ref) (m : Machine) :
    (generatorNext k other).runUnder due m =
      match m.heap.payload? other with
      | some (.generator own .running) => .error (.raised (.ofCause (.alreadyRunning own))) m
      | some (.generator _ .finished) => .error (.raised (.ofCause .stopped)) m
      | some (.generator own (.fresh f)) => (resume k other own f (.fresh f)).runUnder due m
      | some (.generator own (.suspended f)) => (resume k other own f (.suspended f)).runUnder due m
      | some _ => .error (.defect .notGenerator []) m
      | none => .error .dangling m := by
  show (andThen (payload other) _).runUnder due m = _
  simp only [runUnder, runUnder_payload]
  cases m.heap.payload? other with
  | none => rfl
  | some p =>
    cases p with
    | generator own state => cases state <;> rfl
    | _ => rfl

/-- A generator that runs keeps running while another one is asked for an item. -/
theorem leavesRunning_generatorNext (other : Ref)
    (inner : ∀ f, (k.runFrame f).LeavesRunning generator name) :
    (generatorNext k other).LeavesRunning generator name := by
  intro m runs
  have different {state : GeneratorState} {own : String}
      (found : m.heap.payload? other = some (.generator own state)) (waits : state ≠ .running) :
      other ≠ generator := by
    rintro rfl
    rw [runs.running] at found
    cases found
    exact waits rfl
  -- a generator that can be resumed does not run, so it is another one
  rw [runUnder_generatorNext]
  cases found : m.heap.payload? other with
  | none => exact runs
  | some p =>
    cases p with
    | generator own state =>
      cases state with
      | fresh f => exact leavesRunning_resume (different found nofun) own f _ (inner f) m runs
      | suspended f => exact leavesRunning_resume (different found nofun) own f _ (inner f) m runs
      | running => exact runs
      | finished => exact runs
    | _ => exact runs

/-- A computation that has no right to put generators into a state leaves those that run running. -/
theorem carries_runs (generator : Ref) (name : String) : Rights.Carries .never fun r m m' =>
    r.generators = false → m.heap.Runs generator name → m'.heap.Runs generator name where
  refl _ _ _ runs := runs
  trans first later none runs := later none (first none runs)
  act o permitted none runs := o.perform_runs permitted none runs
  keeping _ inner none runs := inner none runs
  nested entered inner none runs := by
    refine inner none ?_
    rwa [Machine.heap_of_enter entered]
  observe _ _ _ _ runs := runs
  finish _ _ right none := by
    rw [right] at none
    cases none
  generator body _ _ := leavesRunning_generatorNext _ (fun f m => body f m rfl) _

end Engine

end ObjectMachine
