import ObjectMachine.Assembler
import ObjectMachine.Proofs.Resumption
/-!
Suspension is transparent. A generator that is asked for one item after another goes through what one run of
its body goes through that records the values: `Engine.suspension_transparent`. Between two calls nothing
is lost and nothing happens twice, except that the blocks in which the body waits are dispatched again.
-/
namespace ObjectMachine

/-! ### Generators that wait -/

namespace Heap

/-- The name of a generator that can be resumed, and the frame in which it waits. -/
def waiting? (h : Heap) (generator : Ref) : Option (String × Frame) :=
  match h.payload? generator with
  | some (.generator name (.fresh f)) => some (name, f)
  | some (.generator name (.suspended f)) => some (name, f)
  | _ => none

end Heap

namespace Trail

variable {α : Type}

/-- The values that were handed out, in order. -/
def values (t : Trail α) : List Ref := t.log.filterMap BodyEvent.value?

/-- The trail on the bare machine. -/
def bare (t : Trail α) : Trail α := ⟨t.log, t.outcome.bare⟩

/-- How the end of a body shows to whoever asks its generator for an item. -/
def surfacing (generator : Ref) (name : String) (t : Trail Completion) : Trail Unit :=
  ⟨t.log, match t.outcome with
    | .ok (.yielded _ _) m => .ok () m.leave
    | .ok (.done _) m =>
      .error (.raised (.ofCause .stopped)) (m.leave.withHeap fun h => h.putState generator .finished)
    | .error e m =>
      .error (e.withLayer name []) (m.leave.withHeap fun h => h.putState generator .finished)⟩

theorem filterMap_news (t : Trail α) : t.news.filterMap BodyEvent.value? = t.values := by
  simp only [news, values, List.filterMap_filter]
  congr 1
  funext e
  cases e with
  | dispatched d => cases again : (BodyEvent.dispatched d).again <;> rfl
  | handedOut value => rfl

theorem Below.news_prefix {t t' : Trail α} (below : t.Below t') : t.news <+: t'.news := by
  cases below with
  | cutOff _ news => exact news
  | same news => exact news ▸ List.prefix_rfl

theorem bare_andThen_of_error {t : Trail α} {e : Interrupt} {m : Machine} (ended : t.outcome = .error e m)
    {β : Type} (g : α → Machine → Trail β) : t.bare.andThen g = ⟨t.log, .error e m.bare⟩ := by
  obtain ⟨log, outcome⟩ := t
  obtain rfl : outcome = .error e m := ended
  rfl

theorem cutOff_of_surfacing {t : Trail Completion} {generator : Ref} {name : String}
    (cut : (t.surfacing generator name).CutOff) : t.CutOff := by
  obtain ⟨m, cut⟩ := cut
  obtain ⟨log, ⟨_ | _, last⟩ | ⟨e, last⟩⟩ := t
  · cases cut
  · cases cut
  · cases e with
    | outOfFuel => exact ⟨last, rfl⟩
    | _ => cases cut

theorem Below.surfacing {t t' : Trail Completion} (below : t.Below t') (generator : Ref) (name : String) :
    (t.surfacing generator name).Below (t'.surfacing generator name) := by
  cases below with
  | cutOff cut news =>
    obtain ⟨m, cut⟩ := cut
    exact .cutOff ⟨_, by simp only [Trail.surfacing, cut]; rfl⟩ news
  | same news outcome => exact .same news (by simp only [Trail.surfacing, outcome])

theorem Ordered.surfacing {up : Bool} {t t' : Trail Completion} (ordered : t.Ordered up t')
    (generator : Ref) (name : String) :
    (t.surfacing generator name).Ordered up (t'.surfacing generator name) := by
  cases up <;> exact Below.surfacing ordered generator name

end Trail

namespace Engine

/-- The machine on which a generator runs when it is resumed. -/
def resumption (generator : Ref) (m : Machine) : Except Exhaustion Machine :=
  (m.withHeap fun h => h.putState generator .running).enter

/-- Asks a generator for an item: what happens in its body, and how the call ends. -/
def askTrail (fuel : Nat) (generator : Ref) (m : Machine) : Trail Ref :=
  ⟨match m.heap.waiting? generator, resumption generator m with
    | some (_, f), .ok inner => (straight false fuel [] f inner.bare).log
    | _, _ => [],
  (generatorNext (reentry fuel) generator).runUnder .never m⟩

/-- Asks a generator for items, one after another. -/
def drive (fuel : Nat) (generator : Ref) : Nat → Machine → Trail Unit
  | 0, m => ⟨[], .ok () m⟩
  | calls + 1, m =>
    (askTrail fuel generator m).andThen fun value m =>
      (drive fuel generator calls m).after [.handedOut value]

/-- What is left of the body of a generator, in one run. -/
def restTrail (fuel : Nat) (generator : Ref) (m : Machine) : Trail Unit :=
  match m.heap.waiting? generator, resumption generator m with
  | some (name, f), .ok inner => (straight true fuel [] f inner.bare).surfacing generator name
  | _, _ => ⟨[], .error .outOfFuel m.bare⟩

/-- A generator waits in a frame to be resumed on a machine. -/
structure Waits (generator : Ref) (name : String) (f : Frame) (inner m : Machine) : Prop where
  /-- The generator waits in the frame. -/
  frame : m.heap.waiting? generator = some (name, f)
  /-- It can be resumed. -/
  entered : resumption generator m = .ok inner
  /-- New objects get vacant slots. -/
  wellFormed : m.heap.objects.WellFormed
  /-- Every section that waits is one of a block. -/
  inBlocks : f.InBlocks

variable {generator : Ref} {name : String} {f : Frame} {inner m : Machine}

theorem Waits.payload (waits : Waits generator name f inner m) :
    ∃ state, m.heap.payload? generator = some (.generator name state) := by
  have frame := waits.frame
  simp only [Heap.waiting?] at frame
  split at frame <;> cases frame
  · exact ⟨_, ‹_›⟩
  · exact ⟨_, ‹_›⟩

/-- The generator runs when its body does. -/
theorem Waits.runs (waits : Waits generator name f inner m) : inner.heap.Runs generator name := by
  obtain ⟨state, found⟩ := waits.payload
  rw [Machine.heap_of_enter waits.entered, Machine.heap_withHeap]
  exact ⟨waits.wellFormed.modify _ _, Heap.payload?_putState found .running⟩

/-- How asking for an item ends, by how the body ends. -/
def asked (generator : Ref) (name : String) : Outcome Completion → Outcome Ref
  | .ok (.yielded value g) last =>
    .ok value ((last.leave.observe .suspend).withHeap fun h => h.putState generator (.suspended g))
  | .ok (.done _) last =>
    .error (.raised (.ofCause .stopped)) (last.leave.withHeap fun h => h.putState generator .finished)
  | .error e last =>
    .error (e.withLayer name []) (last.leave.withHeap fun h => h.putState generator .finished)

/-- While the body runs, nobody else puts the generator into a state. -/
theorem Waits.runs_body (waits : Waits generator name f inner m) (fuel : Nat) :
    ((runFrameWith fuel f).runUnder .never (inner.observe .resume)).machine.heap.Runs generator name :=
  ((below_reentry fuel 0).runFrame ⟨false, false⟩ f).carried (carries_runs generator name) _ rfl waits.runs

theorem Waits.resume_eq (waits : Waits generator name f inner m) (fuel : Nat) (before : GeneratorState) :
    (resume (reentry fuel) generator name f before).runUnder .never m =
      asked generator name ((runFrameWith fuel f).runUnder .never (inner.observe .resume)) := by
  obtain ⟨state, found⟩ := waits.payload
  have entered : (m.withHeap fun h => h.putState generator .running).enter = .ok inner := waits.entered
  have runs := waits.runs_body fuel
  -- the generator is put into the running state, and its body runs one call deeper
  show (andThen (change generator (.generator .running)) _).runUnder .never m = _
  rw [runUnder, runUnder_putState found]
  simp only
  show (andThen (resuming generator name (runFrameWith fuel f)) _).runUnder .never _ = _
  rw [runUnder, runUnder, entered]
  simp only
  -- however the body ends, the generator still runs, and is put into the state of that end
  generalize (runFrameWith fuel f).runUnder .never (inner.observe .resume) = o at runs ⊢
  obtain ⟨completion, last⟩ | ⟨e, last⟩ := o
  · have running : last.leave.heap.payload? generator = some (.generator name .running) := runs.running
    cases completion with
    | done value =>
      show (andThen (change generator (.generator .finished)) _).runUnder .never last.leave = _
      rw [runUnder, runUnder_putState running]
      rfl
    | yielded value g =>
      show (andThen (observeAt .suspend) _).runUnder .never last.leave = _
      show (andThen (change generator (.generator (.suspended g))) _).runUnder .never
        (last.leave.observe .suspend) = _
      rw [runUnder, runUnder_putState (m := last.leave.observe .suspend) running]
      rfl
  · have running : last.leave.heap.payload? generator = some (.generator name .running) := runs.running
    cases e with
    | raised e =>
      show (andThen (change generator (.generator .finished)) _).runUnder .never last.leave = _
      rw [runUnder, runUnder_putState running]
      rfl
    | _ => rfl

/-- How a call ends depends on how the body ends. -/
theorem Waits.generatorNext_eq (waits : Waits generator name f inner m) (fuel : Nat) :
    (generatorNext (reentry fuel) generator).runUnder .never m =
      asked generator name ((runFrameWith fuel f).runUnder .never (inner.observe .resume)) := by
  have frame := waits.frame
  simp only [Heap.waiting?] at frame
  rw [runUnder_generatorNext]
  split at frame <;> cases frame <;> rename_i found <;> rw [found] <;> exact waits.resume_eq fuel _

/-- A generator that handed out a value waits where its body stopped. -/
theorem Waits.again (waits : Waits generator name f inner m) {fuel : Nat} {value : Ref} {g : Frame}
    {last : Machine} (inBlocks : g.InBlocks)
    (ran : (runFrameWith fuel f).runUnder .never (inner.observe .resume) = .ok (.yielded value g) last) :
    ∃ inner', Waits generator name g inner'
      ((last.leave.observe .suspend).withHeap fun h => h.putState generator (.suspended g)) ∧
        inner'.bare = last.bare := by
  have runs := waits.runs_body fuel
  have nesting := runUnder_nesting .never (runFrameWith fuel f) (inner.observe .resume)
  rw [ran] at runs nesting
  have running : (last.leave.observe .suspend).heap.payload? generator =
      some (.generator name .running) := runs.running
  -- to be suspended and to run again leaves the heap as it is
  have restored : resumption generator
      ((last.leave.observe .suspend).withHeap fun h => h.putState generator (.suspended g)) =
        (last.leave.observe .suspend).enter :=
    congrArg (fun h => ((last.leave.observe .suspend).withHeap fun _ => h).enter)
      (Heap.putState_putState running (.suspended g))
  have entered : last.leave.enter = .ok last := Machine.enter_leave waits.entered nesting
  -- the event between the two calls makes no difference to a bare machine
  have same := last.leave.bare_enter.symm.trans (last.leave.observe .suspend).bare_enter
  rw [entered] at same
  cases entered' : (last.leave.observe .suspend).enter with
  | error e =>
    rw [entered'] at same
    cases same
  | ok inner' =>
    rw [entered'] at same
    refine ⟨inner', ⟨?_, restored.trans entered', runs.wellFormed.modify _ _, inBlocks⟩, ?_⟩
    · rw [Machine.heap_withHeap, Heap.waiting?, Heap.payload?_putState running]
    · exact (Except.ok.inj same).symm

/-- The bare machine resumes the same frame. -/
theorem Waits.bare (waits : Waits generator name f inner m) :
    Waits generator name f inner.bare m.bare := by
  refine ⟨waits.frame, ?_, waits.wellFormed, waits.inBlocks⟩
  have entered := (m.withHeap fun h => h.putState generator .running).bare_enter
  rw [show (m.withHeap _).enter = .ok inner from waits.entered] at entered
  exact entered

theorem Waits.restTrail_eq (waits : Waits generator name f inner m) (fuel : Nat) :
    restTrail fuel generator m = (straight true fuel [] f inner.bare).surfacing generator name := by
  simp only [restTrail, waits.frame, waits.entered]

theorem Waits.restTrail_bare (waits : Waits generator name f inner m) (fuel : Nat) :
    restTrail fuel generator m.bare = restTrail fuel generator m := by
  rw [waits.restTrail_eq, waits.bare.restTrail_eq, Machine.bare_bare]

theorem overdrawn_drive (fuel : Nat) (generator : Ref) (calls : Nat) {m : Machine} (excess : m.Overdrawn) :
    (drive fuel generator calls m).outcome.machine.Overdrawn := by
  induction calls generalizing m with
  | zero => exact excess
  | succ calls ih =>
    have after := (below_generatorNext (r := ⟨false, false⟩) (below_reentry fuel 0) generator).carried
      carries_overdrawn m excess
    simp only [drive, askTrail]
    cases ran : (generatorNext (reentry fuel) generator).runUnder .never m with
    | ok value m' =>
      rw [ran] at after
      exact ih after
    | error e m' =>
      rw [ran] at after
      exact after

theorem overdrawn_asked (generator : Ref) (name : String) {o : Outcome Completion}
    (excess : o.machine.Overdrawn) : (asked generator name o).machine.Overdrawn := by
  obtain ⟨_ | _, last⟩ | ⟨e, last⟩ := o <;> exact excess

/-- How a call ends when the body of the generator ends in some way. -/
inductive Asked (generator : Ref) (name : String) (t : Trail Completion) : Outcome Ref → Prop where
  /-- The body handed out a value, and the generator waits where it stopped. -/
  | value {g : Frame} {inner m : Machine} (value : Ref) (waits : Waits generator name g inner m)
    (stopped : t.outcome = .ok (.yielded value g) inner.bare) : Asked generator name t (.ok value m)
  /-- The body ended. -/
  | completed {e : Interrupt} {m : Machine} (ended : ∀ value g m, t.outcome ≠ .ok (.yielded value g) m)
    (surfaces : (t.surfacing generator name).outcome = .error e m.bare) :
    Asked generator name t (.error e m)

theorem Waits.asked (waits : Waits generator name f inner m) (fuel : Nat)
    (within : ¬ ((generatorNext (reentry fuel) generator).runUnder .never m).machine.Overdrawn) :
    Asked generator name (straight false fuel [] f inner.bare)
      ((generatorNext (reentry fuel) generator).runUnder .never m) := by
  have mirrors := (mirrors_runFrame fuel [] f).outcome (inner.observe .resume)
  have halts := (resuming_straight fuel [] waits.inBlocks inner.bare).value
  rw [waits.generatorNext_eq] at within ⊢
  -- the engine ends as the trail does, because the call stays within the limit of instructions
  replace mirrors : (straight false fuel [] f inner.bare).outcome = _ :=
    mirrors fun excess => within (overdrawn_asked generator name excess)
  cases ran : (runFrameWith fuel f).runUnder .never (inner.observe .resume) with
  | ok completion last =>
    rw [ran] at mirrors
    cases completion with
    | done value =>
      refine .completed (fun value g m same => ?_) (by simp only [Trail.surfacing, mirrors]; rfl)
      rw [mirrors] at same
      cases same
    | yielded value g =>
      obtain ⟨inner', waits', same⟩ := waits.again (halts _ _ mirrors).2 ran
      exact .value value waits' (by rw [same]; exact mirrors)
  | error e last =>
    rw [ran] at mirrors
    refine .completed (fun value g m same => ?_) (by simp only [Trail.surfacing, mirrors]; rfl)
    rw [mirrors] at same
    cases same

theorem andThen_resumed_of_ended {t : Trail Completion}
    (ended : ∀ value g m, t.outcome ≠ .ok (.yielded value g) m) (run : Runner) (around : List Waiting) :
    t.andThen (resumed run around) = t := by
  obtain ⟨log, ⟨_ | ⟨value, g⟩, last⟩ | ⟨e, last⟩⟩ := t
  · simp only [Trail.andThen, resumed, Trail.after, List.append_nil]
  · exact (ended value g last rfl).elim
  · rfl

/-- How a generator that is asked for items goes on when the body of the first call ends in some way. -/
inductive Driven (fuel calls : Nat) (generator : Ref) (name : String) (t : Trail Completion) :
    Trail Unit → Prop where
  /-- The body handed out a value, and the next call goes on where it stopped. -/
  | value {g : Frame} {inner m : Machine} (value : Ref) (waits : Waits generator name g inner m)
    (stopped : t.outcome = .ok (.yielded value g) inner.bare)
    (within : ¬ (drive fuel generator calls m).outcome.machine.Overdrawn) :
    Driven fuel calls generator name t (((drive fuel generator calls m).after [.handedOut value]).after t.log)
  /-- The body ended. -/
  | completed {e : Interrupt} {m : Machine} (ended : ∀ value g m, t.outcome ≠ .ok (.yielded value g) m)
    (surfaces : (t.surfacing generator name).outcome = .error e m.bare) :
    Driven fuel calls generator name t ⟨t.log, .error e m⟩

theorem Waits.driven (waits : Waits generator name f inner m) {fuel calls : Nat}
    (within : ¬ (drive fuel generator (calls + 1) m).outcome.machine.Overdrawn) :
    Driven fuel calls generator name (straight false fuel [] f inner.bare)
      (drive fuel generator (calls + 1) m) := by
  have asked := waits.asked fuel
  simp only [drive, askTrail, waits.frame, waits.entered] at within ⊢
  generalize (generatorNext (reentry fuel) generator).runUnder .never m = o at asked within ⊢
  cases o with
  | ok value m' =>
    -- a limit that is exceeded in the first call is still exceeded after the later ones
    cases asked fun excess => within (overdrawn_drive fuel generator calls excess) with
    | value _ waits' stopped => exact .value value waits' stopped within
  | error e m' =>
    cases asked within with
    | completed ended surfaces => exact .completed ended surfaces

/-- Whichever has less fuel gets at most as far: one run of what is left of the body, or to ask for items and
to run then what is left of the body. -/
theorem Waits.rest_ordered {up : Bool} {fuel calls p q : Nat}
    (enough : if up then p ≤ fuel ∧ p ≤ q else calls * fuel + q ≤ p)
    (waits : Waits generator name f inner m)
    (within : ¬ (drive fuel generator calls m).outcome.machine.Overdrawn) :
    (restTrail p generator m).Ordered up
      ((drive fuel generator calls m).bare.andThen fun _ m => restTrail q generator m) := by
  induction calls generalizing m f inner p with
  | zero =>
    show (restTrail p generator m).Ordered up (restTrail q generator m.bare)
    rw [waits.restTrail_bare, waits.restTrail_eq, waits.restTrail_eq]
    refine (ordered_straight ?_ [] f inner.bare).surfacing generator name
    cases up with
    | true => exact enough.2
    | false => simpa using enough
  | succ calls ih =>
    -- the fuel that is left to the whole run after the first call
    obtain ⟨p', fuelled, enough'⟩ : ∃ p', Fuelled up fuel p p' ∧
        if up then p' ≤ fuel ∧ p' ≤ q else calls * fuel + q ≤ p' := by
      cases up with
      | true => exact ⟨p, ⟨enough.1, le_rfl⟩, enough⟩
      | false =>
        have more : (calls + 1) * fuel + q ≤ p := enough
        rw [Nat.succ_mul] at more
        exact ⟨p - fuel, show fuel + (p - fuel) ≤ p by omega, show calls * fuel + q ≤ p - fuel by omega⟩
    -- the first call runs the body up to the first value, where the whole run goes on
    have stops := (straight_resumed fuelled [] f inner.bare_bare).surfacing generator name
    have driven := waits.driven within
    rw [waits.restTrail_eq]
    refine stops.trans ?_
    generalize drive fuel generator (calls + 1) m = d at driven ⊢
    generalize straight false fuel [] f inner.bare = t at driven ⊢
    cases driven with
    | completed ended surfaces =>
      rw [andThen_resumed_of_ended ended]
      exact .of_eq (congrArg (Trail.mk t.log) surfaces)
    | @value g inner' m' value waits' stopped within' =>
      -- the next call goes on where the body stopped
      have later := ih enough' waits' within'
      rw [waits'.restTrail_eq] at later
      have whole := (later.after [.handedOut value]).after t.log
      rw [← Trail.after_andThen, ← Trail.after_andThen] at whole
      have same : (t.andThen (resumed (straight true p') [])).surfacing generator name =
          (((straight true p' [] g inner'.bare).surfacing generator name).after [.handedOut value]).after
            t.log := by
        obtain ⟨log, outcome⟩ := t
        obtain rfl : outcome = .ok (.yielded value g) inner'.bare := stopped
        rfl
      rw [same]
      exact whole

/-- While a generator is driven, blocks are dispatched again only where its body is resumed. -/
theorem Waits.resumes_drive {fuel calls : Nat} (waits : Waits generator name f inner m)
    (within : ¬ (drive fuel generator calls m).outcome.machine.Overdrawn) :
    Resumes [] f (drive fuel generator calls m).log := by
  induction calls generalizing m f inner with
  | zero => exact .of_fresh (List.forall_mem_nil _)
  | succ calls ih =>
    have driven := waits.driven within
    have resuming := (resuming_straight fuel [] waits.inBlocks inner.bare).resumes
    generalize drive fuel generator (calls + 1) m = d at driven ⊢
    generalize straight false fuel [] f inner.bare = t at driven resuming ⊢
    cases driven with
    | completed => exact resuming
    | value value waits' _ within' => exact resuming.append_handedOut value (ih waits' within')

/-- A call hands out one value, or it is the last one. -/
theorem Waits.values_drive {fuel calls : Nat} (waits : Waits generator name f inner m)
    (within : ¬ (drive fuel generator calls m).outcome.machine.Overdrawn) :
    (∃ last, (drive fuel generator calls m).outcome = .ok () last ∧
        (drive fuel generator calls m).values.length = calls) ∨
      (∃ e last, (drive fuel generator calls m).outcome = .error e last ∧
        (drive fuel generator calls m).values.length < calls) := by
  induction calls generalizing m f inner with
  | zero => exact .inl ⟨m, rfl, rfl⟩
  | succ calls ih =>
    have driven := waits.driven within
    have silent := (resuming_straight fuel [] waits.inBlocks inner.bare).silent
    generalize drive fuel generator (calls + 1) m = d at driven ⊢
    generalize straight false fuel [] f inner.bare = t at driven silent ⊢
    -- within a call no value is recorded; it is handed out at the end
    have none : t.log.filterMap BodyEvent.value? = [] := List.filterMap_eq_nil_iff.mpr silent
    cases driven with
    | @completed e last =>
      refine .inr ⟨e, last, rfl, ?_⟩
      show (t.log.filterMap BodyEvent.value?).length < calls + 1
      rw [none]
      exact Nat.succ_pos calls
    | @value g inner' m' value waits' stopped within' =>
      have count : (((drive fuel generator calls m').after [.handedOut value]).after t.log).values.length =
          (drive fuel generator calls m').values.length + 1 := by
        show ((t.log ++ (.handedOut value :: (drive fuel generator calls m').log)).filterMap
          BodyEvent.value?).length = _
        rw [List.filterMap_append, none]
        rfl
      rw [count]
      rcases ih waits' within' with ⟨last, ended, more⟩ | ⟨e, last, ended, fewer⟩
      · exact .inl ⟨last, ended, congrArg (· + 1) more⟩
      · exact .inr ⟨e, last, ended, Nat.succ_lt_succ fewer⟩

/-- A generator that was asked for items gave what its body gives in one run: all that were asked for, or
fewer, and then the last call shows how the body ends. -/
inductive Serves (generator : Ref) (name : String) (calls : Nat) (driven : Trail Unit)
    (body : Trail Completion) : Prop where
  /-- Every call handed out a value. -/
  | served (last : Machine) (ended : driven.outcome = .ok () last) (count : driven.values.length = calls)
    (news : driven.news <+: body.log)
  /-- The body ended. -/
  | completed (e : Interrupt) (last : Machine) (ended : driven.outcome = .error e last)
    (surfaces : (body.surfacing generator name).outcome = .error e last.bare)
    (count : driven.values.length < calls) (news : driven.news = body.log)

/-- Suspension is transparent: to ask a generator for items, one after another, dispatches the same
instructions on the same operands, scopes and pending outcomes as one run of its body that records the
values, and ends the same, on the same heap. What the calls do is part of every run with enough fuel, and
what a run does within the fuel of one call the calls do as well. -/
theorem suspension_transparent {m start : Machine} {generator : Ref} {name : String} {f : Frame}
    (fresh : m.heap.payload? generator = some (.generator name (.fresh f))) (unparked : f.parked = [])
    (wellFormed : m.heap.objects.WellFormed) (entered : resumption generator m = .ok start)
    (fuel calls : Nat) (within : ¬ (drive fuel generator calls m).outcome.machine.Overdrawn) :
    let driven := drive fuel generator calls m
    let body := fun n => straight true n [] f start.bare
    Resumes [] f driven.log ∧
      (∀ n, calls * fuel ≤ n → driven.news <+: (body n).log ∧
        (¬ driven.CutOff → Serves generator name calls driven (body n))) ∧
      (∀ n ≤ fuel, ¬ (body n).CutOff →
        ¬ driven.CutOff ∧ Serves generator name calls driven (body n)) ∧
      ∀ n ≤ fuel, calls ≤ (body n).values.length → ∃ last, driven.outcome = .ok () last := by
  intro driven body
  have waits : Waits generator name f start m :=
    ⟨by rw [Heap.waiting?, fresh], entered, wellFormed, Frame.inBlocks_of_unparked unparked⟩
  have rest_eq (n : Nat) : restTrail n generator m = (body n).surfacing generator name :=
    waits.restTrail_eq n
  -- in one run, no block is dispatched again
  have news (n : Nat) : ((body n).surfacing generator name).news = (body n).log := by
    refine List.filter_eq_self.mpr fun e member => ?_
    rw [((plain_straight true n [] f start.bare unparked).fresh e member).again]
    rfl
  have first (n : Nat) : driven.news <+: (driven.bare.andThen fun _ m => restTrail n generator m).news :=
    driven.bare.news_andThen_prefix _
  have ends := waits.values_drive within
  refine ⟨waits.resumes_drive within, fun n enough => ?_, fun n less whole => ?_, fun n less count => ?_⟩
  · -- the calls have less fuel than the run
    have below : Trail.Ordered false (restTrail n generator m)
        (driven.bare.andThen fun _ m => restTrail 0 generator m) := waits.rest_ordered enough within
    rw [rest_eq] at below
    replace below : Trail.Below _ _ := below
    have begins : driven.news <+: (body n).log := news n ▸ (first 0).trans below.news_prefix
    refine ⟨begins, fun whole => ?_⟩
    rcases ends with ⟨last, ended, count⟩ | ⟨e, last, ended, count⟩
    · exact .served last ended count begins
    · rw [Trail.bare_andThen_of_error ended] at below
      cases below with
      | cutOff cut =>
        obtain ⟨m', cut⟩ := cut
        cases cut
        exact (whole ⟨last, ended⟩).elim
      | same news' outcome => exact .completed e last ended outcome.symm count (news'.trans (news n))
  · -- the run has less fuel than each call, and is not cut off
    have below : Trail.Ordered true (restTrail n generator m)
        (driven.bare.andThen fun _ m => restTrail n generator m) := waits.rest_ordered ⟨less, le_rfl⟩ within
    rw [rest_eq] at below
    cases (below : Trail.Below _ _) with
    | cutOff cut => exact (whole (Trail.cutOff_of_surfacing cut)).elim
    | same news' outcome =>
      rw [news n] at news'
      rcases ends with ⟨last, ended, count⟩ | ⟨e, last, ended, count⟩
      · refine ⟨fun cut => ?_, .served last ended count (news' ▸ first n)⟩
        obtain ⟨m', cut⟩ := cut
        rw [show driven.outcome = _ from ended] at cut
        cases cut
      · rw [Trail.bare_andThen_of_error ended] at news' outcome
        refine ⟨fun cut => ?_, .completed e last ended outcome count news'.symm⟩
        obtain ⟨m', cut⟩ := cut
        rw [show driven.outcome = _ from ended] at cut
        cases cut
        exact whole (Trail.cutOff_of_surfacing ⟨_, outcome⟩)
  · have below : Trail.Ordered true (restTrail n generator m)
        (driven.bare.andThen fun _ m => restTrail n generator m) := waits.rest_ordered ⟨less, le_rfl⟩ within
    rw [rest_eq] at below
    replace below : Trail.Below _ _ := below
    rcases ends with ⟨last, ended, -⟩ | ⟨e, last, ended, fewer⟩
    · exact ⟨last, ended⟩
    · -- the calls would have handed out all that the body does, which is more than they did
      rw [Trail.bare_andThen_of_error ended] at below
      have handed : (body n).values <+: driven.values := by
        rw [← Trail.filterMap_news, ← Trail.filterMap_news]
        exact below.news_prefix.filterMap _
      exact (Nat.not_le_of_lt fewer (count.trans handed.length_le)).elim

/-- A body that hands out a value in the guarded section of a block, fails there, and hands out another value
in the cleanup. -/
def pausing : Code := assemble
  [.protect none [.op (.pushBool true), .op .yieldValue, .int 7, .op .throwValue] none
    (some [.op (.pushBool false), .op .yieldValue])]

/-- A machine with a generator of that body. -/
def pausingMachine : Ref × Machine :=
  let m := Machine.boot .unlimited .silent
  let f := Frame.start pausing m.globals
  let (generator, heap) := m.heap.place (.ofPayload (.generator "pausing" (.fresh f)) none)
  (generator, { m with heap })

/-- Whether a trail ends with an error that programs can catch. -/
def endsInError {α : Type} (t : Trail α) : Bool :=
  match t.outcome with
  | .error (.raised _) _ => true
  | _ => false

/-- The third call ends as the body does: with the error that was pending during the cleanup. -/
theorem pausing_transparent :
    let m := pausingMachine.2
    let generator := pausingMachine.1
    let f := Frame.start pausing m.globals
    let driven := drive 12 generator 3 m
    ∃ start, (m.heap.payload? generator = some (.generator "pausing" (.fresh f)) ∧ f.parked = [] ∧
        m.heap.objects.WellFormed ∧ resumption generator m = .ok start ∧
        ¬ driven.outcome.machine.Overdrawn) ∧
      Resumes [] f driven.log ∧ driven.values = [.ofBool true, .ofBool false] ∧
      Serves generator "pausing" 3 driven (straight true 36 [] f start.bare) := by
  intro m generator f driven
  have fresh : m.heap.payload? generator = some (.generator "pausing" (.fresh f)) := by decide +kernel
  have wellFormed : m.heap.objects.WellFormed := .of_full (by decide +kernel) (by decide +kernel)
  obtain ⟨start, entered⟩ : ∃ start, resumption generator m = .ok start := by
    have admitted : (resumption generator m).isOk = true := by decide +kernel
    cases entered : resumption generator m with
    | ok start => exact ⟨start, rfl⟩
    | error e =>
      rw [entered] at admitted
      cases admitted
  have unlimited : driven.outcome.machine.heap.budget = .unlimited := by decide +kernel
  have within : ¬ driven.outcome.machine.Overdrawn := by
    rw [Machine.Overdrawn, unlimited]
    exact id
  have values : driven.values = [.ofBool true, .ofBool false] := by decide +kernel
  have raises : endsInError driven = true := by decide +kernel
  have whole : ¬ driven.CutOff := by
    rintro ⟨m', cut⟩
    rw [endsInError, cut] at raises
    cases raises
  obtain ⟨resumes, served, -, -⟩ := suspension_transparent fresh rfl wellFormed entered 12 3 within
  exact ⟨start, ⟨fresh, rfl, wellFormed, entered, within⟩, resumes, values, (served 36 le_rfl).2 whole⟩

end Engine

end ObjectMachine
