import ObjectMachine.Proofs.Places
import ObjectMachine.Proofs.Running
/-!
The activations of generators. At each place of a computation, those generators run that are active around the
place, and each has one activation: the computation that resumes a generator puts it into the running state,
and however its frame ends, out of it again. This needs that the roots keep a generator while it runs, since
a collection may release any other.
-/
namespace ObjectMachine

/-! ### States -/

namespace GeneratorState

/-- The frame that a generator holds. -/
def frame? : GeneratorState → Option Frame
  | fresh frame | suspended frame => some frame
  | running | finished => none

/-- The ways in which the state of a generator changes: with a frame it is resumed, and out of the running
state it is put back, suspended or finished. -/
inductive Moves : GeneratorState → GeneratorState → Prop where
  | start {state : GeneratorState} (holds : state.frame?.isSome) : Moves state running
  | stop {state : GeneratorState} (halts : state ≠ running) : Moves running state

end GeneratorState

namespace Heap

variable {h h' : Heap} {g g' : Ref} {name : String} {state state' : GeneratorState}

/-- A generator runs. -/
def IsRunning (h : Heap) (g : Ref) : Prop := ∃ name, h.payload? g = some (.generator name .running)

/-- Each generator is as before, or made a move, or was released. -/
def Evolves (h h' : Heap) : Prop :=
  ∀ g name state, h.payload? g = some (.generator name state) →
    h'.object? g = none ∨
      ∃ state', h'.payload? g = some (.generator name state') ∧ (state' = state ∨ state.Moves state')

theorem Evolves.refl (h : Heap) : h.Evolves h :=
  fun _ _ state found => .inr ⟨state, found, .inl rfl⟩

theorem payload?_putState_of_ne (h : Heap) (other : g' ≠ g) (state : GeneratorState) :
    (h.putState g state).payload? g' = h.payload? g' := by
  rw [putState, payload?_modify, if_neg (Ne.symm other)]

theorem isRunning_putState_iff (found : h.payload? g = some (.generator name state)) :
    (h.putState g state').IsRunning g' ↔ if g' = g then state' = .running else h.IsRunning g' := by
  split
  · rename_i same
    subst same
    have after := payload?_putState found state'
    constructor
    · rintro ⟨name', running⟩
      rw [after] at running
      cases running
      rfl
    · rintro rfl
      exact ⟨name, after⟩
  · rename_i other
    simp only [IsRunning, payload?_putState_of_ne h other]

end Heap

/-! ### Operations -/

namespace Op

variable {due : Schedule} {α : Type} {r : Rights} {m : Machine} {g : Ref}

/-- An operation without the right to put generators into a state leaves each as it is or releases it. -/
theorem evolves_perform (o : Op α) (w : m.heap.objects.WellFormed) (permitted : o.Permitted r)
    (none : r.generators = false) : m.heap.Evolves (o.perform due m).machine.heap := by
  intro g name state found
  have spares (c : Change) (changes : o.change? = some (g, c)) :
      c.onPayload (.generator name state) = .generator name state :=
    (o.onPayload_eq_generator_iff permitted none changes).mpr rfl
  rcases o.payload?_perform w permitted spares found with same | gone
  · exact .inr ⟨state, same, .inl rfl⟩
  · exact .inl gone.1

/-- Such an operation makes no generator run. -/
theorem isRunning_of_perform (o : Op α) (w : m.heap.objects.WellFormed) (permitted : o.Permitted r)
    (none : r.generators = false) (running : (o.perform due m).machine.heap.IsRunning g) :
    m.heap.IsRunning g := by
  obtain ⟨name, runs⟩ := running
  obtain ⟨object, occupied, payload⟩ := Option.map_eq_some_iff.mp runs
  have leaves : o.Leaves due m g _ := o.leaves_perform w permitted g
  cases leaves with
  | same at_g => exact ⟨name, (Heap.payload?_congr at_g).symm.trans runs⟩
  | stored new vacant at_g idle =>
    cases occupied.symm.trans at_g
    exact absurd payload (idle name)
  | changed c changes at_g =>
    obtain ⟨before, found, rfl⟩ := Option.map_eq_some_iff.mp (at_g.symm.trans occupied)
    refine ⟨name, Option.map_eq_some_iff.mpr ⟨before, found, ?_⟩⟩
    exact (o.onPayload_eq_generator_iff permitted none changes).mp payload
  | released collects unkept at_g => cases occupied.symm.trans at_g

/-- A generator that runs and is kept goes on to run. -/
theorem isRunning_perform (o : Op α) (w : m.heap.objects.WellFormed) (permitted : o.Permitted r)
    (none : r.generators = false) (keeps : m.Keeps g) (running : m.heap.IsRunning g) :
    (o.perform due m).machine.heap.IsRunning g := by
  obtain ⟨name, runs⟩ := running
  have spares (c : Change) (changes : o.change? = some (g, c)) :
      c.onPayload (.generator name .running) = .generator name .running :=
    (o.onPayload_eq_generator_iff permitted none changes).mpr rfl
  exact ⟨name, (o.payload?_perform w permitted spares runs).resolve_right fun gone => gone.2.2 keeps⟩

end Op

/-! ### Activations -/

/-- The given generators run and no others, and the roots keep them. -/
structure Machine.Busy (running : List Ref) (m : Machine) : Prop where
  /-- The slots are in order. -/
  wellFormed : m.heap.objects.WellFormed
  /-- Each of them runs once. -/
  nodup : running.Nodup
  /-- They are those that run. -/
  isRunning_iff : ∀ g, m.heap.IsRunning g ↔ g ∈ running
  /-- While they run, they cannot be released. -/
  keeps : ∀ g ∈ running, m.Keeps g

namespace Machine.Busy

variable {running : List Ref} {m m' : Machine} {g : Ref} {name : String} {state : GeneratorState}

theorem of_eq (busy : m.Busy running) (heap : m'.heap = m.heap) (roots : m'.roots = m.roots) :
    m'.Busy running := by
  refine ⟨heap ▸ busy.wellFormed, busy.nodup, fun g => heap ▸ busy.isRunning_iff g, fun g mem => ?_⟩
  exact (busy.keeps g mem).of_eq heap roots

/-- Out of a computation in which the same generators run as before. -/
theorem of_retains {r : Rights} (busy : m.Busy running) (retains : m.Retains r m')
    (same : ∀ g, m'.heap.IsRunning g ↔ m.heap.IsRunning g) : m'.Busy running := by
  refine ⟨retains.wellFormed, busy.nodup, fun g => (same g).trans (busy.isRunning_iff g), ?_⟩
  exact fun g mem => retains.keeps (busy.keeps g mem)

theorem keeps_putState {o : Ref} (keeps : m.Keeps o) (g : Ref) (state : GeneratorState) :
    (m.withHeap fun h => h.putState g state).Keeps o := by
  refine keeps.mono (fun _ mem => mem) fun c f _ found => ?_
  show (m.heap.putState g state).payload? c = _
  rw [Heap.putState, Heap.payload?_modify, found]
  exact ite_self _

/-- A generator that holds a frame starts to run. -/
theorem start (busy : m.Busy running) (found : m.heap.payload? g = some (.generator name state))
    (holds : state.frame?.isSome) (keeps : m.Keeps g) :
    (m.withHeap fun h => h.putState g .running).Busy (g :: running) := by
  have idle : g ∉ running := by
    intro mem
    obtain ⟨name', runs⟩ := (busy.isRunning_iff g).mpr mem
    cases found.symm.trans runs
    cases holds
  refine ⟨busy.wellFormed.modify _ _, List.nodup_cons.mpr ⟨idle, busy.nodup⟩, fun g' => ?_, ?_⟩
  · rw [Machine.heap_withHeap, Heap.isRunning_putState_iff found, List.mem_cons]
    by_cases same : g' = g
    · simp only [same, if_true, true_or]
    · rw [if_neg same, busy.isRunning_iff g', or_iff_right same]
  · refine List.forall_mem_cons.mpr ⟨keeps_putState keeps g _, fun g' mem => ?_⟩
    exact keeps_putState (busy.keeps g' mem) g _

/-- The generator that started last stops to run. -/
theorem stop (busy : m.Busy (g :: running)) (halts : state ≠ .running) :
    (m.withHeap fun h => h.putState g state).Busy running := by
  obtain ⟨idle, nodup⟩ := List.nodup_cons.mp busy.nodup
  obtain ⟨name, found⟩ := (busy.isRunning_iff g).mpr List.mem_cons_self
  refine ⟨busy.wellFormed.modify _ _, nodup, fun g' => ?_, fun g' mem => ?_⟩
  · rw [Machine.heap_withHeap, Heap.isRunning_putState_iff found]
    by_cases same : g' = g
    · rw [if_pos same, same]
      exact iff_of_false halts idle
    · rw [if_neg same, busy.isRunning_iff g', List.mem_cons, or_iff_right same]
  · exact keeps_putState (busy.keeps g' (List.mem_cons_of_mem _ mem)) g _

/-- The generator that started last runs. -/
theorem payload? (busy : m.Busy (g :: running)) :
    ∃ name, m.heap.payload? g = some (.generator name .running) :=
  (busy.isRunning_iff g).mpr List.mem_cons_self

end Machine.Busy

namespace Place

variable {due : Schedule} {running : List Ref} {p : Place} {g : Ref}

/-- Besides some generators that run around a computation, those run that are active around a place in it,
and the moment there leaves them as they are or makes them move. -/
structure Sound (due : Schedule) (running : List Ref) (p : Place) : Prop where
  /-- Each has one activation. -/
  nodup : (p.active ++ running).Nodup
  /-- Those that are active run, and no others. -/
  isRunning_iff : ∀ g, p.moment.machine.heap.IsRunning g ↔ g ∈ p.active ++ running
  /-- The moment makes them move, if anything. -/
  evolves : p.moment.machine.heap.Evolves (p.moment.heapAfter due)

theorem sound_outside {moment : Moment} (busy : moment.machine.Busy running)
    (evolves : moment.machine.heap.Evolves (moment.heapAfter due)) : (outside moment).Sound due running :=
  ⟨busy.nodup, busy.isRunning_iff, evolves⟩

theorem Sound.within (sound : p.Sound due running) (layer : Layer) : (p.within layer).Sound due running :=
  ⟨sound.nodup, sound.isRunning_iff, sound.evolves⟩

/-- A generator that runs around the activation of another one is active around it. -/
theorem Sound.resumed (sound : p.Sound due (g :: running)) : (p.resumed g).Sound due running := by
  have all : (p.resumed g).active ++ running = p.active ++ g :: running := List.append_cons .. |>.symm
  exact ⟨all ▸ sound.nodup, all ▸ sound.isRunning_iff, sound.evolves⟩

theorem Sound.forgiven (sound : p.Sound due running) : p.forgiven.Sound due running :=
  ⟨sound.nodup, sound.isRunning_iff, sound.evolves⟩

end Place

namespace Engine

/-- A computation ends while the same generators run as at its start, and its places are sound. -/
structure Steady (due : Schedule) (running : List Ref) (m : Machine) {α : Type} (x : Engine α) : Prop where
  /-- The same generators run. -/
  busy : (x.runUnder due m).machine.Busy running
  /-- The places are sound. -/
  sound : ∀ held, ∀ p ∈ x.places due held m, p.Sound due running

variable {α β : Type} {due : Schedule} {running : List Ref} {m : Machine} {g : Ref} {name : String}

theorem sound_of_mem_placesInside {places : Machine → List Place} (busy : m.Busy running)
    (inside : ∀ inner, m.enter = .ok inner → ∀ p ∈ places inner, p.Sound due running) :
    ∀ p ∈ m.placesInside places, p.Sound due running := by
  intro p mem
  simp only [Machine.placesInside] at mem
  cases entered : m.enter with
  | error e =>
    simp only [entered, List.mem_singleton] at mem
    exact mem ▸ Place.sound_outside busy (.refl _)
  | ok inner =>
    simp only [entered, List.mem_cons] at mem
    rcases mem with rfl | mem
    · exact Place.sound_outside busy (.refl _)
    · exact inside inner entered p mem

namespace Steady

theorem give (busy : m.Busy running) (a : α) : (Engine.give a).Steady due running m :=
  ⟨busy, fun _ _ mem => nomatch mem⟩

theorem throw (busy : m.Busy running) (e : Interrupt) : (Engine.throw e : Engine α).Steady due running m := by
  refine ⟨busy, fun held p mem => ?_⟩
  rw [List.mem_singleton.mp mem]
  exact Place.sound_outside busy (.refl _)

theorem act {o : Op α} (busy : m.Busy running) (after : (o.perform due m).machine.Busy running)
    (evolves : m.heap.Evolves (o.perform due m).machine.heap) : (Engine.act o).Steady due running m := by
  refine ⟨after, fun held p mem => ?_⟩
  rw [List.mem_singleton.mp mem]
  exact Place.sound_outside busy evolves

theorem permitted {r : Rights} {o : Op α} (permitted : o.Permitted r) (none : r.generators = false)
    (busy : m.Busy running) : (Engine.act o).Steady due running m := by
  have w := busy.wellFormed
  refine .act busy ?_ (o.evolves_perform w permitted none)
  refine busy.of_retains ((carries_retains due).act o permitted w) fun g => ?_
  constructor
  · exact o.isRunning_of_perform w permitted none
  · intro runs
    exact o.isRunning_perform w permitted none (busy.keeps g ((busy.isRunning_iff g).mp runs)) runs

theorem andThen {x : Engine α} {f : α → Engine β} (plain : ∀ places, x.concluding places = places)
    (first : x.Steady due running m)
    (later : ∀ a m', x.runUnder due m = .ok a m' → m'.Busy running → (f a).Steady due running m') :
    (Engine.andThen x f).Steady due running m := by
  have busy := first.busy
  constructor
  · simp only [runUnder]
    cases ran : x.runUnder due m <;> rw [ran] at busy
    · exact (later _ _ ran busy).busy
    · exact busy
  · intro held p mem
    simp only [places, List.mem_append] at mem
    rcases mem with mem | mem
    · exact first.sound held p mem
    · cases ran : x.runUnder due m <;> rw [ran] at busy
      · simp only [ran, plain] at mem
        exact (later _ _ ran busy).sound held p mem
      · simp only [ran, List.not_mem_nil] at mem

theorem executing {x : Engine α} (site : Site) (inner : x.Steady due running m) :
    (Engine.executing site x).Steady due running m := by
  have busy := inner.busy
  refine ⟨?_, inner.sound⟩
  simp only [runUnder]
  cases ran : x.runUnder due m <;> rw [ran] at busy <;> exact busy

theorem calling {x : Engine α} (args : List Ref) (busy : m.Busy running)
    (inner : ∀ inner : Machine, inner.heap = m.heap → inner.roots = m.roots →
      x.Steady due running inner) :
    (Engine.calling name args x).Steady due running m := by
  have inside {inside : Machine} (entered : m.enter = .ok inside) :
      x.Steady due running (inside.observe (.call name)) :=
    inner (inside.observe _) (Machine.heap_of_enter entered :) (Machine.roots_of_enter entered :)
  constructor
  · simp only [runUnder]
    cases entered : m.enter with
    | error e => exact busy
    | ok inside' =>
      have after := (inside entered).busy
      dsimp only
      cases ran : x.runUnder due (inside'.observe (.call name)) <;> rw [ran] at after <;>
        exact after.of_eq rfl rfl
  · intro held
    refine sound_of_mem_placesInside busy fun inside' entered p mem => ?_
    obtain ⟨q, inCall, rfl⟩ := List.mem_map.mp mem
    exact ((inside entered).sound held q inCall).within _

theorem nested {x : Engine α} (busy : m.Busy running)
    (inner : ∀ inner : Machine, inner.heap = m.heap → inner.roots = m.roots →
      x.Steady due running inner) :
    (Engine.nested x).Steady due running m := by
  constructor
  · simp only [runUnder]
    cases entered : m.enter with
    | error e => exact busy
    | ok inside =>
      have after := (inner inside (Machine.heap_of_enter entered) (Machine.roots_of_enter entered)).busy
      dsimp only
      cases ran : x.runUnder due inside <;> rw [ran] at after <;> exact after.of_eq rfl rfl
  · intro held
    exact sound_of_mem_placesInside busy fun inside entered =>
      (inner inside (Machine.heap_of_enter entered) (Machine.roots_of_enter entered)).sound held

theorem inSection {x : Engine Completion} (phase : Phase) (resumed : Bool) (busy : m.Busy running)
    (inner : ∀ inner : Machine, inner.heap = m.heap → inner.roots = m.roots →
      x.Steady due running inner) :
    (Engine.inSection phase resumed x).Steady due running m := by
  constructor
  · simp only [runUnder]
    cases entered : m.enter with
    | error e => exact busy
    | ok inside =>
      have after := (inner inside (Machine.heap_of_enter entered) (Machine.roots_of_enter entered)).busy
      dsimp only
      cases ran : x.runUnder due inside with
      | ok a m' =>
        rw [ran] at after
        exact after.of_eq rfl rfl
      | error e m' =>
        rw [ran] at after
        cases e <;> exact after.of_eq rfl rfl
  · intro held p mem
    simp only [places] at mem
    cases entered : m.enter with
    | error e =>
      simp only [entered, List.mem_singleton] at mem
      exact mem ▸ Place.sound_outside busy (.refl _)
    | ok inside =>
      simp only [entered, List.mem_cons, List.mem_append, List.not_mem_nil, or_false] at mem
      rcases mem with rfl | mem | rfl
      · exact Place.sound_outside busy (.refl _)
      · exact (inner inside (Machine.heap_of_enter entered) (Machine.roots_of_enter entered)).sound held p mem
      · exact Place.sound_outside busy (.refl _)

theorem catching {x : Engine α} (inner : x.Steady due running m) :
    (Engine.catching x).Steady due running m := by
  have busy := inner.busy
  refine ⟨?_, inner.sound⟩
  simp only [runUnder]
  cases ran : x.runUnder due m with
  | ok a m' => rw [ran] at busy; exact busy
  | error e m' => rw [ran] at busy; cases e <;> exact busy

theorem forgiving {x : Engine α} (inner : x.Steady due running m) :
    (Engine.forgiving x).Steady due running m := by
  have busy := inner.busy
  constructor
  · simp only [runUnder]
    cases ran : x.runUnder due m with
    | ok a m' => rw [ran] at busy; exact busy
    | error e m' =>
      rw [ran] at busy
      dsimp only
      split <;> exact busy
  · intro held p mem
    obtain ⟨q, inCall, rfl⟩ := List.mem_map.mp mem
    exact (inner.sound held q inCall).forgiven

theorem keeping {r : Rights} {x : Engine α} {nodes : List Node} (busy : m.Busy running)
    (inner : x.Steady due running (m.pushRoots nodes))
    (retains : m.Retains r ((Engine.keeping nodes x).runUnder due m).machine) :
    (Engine.keeping nodes x).Steady due running m := by
  refine ⟨busy.of_retains retains fun g => ?_, inner.sound⟩
  -- the roots that were added are dropped, but the heap stays
  have same : ((Engine.keeping nodes x).runUnder due m).machine.heap =
      (x.runUnder due (m.pushRoots nodes)).machine.heap := by
    simp only [runUnder]
    cases x.runUnder due (m.pushRoots nodes) <;> rfl
  rw [same, busy.isRunning_iff, inner.busy.isRunning_iff]

end Steady

/-! ### Generators -/

section

variable {k : Reentry} {state : GeneratorState}

end

/-! ### Computations -/

/-- Without the right to put generators into a state, a computation does not resume any by itself. -/
theorem BelowWith.plain {kept : List Ref} {r : Rights} {x y : Engine α} (below : BelowWith kept r x y)
    (none : r.generators = false) (places : List Place) : x.concluding places = places := by
  cases below with
  | resuming generator name right inner =>
    rw [right] at none
    cases none
  | _ => rfl

end Engine

end ObjectMachine
