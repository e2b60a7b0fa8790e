import ObjectMachine.Proofs.Failure
import ObjectMachine.Proofs.Places
import ObjectMachine.Proofs.Running
/-!
Errors that leave calls. An error that ends a computation arose at a place in it, and remembers since then
the functions and generators whose activations enclose that place within the computation: each once, from
the inside out, with its name and arguments. A call that is refused adds none. Generators, protected blocks
and loops hold errors back and raise them later: a generator adds itself, and the others add nothing.
-/
namespace ObjectMachine

/-! ### Layers -/

namespace Raised

/-- The error after it passed through calls, innermost first. -/
def through (e : Raised) (layers : List Layer) : Raised := { e with trace := e.trace ++ layers }

@[simp] theorem through_nil (e : Raised) : e.through [] = e := by
  simp only [through, List.append_nil]

@[simp] theorem through_through (e : Raised) (inner outer : List Layer) :
    (e.through inner).through outer = e.through (inner ++ outer) := by
  simp only [through, List.append_assoc]

theorem withLayer_eq_through (e : Raised) (name : String) (args : List Ref) :
    e.withLayer name args = e.through [⟨name, args⟩] :=
  rfl

end Raised

namespace Interrupt

/-- Whether the interruption is an error, which remembers the calls it passed through. -/
def isError : Interrupt → Bool
  | raised _ | exhausted _ => true
  | _ => false

/-- The interruption after it passed through calls, innermost first. -/
def through (layers : List Layer) : Interrupt → Interrupt
  | raised e => raised (e.through layers)
  | exhausted e => exhausted (e.through layers)
  | other => other

@[simp] theorem through_nil (i : Interrupt) : i.through [] = i := by
  cases i <;> simp only [through, Raised.through_nil]

theorem withLayer_through (i : Interrupt) (layers : List Layer) (name : String) (args : List Ref) :
    (i.through layers).withLayer name args = i.through (layers ++ [⟨name, args⟩]) := by
  cases i <;>
    simp only [through, withLayer, Raised.withLayer_eq_through, Raised.through_through]

@[simp] theorem isError_withLayer (i : Interrupt) (name : String) (args : List Ref) :
    (i.withLayer name args).isError = i.isError := by
  cases i <;> rfl

/-- An error does not remember the instructions it passed through. -/
theorem atSite_of_isError {i : Interrupt} (error : i.isError) (site : Site) : i.atSite site = i := by
  cases i <;> first | rfl | cases error

theorem isError_of_atSite {i : Interrupt} {site : Site} (error : (i.atSite site).isError) : i.isError := by
  cases i <;> first | rfl | cases error

theorem isOfProgram_of_isError {i : Interrupt} (error : i.isError) : i.isOfProgram := by
  cases i <;> first | rfl | cases error

/-- What an error was before it passed through calls is the same error. -/
theorem eq_raised_of_through {i : Interrupt} {layers : List Layer} {e : Raised}
    (same : raised e = i.through layers) : ∃ e₀, i = raised e₀ ∧ e = e₀.through layers := by
  cases i with
  | raised e₀ => exact ⟨e₀, rfl, Interrupt.raised.inj same⟩
  | _ => cases same

end Interrupt

namespace Moment

/-- The interruption that arises at a moment, the refusal of a call included. -/
def interrupt? (due : Schedule) : Moment → Option Interrupt
  | acts o _ m =>
    match o.perform due m with
    | .ok _ _ => none
    | .error e _ => some e
  | throws e _ => some e
  | refuses m =>
    match m.enter with
    | .ok _ => none
    | .error e => some (.ofExhaustion e)
  | bars _ _ e _ => some (.ofExhaustion e)
  | forgiven moment => moment.interrupt? due
  | enters _ | opens .. | shuts .. => none

end Moment

/-! ### Origins -/

variable {due : Schedule}

/-- Among some places is the last one at which something happens, and there an interruption arises that is,
after it passed through the calls around the place, the given one. -/
def ArisesIn (due : Schedule) (places : List Place) (i : Interrupt) : Prop :=
  ∃ before place after i₀, places = before ++ place :: after ∧
    place.moment.interrupt? due = some i₀ ∧ place.moment.isForgiven = false ∧
    (∀ later ∈ after, later.moment.isClosing) ∧ i = i₀.through place.calls

namespace ArisesIn

variable {places : List Place} {i : Interrupt}

/-- It arises at a moment that no call encloses, and nothing happens any more. -/
theorem outside {moment : Moment} (arises : moment.interrupt? due = some i)
    (kept : moment.isForgiven = false) : ArisesIn due [.outside moment] i :=
  ⟨[], .outside moment, [], i, rfl, arises, kept, List.forall_mem_nil _, (i.through_nil).symm⟩

theorem prepend (h : ArisesIn due places i) (earlier : List Place) : ArisesIn due (earlier ++ places) i := by
  obtain ⟨before, place, after, i₀, rfl, rest⟩ := h
  exact ⟨earlier ++ before, place, after, i₀, (List.append_assoc _ _ _).symm, rest⟩

theorem append_closing (h : ArisesIn due places i) {last : List Place}
    (closing : ∀ later ∈ last, later.moment.isClosing) : ArisesIn due (places ++ last) i := by
  obtain ⟨before, place, after, i₀, rfl, arises, kept, closes, leads⟩ := h
  refine ⟨before, place, after ++ last, i₀, by simp, arises, kept, ?_, leads⟩
  exact List.forall_mem_append.mpr ⟨closes, closing⟩

/-- What an interruption passes through does not depend on the generators that are active. -/
theorem of_view {places' : List Place} (h : ArisesIn due places i)
    (same : places'.map Place.view = places.map Place.view) : ArisesIn due places' i := by
  obtain ⟨before, place, after, i₀, rfl, arises, kept, closes, leads⟩ := h
  rw [List.map_append, List.map_cons] at same
  obtain ⟨before', rest', rfl, -, rest⟩ := List.map_eq_append_iff.mp same
  obtain ⟨place', after', rfl, here, later⟩ := List.map_eq_cons_iff.mp rest
  obtain ⟨calls, moment⟩ := Prod.ext_iff.mp here
  refine ⟨before', place', after', i₀, rfl, ?_, ?_, fun p mem => ?_, ?_⟩
  · exact (congrArg (Moment.interrupt? due) moment).trans arises
  · exact (congrArg Moment.isForgiven moment).trans kept
  · -- a later place has the moment of one of those that are closing
    have found : p.view ∈ after.map Place.view := later ▸ List.mem_map_of_mem mem
    obtain ⟨q, inAfter, shown⟩ := List.mem_map.mp found
    exact (congrArg Moment.isClosing (congrArg Prod.snd shown)) ▸ closes q inAfter
  · exact leads.trans (congrArg i₀.through calls.symm)

/-- Out of a call, an interruption remembers the call. -/
theorem within (h : ArisesIn due places i) (name : String) (args : List Ref) :
    ArisesIn due (places.map (Place.within ⟨name, args⟩)) (i.withLayer name args) := by
  obtain ⟨before, place, after, i₀, rfl, arises, kept, closes, rfl⟩ := h
  refine ⟨before.map (Place.within ⟨name, args⟩), place.within ⟨name, args⟩,
    after.map (Place.within ⟨name, args⟩), i₀, by simp, arises, kept, ?_, i₀.withLayer_through _ _ _⟩
  exact List.forall_mem_map.mpr closes

theorem inside {m inner : Machine} {places : Machine → List Place} (entered : m.enter = .ok inner)
    (h : ArisesIn due (places inner) i) : ArisesIn due (m.placesInside places) i := by
  simp only [Machine.placesInside, entered]
  exact h.prepend [.outside (.enters m)]

theorem refused {m : Machine} {places : Machine → List Place} {e : Exhaustion}
    (refused : m.enter = .error e) : ArisesIn due (m.placesInside places) (.ofExhaustion e) := by
  simp only [Machine.placesInside, refused]
  exact outside (by simp only [Moment.interrupt?, refused]) rfl

end ArisesIn

namespace Engine

variable {α : Type} {m m' : Machine} {i : Interrupt}

/-- An error that ends a computation arose in it, and passed through the calls around the place where it
arose. -/
theorem arisesIn_places (x : Engine α) (held : List Node) (run : x.runUnder due m = .error i m')
    (error : i.isError) : ArisesIn due (x.places due held m) i := by
  -- by induction on the computation; a computation that catches errors ends with none that was caught
  induction x generalizing held m m' i with
  | give a => cases run
  | throw e =>
    cases run
    exact .outside rfl rfl
  | act o =>
    simp only [runUnder] at run
    exact .outside (by simp only [Moment.interrupt?, run]) rfl
  | andThen x f ihx ihf =>
    simp only [places]
    cases ran : x.runUnder due m with
    | error e m₁ =>
      simp only [runUnder, ran] at run
      cases run
      exact (ihx held ran error).append_closing (List.forall_mem_nil _)
    | ok a m₁ =>
      simp only [runUnder, ran] at run
      have later := (ihf a held run error).of_view (x.map_view_concluding _)
      exact later.prepend _
  | keeping nodes x ih =>
    simp only [runUnder] at run
    cases ran : x.runUnder due (m.pushRoots nodes) with
    | ok a m₁ => simp only [ran, dropRoots] at run; cases run
    | error e m₁ =>
      simp only [ran, dropRoots] at run
      cases run
      exact ih held ran error
  | holding nodes x ih => exact ih _ (by simpa only [runUnder] using run) error
  | executing site x ih =>
    simp only [runUnder] at run
    cases ran : x.runUnder due m with
    | ok a m₁ => simp only [ran] at run; cases run
    | error e m₁ =>
      simp only [ran] at run
      cases run
      have inner : e.isError := Interrupt.isError_of_atSite error
      rw [Interrupt.atSite_of_isError inner]
      exact ih held ran inner
  | calling name args x ih =>
    simp only [runUnder] at run
    cases entered : m.enter with
    | error e =>
      simp only [entered] at run
      cases run
      exact .refused entered
    | ok inner =>
      simp only [entered] at run
      cases ran : x.runUnder due (inner.observe (.call name)) with
      | ok a m₁ => simp only [ran] at run; cases run
      | error e m₁ =>
        simp only [ran] at run
        cases run
        have passed := (ih held ran (by simpa using error)).within name args
        exact .inside entered passed
  | nested x ih =>
    simp only [runUnder] at run
    cases entered : m.enter with
    | error e =>
      simp only [entered] at run
      cases run
      exact .refused entered
    | ok inner =>
      simp only [entered] at run
      cases ran : x.runUnder due inner with
      | ok a m₁ => simp only [ran] at run; cases run
      | error e m₁ =>
        simp only [ran] at run
        cases run
        exact .inside entered (ih held ran error)
  | inSection phase resumed x ih =>
    simp only [runUnder] at run
    simp only [places]
    cases entered : m.enter with
    | error e =>
      simp only [entered] at run
      cases run
      exact .outside rfl rfl
    | ok inner =>
      simp only [entered] at run
      cases ran : x.runUnder due inner with
      | ok a m₁ => simp only [ran] at run; cases run
      | error e m₁ =>
        simp only [ran] at run
        have same : e = i := by
          cases e <;> cases run <;> rfl
        subst same
        have closes : ∀ later ∈ [Place.outside (.shuts phase m (.error e m₁))],
            later.moment.isClosing :=
          List.forall_mem_singleton.mpr rfl
        simp only [ran]
        exact ((ih held ran error).append_closing closes).prepend [.outside (.opens phase resumed m)]
  | resuming generator name x ih =>
    simp only [runUnder] at run
    cases entered : m.enter with
    | error e => simp only [entered] at run; cases run
    | ok inner =>
      simp only [entered] at run
      cases ran : x.runUnder due (inner.observe .resume) with
      | ok a m₁ => simp only [ran] at run; cases run
      | error e m₁ =>
        simp only [ran] at run
        have same : e.withLayer name [] = i := by
          cases e <;> cases run <;> rfl
        subst same
        have passed := (ih held ran (by simpa using error)).within name []
        exact (ArisesIn.inside entered passed).of_view (Place.map_view_resumed generator _)
  | catching x ih =>
    simp only [runUnder] at run
    cases ran : x.runUnder due m with
    | ok a m₁ => simp only [ran] at run; cases run
    | error e m₁ =>
      simp only [ran] at run
      have same : e = i := by
        cases e <;> cases run <;> rfl
      exact ih held (same ▸ ran) error
  | forgiving x ih =>
    simp only [runUnder] at run
    cases ran : x.runUnder due m with
    | ok a m₁ => simp only [ran] at run; cases run
    | error e m₁ =>
      simp only [ran] at run
      split at run
      · cases run
      · rename_i foreign
        cases run
        exact absurd (Interrupt.isOfProgram_of_isError error) foreign

/-! ### Generators -/

/-- An error that says why a call could not be started or continued; it passed through no call yet. -/
def IsNew (e : Raised) : Prop := (∃ cause, e = .ofCause cause) ∨ ∃ refusal, e = .ofExhaustion refusal

theorem IsNew.trace {e : Raised} (new : IsNew e) : e.trace = [] := by
  rcases new with ⟨cause, rfl⟩ | ⟨refusal, rfl⟩ <;> rfl

variable {k : Reentry} {generator : Ref} {name : String} {frame : Frame}

theorem not_raised_of_change {r : Ref} {c : Change} {e : Raised}
    (run : (change r c).runUnder due m = .error (.raised e) m') : False := by
  simp only [change, runUnder, Op.perform] at run
  split at run <;> cases run

/-- How the resumption of a generator ends if it does not interrupt: the call was refused, or the frame ran,
to an end or to an error that programs can catch. -/
theorem resuming_ok {x : Engine Completion} {ended : Except Raised (Except Raised Completion)}
    (run : (resuming generator name x).runUnder due m = .ok ended m') :
    (∃ refusal, ended = .error (.ofExhaustion refusal)) ∨ (∃ completion, ended = .ok (.ok completion)) ∨
      ∃ inner e m₁, x.runUnder due inner = .error (.raised e) m₁ ∧ ended = .ok (.error e) := by
  simp only [runUnder] at run
  cases entered : m.enter with
  | error refusal =>
    simp only [entered] at run
    cases run
    exact .inl ⟨refusal, rfl⟩
  | ok inner =>
    simp only [entered] at run
    cases ran : x.runUnder due (inner.observe .resume) with
    | ok completion m₁ =>
      simp only [ran] at run
      cases run
      exact .inr (.inl ⟨completion, rfl⟩)
    | error e m₁ =>
      simp only [ran] at run
      cases e with
      | raised e =>
        cases run
        exact .inr (.inr ⟨_, e, m₁, ran, rfl⟩)
      | _ => cases run

theorem not_raised_of_resuming {x : Engine Completion} {e : Raised}
    (run : (resuming generator name x).runUnder due m = .error (.raised e) m') : False := by
  simp only [runUnder] at run
  cases entered : m.enter with
  | error refusal => simp only [entered] at run; cases run
  | ok inner =>
    simp only [entered] at run
    cases ran : x.runUnder due (inner.observe .resume) with
    | ok completion m₁ => simp only [ran] at run; cases run
    | error i m₁ =>
      simp only [ran] at run
      cases i <;> cases run

/-- An error that leaves a generator as it is resumed is new, or left the frame of the generator and passed
through it. -/
theorem resume_error {before : GeneratorState} {e : Raised}
    (run : (resume k generator name frame before).runUnder due m = .error (.raised e) m') :
    IsNew e ∨ ∃ inner e₀ m₁, (k.runFrame frame).runUnder due inner = .error (.raised e₀) m₁ ∧
      e = e₀.through [⟨name, []⟩] := by
  -- what puts the generator into a state raises nothing
  have afterChange {state : GeneratorState} {α : Type} {y : Engine α} {m : Machine}
      (run : (do change generator (.generator state); y).runUnder due m = .error (.raised e) m') :
      ∃ m₁, y.runUnder due m₁ = .error (.raised e) m' := by
    rcases error_of_bind run with changed | ⟨-, m₁, -, later⟩
    · exact (not_raised_of_change changed).elim
    · exact ⟨m₁, later⟩
  obtain ⟨m₁, run⟩ := afterChange run
  rcases error_of_bind run with resumed | ⟨ended, m₂, resumed, later⟩
  · exact (not_raised_of_resuming resumed).elim
  rcases resuming_ok resumed with ⟨refusal, rfl⟩ | ⟨completion, rfl⟩ | ⟨inner, e₀, m₃, ran, rfl⟩
  · obtain ⟨m₃, thrown⟩ := afterChange later
    cases thrown
    exact .inl (.inr ⟨refusal, rfl⟩)
  · left
    cases completion with
    | done value =>
      obtain ⟨m₃, stopped⟩ := afterChange later
      cases stopped
      exact .inl ⟨.stopped, rfl⟩
    | yielded value frame =>
      rcases error_of_bind later with observed | ⟨-, m₃, -, rest⟩
      · cases observed
      · obtain ⟨m₄, given⟩ := afterChange rest
        cases given
  · obtain ⟨m₄, thrown⟩ := afterChange later
    cases thrown
    exact .inr ⟨inner, e₀, m₃, ran, rfl⟩

/-- An error that leaves a generator that was asked for an item is new, or left the frame that the generator
held and passed through the generator. -/
theorem generatorNext_error {e : Raised}
    (run : (generatorNext k generator).runUnder due m = .error (.raised e) m') :
    IsNew e ∨ ∃ name frame inner e₀ m₁,
      (m.heap.payload? generator = some (.generator name (.fresh frame)) ∨
        m.heap.payload? generator = some (.generator name (.suspended frame))) ∧
      (k.runFrame frame).runUnder due inner = .error (.raised e₀) m₁ ∧ e = e₀.through [⟨name, []⟩] := by
  rw [runUnder_generatorNext] at run
  split at run
  · cases run
    exact .inl (.inl ⟨_, rfl⟩)
  · cases run
    exact .inl (.inl ⟨_, rfl⟩)
  · rename_i name frame found
    exact (resume_error run).imp_right fun ⟨inner, e₀, m₁, ran, passed⟩ =>
      ⟨name, frame, inner, e₀, m₁, .inl found, ran, passed⟩
  · rename_i name frame found
    exact (resume_error run).imp_right fun ⟨inner, e₀, m₁, ran, passed⟩ =>
      ⟨name, frame, inner, e₀, m₁, .inr found, ran, passed⟩
  · cases run
  · cases run

/-! ### Protected blocks -/

/-- What a computation raises is of a sort. -/
def Raises (x : Engine α) (sort : Raised → Prop) : Prop :=
  ∀ due m e m', x.runUnder due m = .error (.raised e) m' → sort e

theorem isNew_of_perform {o : Op α} {e : Raised} (run : o.perform due m = .error (.raised e) m') :
    IsNew e := by
  have refused {x : Exhaustion} (same : Interrupt.ofExhaustion x = .raised e) : IsNew e := by
    cases x <;> cases same
    exact .inr ⟨_, rfl⟩
  have onHeap {β : Type} {f : Heap → Except Exhaustion β × Heap}
      (run : Op.onHeap f m = .error (.raised e) m') : IsNew e := by
    simp only [Op.onHeap] at run
    split at run
    · cases run
    · exact refused (EStateM.Result.error.inj run).1
  rw [Op.perform.eq_def] at run
  cases o with
  | store o => exact onHeap run
  | storeType name parents => exact onHeap run
  | openScope outer => exact onHeap run
  | tick => exact onHeap run
  | print s =>
    simp only [Op.printTo] at run
    split at run <;> cases run
    exact .inl ⟨_, rfl⟩
  | raise c =>
    cases run
    exact .inl ⟨c, rfl⟩
  | load r => dsimp only at run; split at run <;> cases run
  | loadScope s => dsimp only at run; split at run <;> cases run
  | change r c => dsimp only at run; split at run <;> cases run
  | _ => cases run

namespace Raises

variable {β : Type} {sort : Raised → Prop}

theorem act (o : Op α) (new : ∀ e, IsNew e → sort e) : (act o).Raises sort :=
  fun _ _ e _ run => new e (isNew_of_perform run)

theorem pure (a : α) : (Pure.pure a : Engine α).Raises sort := by
  intro due m e m' run
  cases run

theorem bind {x : Engine α} {f : α → Engine β} (first : x.Raises sort)
    (later : ∀ a, (f a).Raises sort) : (x >>= f).Raises sort := by
  intro due m e m' run
  rcases error_of_bind run with early | ⟨a, m₁, -, late⟩
  · exact first due m e m' early
  · exact later a due m₁ e m' late

/-- What the first part gives may be known to be of some sort. -/
theorem bind_of (given : α → Prop) {x : Engine α} {f : α → Engine β} (first : x.Raises sort)
    (gives : ∀ {due m a m'}, x.runUnder due m = .ok a m' → given a)
    (later : ∀ a, given a → (f a).Raises sort) : (x >>= f).Raises sort := by
  intro due m e m' run
  rcases error_of_bind run with early | ⟨a, m₁, ran, late⟩
  · exact first due m e m' early
  · exact later a (gives ran) due m₁ e m' late

end Raises

theorem raises_errorObject {sort : Raised → Prop} (new : ∀ e, IsNew e → sort e) (e : Raised) :
    (errorObject e).Raises sort := by
  have act {β : Type} (o : Op β) : (Engine.act o).Raises sort := .act o new
  have made (e : ErrorBody) (causes : List ErrorBody) : (newErrorObject e causes).Raises sort :=
    (act _).bind fun _ => (act _).bind fun _ => .pure _
  have body (e : ErrorBody) : (bodyObject e).Raises sort := by
    rw [bodyObject]
    split
    · exact (act _).bind fun _ => .pure _
    · exact (made e []).bind fun _ => (act _).bind fun _ => .pure _
  have bodies (errors : List ErrorBody) : (bodyObjects errors).Raises sort := by
    induction errors with
    | nil => exact .pure _
    | cons e later ih => exact (body e).bind fun _ => ih.bind fun _ => .pure _
  rw [errorObject]
  split
  · exact (act _).bind fun _ => .pure _
  · refine (made e.toErrorBody e.causes).bind fun _ => ?_
    dsimp only
    split
    · exact (act _).bind fun _ => .pure _
    · exact (bodies e.causes).bind fun _ => (act _).bind fun _ => (act _).bind fun _ => .pure _

/-- An error of a frame: it ended what a frame executes, and passed through no call since. -/
def IsOfFrame (k : Reentry) (e : Raised) : Prop :=
  ∃ due frame m m', (k.runFrame frame).runUnder due m = .error (.raised e) m'

/-- The error that a section of a block ends with is that of its frame. -/
theorem isOfFrame_of_runSection {phase : Phase} {resumed : Bool} {pending : Pending} {body : Frame}
    {e : Raised}
    (run : (runSection k phase resumed pending body).runUnder due m = .ok (.ended (.error e)) m') :
    IsOfFrame k e := by
  obtain ⟨ended, m₁, ran, given⟩ := ok_of_bind run
  have same : ended = .error e := by
    rcases ended with _ | (_ | _) <;> cases given
    rfl
  subst same
  simp only [runUnder] at ran
  cases entered : m.enter with
  | error refusal => simp only [entered] at ran; cases ran
  | ok inner =>
    simp only [entered] at ran
    cases kept : (k.runFrame body).runUnder due (inner.pushRoots pending.links) with
    | ok completion m₂ => simp only [kept, dropRoots] at ran; cases ran
    | error i m₂ =>
      simp only [kept, dropRoots] at ran
      cases i <;> cases ran
      exact ⟨due, body, _, m₂, kept⟩

section

variable {sort : Raised → Prop} (new : ∀ e, IsNew e → sort e) (own : ∀ e, IsOfFrame k e → sort e)

include new

theorem raises_runSection {phase : Phase} {resumed : Bool} {pending : Pending} {body : Frame} :
    (runSection k phase resumed pending body).Raises sort := by
  refine Raises.bind ?_ fun ended => ?_
  · -- nothing but the refusal of the call is raised around a section
    intro due m e m' run
    simp only [runUnder] at run
    cases entered : m.enter with
    | error refusal =>
      simp only [entered] at run
      cases refusal <;> cases run
      exact new _ (.inr ⟨_, rfl⟩)
    | ok inner =>
      simp only [entered] at run
      cases ran : dropRoots inner.roots.size
          ((k.runFrame body).runUnder due (inner.pushRoots pending.links)) with
      | ok completion m₂ => simp only [ran] at run; cases run
      | error i m₂ =>
        simp only [ran] at run
        cases i <;> cases run
  · rcases ended with _ | (_ | _) <;> exact .pure _

theorem raises_afterSection {β : Type} {phase : Phase} {resumed : Bool} {pending : Pending} {body : Frame}
    {f : SectionEnd → Engine β}
    (later : ∀ ended, (∀ e, ended = .ended (.error e) → IsOfFrame k e) → (f ended).Raises sort) :
    (runSection k phase resumed pending body >>= f).Raises sort :=
  .bind_of _ (raises_runSection new) (fun run _ same => isOfFrame_of_runSection (same ▸ run)) later

theorem raises_finishBlock {f : Frame} {next : Nat} {pending : Pending}
    (waits : ∀ e, pending = .rethrow e → sort e) : (finishBlock f next pending).Raises sort := by
  refine Raises.bind (.act _ new) fun _ => ?_
  cases pending with
  | rethrow e =>
    rintro _ _ _ _ ⟨⟩
    exact waits e rfl
  | _ => exact .pure _

include own

theorem raises_runCleanup {f : Frame} {next : Nat} {resumed : Bool} {pending : Pending} {body : Frame}
    (waits : ∀ e, pending = .rethrow e → sort e) :
    (runCleanup k f next resumed pending body).Raises sort := by
  refine raises_afterSection new fun ended ofFrame => ?_
  rcases ended with _ | (e | _ | value)
  · exact .pure _
  · refine raises_finishBlock new fun e' same => ?_
    cases same
    exact own e (ofFrame e rfl)
  · exact raises_finishBlock new waits
  · exact raises_finishBlock new nofun

theorem raises_startCleanup {f : Frame} {sections : Sections} {pending : Pending}
    (waits : ∀ e, pending = .rethrow e → sort e) : (startCleanup k f sections pending).Raises sort := by
  rw [startCleanup]
  split
  · exact raises_runCleanup new own waits
  · exact raises_finishBlock new waits

theorem raises_runHandler {f : Frame} {sections : Sections} {resumed : Bool} {body : Frame} :
    (runHandler k f sections resumed body).Raises sort := by
  refine raises_afterSection new fun ended ofFrame => ?_
  rcases ended with _ | (e | _ | value)
  · exact .pure _
  · refine raises_startCleanup new own fun e' same => ?_
    cases same
    exact own e (ofFrame e rfl)
  · exact raises_startCleanup new own nofun
  · exact raises_startCleanup new own nofun

theorem raises_startHandler {f : Frame} {sections : Sections} {binding : Option String} {code : Code}
    {e : Raised} : (startHandler k f sections binding code e).Raises sort := by
  refine Raises.bind (.act _ new) fun scope => ?_
  cases binding with
  | none => exact raises_runHandler new own
  | some name =>
    exact (raises_errorObject new e).bind fun _ => (Raises.act _ new).bind fun _ => raises_runHandler new own

theorem raises_runGuarded {f : Frame} {sections : Sections} {binding : Option String} {resumed : Bool}
    {body : Frame} : (runGuarded k f sections binding resumed body).Raises sort := by
  refine raises_afterSection new fun ended ofFrame => ?_
  rcases ended with _ | (e | _ | value)
  · exact .pure _
  · dsimp only
    split
    · exact raises_startHandler new own
    · refine raises_startCleanup new own fun e' same => ?_
      cases same
      exact own e (ofFrame e rfl)
  · exact raises_startCleanup new own nofun
  · exact raises_startCleanup new own nofun

end

/-- An error that leaves a protected block is new, or left the frame of a section as it is, or had left a
section before the cleanup was interrupted that is continued. -/
theorem protect_error {f : Frame} {block : String} {binding : Option String} {e : Raised}
    (run : (protect k f block binding).runUnder due m = .error (.raised e) m') :
    IsNew e ∨ IsOfFrame k e ∨
      ∃ body later, f.parked = ⟨.cleanup, .rethrow e, body⟩ :: later := by
  let sort (e : Raised) : Prop :=
    IsNew e ∨ IsOfFrame k e ∨ ∃ body later, f.parked = ⟨.cleanup, .rethrow e, body⟩ :: later
  have new (e : Raised) (h : IsNew e) : sort e := .inl h
  have own (e : Raised) (h : IsOfFrame k e) : sort e := .inr (.inl h)
  suffices raises : (protect k f block binding).Raises sort from raises due m e m' run
  rw [protect]
  split
  · intro due m e m' run
    cases run
  · rename_i sections found
    cases waits : f.parked with
    | nil => exact Raises.bind (.act _ new) fun _ => raises_runGuarded new own
    | cons parked inner =>
      obtain ⟨phase, pending, body⟩ := parked
      cases phase with
      | guarded => exact raises_runGuarded new own
      | handler => exact raises_runHandler new own
      | cleanup =>
        refine raises_runCleanup new own fun e same => .inr (.inr ⟨body, inner, ?_⟩)
        rw [waits, same]

/-! ### Loops -/

namespace Raises

variable {sort : Raised → Prop}

theorem catching (x : Engine α) : (Engine.catching x).Raises sort := by
  intro due m e m' run
  simp only [runUnder] at run
  cases ran : x.runUnder due m with
  | ok a m₁ => simp only [ran] at run; cases run
  | error i m₁ =>
    simp only [ran] at run
    cases i <;> cases run

theorem fail (d : Defect) : (Engine.fail d : Engine α).Raises sort := by
  intro due m e m' run
  cases run

theorem ask (f : Heap → α) : (Engine.ask f).Raises sort := by
  intro due m e m' run
  cases run

theorem throw {e : Raised} (passes : sort e) : (Engine.throw (.raised e) : Engine α).Raises sort := by
  rintro due m _ m' ⟨⟩
  exact passes

end Raises

theorem raised_of_catching {x : Engine α} {e : Raised}
    (run : (catching x).runUnder due m = .ok (.error e) m') : x.runUnder due m = .error (.raised e) m' := by
  simp only [runUnder] at run
  cases ran : x.runUnder due m with
  | ok a m₁ => simp only [ran] at run; cases run
  | error i m₁ =>
    simp only [ran] at run
    cases i <;> cases run
    rfl

section

variable {sort : Raised → Prop} {iterator : Ref} (items : (iterateNext k iterator).Raises sort)

include items

/-- A loop passes on what its iterator raises, as it is. -/
theorem raises_iterNext {f : Frame} {stack : List Ref} (top : f.stack = iterator :: stack) (tag : String) :
    (execute k f (.iterNext tag)).Raises sort := by
  have peeked : peek f = Pure.pure iterator := by rw [peek, top]
  have popped : pop f = Pure.pure (iterator, f.withStack stack) := by rw [pop, top]
  rw [execute, peeked]
  refine .bind_of (· = iterator) (.pure _) (fun run => (EStateM.Result.ok.inj run).1.symm) ?_
  rintro _ rfl
  refine .bind_of (fun next => ∀ e, next = .error e → sort e) (.catching _)
    (fun run e same => items _ _ e _ (raised_of_catching (same ▸ run))) fun next passes => ?_
  cases next with
  | ok item => exact .pure _
  | error e =>
    refine Raises.bind (.ask _) fun stop => ?_
    cases stop with
    | false => exact .throw (passes e rfl)
    | true =>
      -- the loop is over
      have jumps (f : Frame) : (target f tag).Raises sort := by
        rw [target]
        split
        · exact .pure _
        · exact .fail _
      rw [popped]
      exact Raises.bind (.pure _) fun _ => (jumps _).bind fun _ => .pure _

/-- A native function that takes all items passes on what the iterator raises, as it is. -/
theorem raises_drain (later : ∀ taken, (k.drain iterator taken).Raises sort) (taken : List Ref) :
    (drain k iterator taken).Raises sort := by
  refine .bind_of (fun next => ∀ e, next = .error e → sort e) (.catching _)
    (fun run e same => items _ _ e _ (raised_of_catching (same ▸ run))) fun next passes => ?_
  cases next with
  | ok item =>
    refine Raises.bind (x := pushRoots _) ?_ fun _ => later _
    intro due m e m' run
    cases run
  | error e =>
    refine Raises.bind (.ask _) fun stop => ?_
    cases stop with
    | false => exact .throw (passes e rfl)
    | true => exact .pure _

end

end Engine

end ObjectMachine
