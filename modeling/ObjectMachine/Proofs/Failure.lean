import ObjectMachine.Proofs.History
/-!
Failures that no program can catch: an exhausted budget for allocations or instructions, and a defect
of the program. Such a failure ends the request in which it arises, and the request ends with it,
exactly if it does not arise inside a forgiven computation.
-/
namespace ObjectMachine

namespace Interrupt

/-- Whether the interruption is a failure that no program can catch. -/
def isFatal : Interrupt → Bool
  | exhausted _ | defect .. => true
  | raised _ | dangling | overflow | outOfFuel => false

/-- One interruption is another after it passed through calls and instructions: an error remembers
more calls, a defect more instructions. -/
def LeadsTo : Interrupt → Interrupt → Prop
  | raised e, e' => ∃ layers, e' = raised { e with trace := e.trace ++ layers }
  | exhausted e, e' => ∃ layers, e' = exhausted { e with trace := e.trace ++ layers }
  | defect d sites, e' => ∃ more, e' = defect d (sites ++ more)
  | other, e' => e' = other

@[simp] theorem isFatal_withLayer (e : Interrupt) (name : String) (args : List Ref) :
    (e.withLayer name args).isFatal = e.isFatal := by
  cases e <;> rfl

@[simp] theorem isFatal_atSite (e : Interrupt) (site : Site) :
    (e.atSite site).isFatal = e.isFatal := by
  cases e <;> rfl

namespace LeadsTo

theorem refl (e : Interrupt) : e.LeadsTo e := by
  cases e with
  | raised e => exact ⟨[], by simp⟩
  | exhausted e => exact ⟨[], by simp⟩
  | defect d sites => exact ⟨[], by simp⟩
  | dangling => rfl
  | overflow => rfl
  | outOfFuel => rfl

theorem withLayer {e e' : Interrupt} (h : e.LeadsTo e') (name : String) (args : List Ref) :
    e.LeadsTo (e'.withLayer name args) := by
  cases e with
  | raised e =>
    obtain ⟨layers, rfl⟩ := h
    exact ⟨layers ++ [⟨name, args⟩], by simp [Interrupt.withLayer, Raised.withLayer]⟩
  | exhausted e =>
    obtain ⟨layers, rfl⟩ := h
    exact ⟨layers ++ [⟨name, args⟩], by simp [Interrupt.withLayer, Raised.withLayer]⟩
  | defect d sites =>
    obtain ⟨more, rfl⟩ := h
    exact ⟨more, rfl⟩
  | dangling => cases h; rfl
  | overflow => cases h; rfl
  | outOfFuel => cases h; rfl

theorem atSite {e e' : Interrupt} (h : e.LeadsTo e') (site : Site) :
    e.LeadsTo (e'.atSite site) := by
  cases e with
  | raised e =>
    obtain ⟨layers, rfl⟩ := h
    exact ⟨layers, rfl⟩
  | exhausted e =>
    obtain ⟨layers, rfl⟩ := h
    exact ⟨layers, rfl⟩
  | defect d sites =>
    obtain ⟨more, rfl⟩ := h
    exact ⟨more ++ [site], by simp [Interrupt.atSite]⟩
  | dangling => cases h; rfl
  | overflow => cases h; rfl
  | outOfFuel => cases h; rfl

/-- What a failure leads to is a failure. -/
theorem isFatal {e e' : Interrupt} (h : e.LeadsTo e') : e'.isFatal = e.isFatal := by
  cases e with
  | raised e => obtain ⟨layers, rfl⟩ := h; rfl
  | exhausted e => obtain ⟨layers, rfl⟩ := h; rfl
  | defect d sites => obtain ⟨more, rfl⟩ := h; rfl
  | dangling => cases h; rfl
  | overflow => cases h; rfl
  | outOfFuel => cases h; rfl

/-- An interruption that a failure leads to is no error that can be caught. -/
theorem not_raised {e : Interrupt} (fatal : e.isFatal) (error : Raised) :
    ¬ e.LeadsTo (.raised error) := by
  intro leads
  rw [← leads.isFatal] at fatal
  cases fatal

end LeadsTo

end Interrupt

namespace Machine

/-- The budget refuses a call only because calls are nested too deeply. -/
theorem enter_error {m : Machine} {e : Exhaustion} (h : m.enter = .error e) :
    ∃ limit, e = .recursion limit := by
  simp only [enter] at h
  split at h
  · cases h
  · rename_i refused
    cases h
    simp only [Budget.checkDepth] at refused
    grind

/-- Programs can catch that a call is refused. -/
theorem not_isFatal_of_enter_error {m : Machine} {e : Exhaustion} (h : m.enter = .error e) :
    (Interrupt.ofExhaustion e).isFatal = false := by
  obtain ⟨limit, rfl⟩ := enter_error h
  rfl

end Machine

namespace Moment

/-- The interruption that arises at a moment. -/
def failure? (due : Schedule) : Moment → Option Interrupt
  | acts o _ m =>
    match o.perform due m with
    | .ok _ _ => none
    | .error e _ => some e
  | throws e _ => some e
  | forgiven moment => moment.failure? due
  | enters _ | refuses _ | opens .. | bars .. | shuts .. => none

/-- Whether the moment is one of a forgiven computation. -/
def isForgiven : Moment → Bool
  | forgiven _ => true
  | _ => false

/-- Whether the moment is only the end of a section. Nothing is performed at such a moment, no code
is entered and nothing starts. -/
def isClosing : Moment → Bool
  | shuts .. => true
  | forgiven moment => moment.isClosing
  | _ => false

/-- Nothing goes wrong at the mere end of a section. -/
theorem failure?_of_isClosing {due : Schedule} (moment : Moment) (h : moment.isClosing) :
    moment.failure? due = none := by
  induction moment with
  | shuts phase m outcome => rfl
  | forgiven moment ih => exact ih h
  | _ => cases h

end Moment

/-- A member of two lists, one behind the other, is one of the first or one of the second. -/
theorem split_append {α : Type _} {l₁ l₂ before after : List α} {a : α}
    (h : l₁ ++ l₂ = before ++ a :: after) :
    (∃ rest, l₁ = before ++ a :: rest ∧ after = rest ++ l₂) ∨
      ∃ start, before = l₁ ++ start ∧ l₂ = start ++ a :: after := by
  rcases List.append_eq_append_iff.mp h with ⟨start, hb, ha⟩ | ⟨rest, hl, hr⟩
  · exact .inr ⟨start, hb, ha⟩
  · cases rest with
    | nil => exact .inr ⟨[], by simpa using hl.symm, by simpa using hr.symm⟩
    | cons b rest =>
      obtain ⟨rfl, rfl⟩ := List.cons.inj hr
      exact .inl ⟨rest, hl, rfl⟩

/-- The only member of a list. -/
theorem split_singleton {α : Type _} {before after : List α} {a b : α}
    (h : [b] = before ++ a :: after) : before = [] ∧ a = b ∧ after = [] := by
  obtain ⟨rfl, h⟩ | ⟨-, h⟩ := List.singleton_eq_append_iff.mp h
  · cases h
    exact ⟨rfl, rfl, rfl⟩
  · cases h

/-- A member of a list that is not the first one. -/
theorem split_cons {α : Type _} {before after l : List α} {a b : α}
    (h : b :: l = before ++ a :: after) (ne : a ≠ b) :
    ∃ start, before = b :: start ∧ l = start ++ a :: after := by
  cases before with
  | nil => exact absurd (List.cons.inj h).1.symm ne
  | cons c start =>
    obtain ⟨rfl, rfl⟩ := List.cons.inj h
    exact ⟨start, rfl, rfl⟩

variable {due : Schedule}

/-- A failure in a call that is nested is one of the code that the call runs. -/
theorem Machine.split_historyInside {m : Machine} {history : Machine → List Moment}
    {before after : List Moment} {moment : Moment} {e : Interrupt}
    (split : m.historyInside history = before ++ moment :: after)
    (fails : moment.failure? due = some e) :
    ∃ inner start, m.enter = .ok inner ∧ history inner = start ++ moment :: after := by
  simp only [historyInside] at split
  cases entered : m.enter with
  | error e₀ =>
    simp only [entered] at split
    obtain ⟨-, rfl, -⟩ := split_singleton split
    cases fails
  | ok inner =>
    simp only [entered] at split
    have notEnters : moment ≠ .enters m := by
      rintro rfl
      cases fails
    obtain ⟨start, -, split⟩ := split_cons split notEnters
    exact ⟨inner, start, rfl, split⟩

/-- Two members behind which all members have a property that they have not are one and the
same. -/
theorem split_last {α : Type _} {p : α → Bool} {before before' after after' : List α} {a a' : α}
    (h : before ++ a :: after = before' ++ a' :: after') (ha : ¬ p a) (ha' : ¬ p a')
    (hp : ∀ b ∈ after, p b) (hp' : ∀ b ∈ after', p b) : a = a' := by
  rcases split_append h with ⟨rest, -, rfl⟩ | ⟨start, -, h⟩
  · exact absurd (hp' a (by simp)) ha
  · cases start with
    | nil => exact (List.cons.inj h).1
    | cons b start =>
      obtain ⟨-, rfl⟩ := List.cons.inj h
      exact absurd (hp a' (by simp)) ha'

/-- A history has a failure outside of forgiven computations after which nothing happens. -/
def HasOrigin (due : Schedule) (history : List Moment) : Prop :=
  ∃ before moment after e, history = before ++ moment :: after ∧
    moment.failure? due = some e ∧ moment.isForgiven = false ∧ ∀ later ∈ after, later.isClosing

namespace HasOrigin

theorem single (moment : Moment) {e : Interrupt} (fails : moment.failure? due = some e)
    (kept : moment.isForgiven = false) : HasOrigin due [moment] :=
  ⟨[], moment, [], e, rfl, fails, kept, by simp⟩

theorem prepend {history : List Moment} (h : HasOrigin due history) (earlier : List Moment) :
    HasOrigin due (earlier ++ history) := by
  obtain ⟨before, moment, after, e, rfl, fails, kept, closing⟩ := h
  exact ⟨earlier ++ before, moment, after, e, by simp, fails, kept, closing⟩

theorem historyInside {m inner : Machine} {history : Machine → List Moment}
    (entered : m.enter = .ok inner) (h : HasOrigin due (history inner)) :
    HasOrigin due (m.historyInside history) := by
  simp only [Machine.historyInside, entered]
  exact h.prepend [.enters m]

theorem append_closing {history last : List Moment} (h : HasOrigin due history)
    (hl : ∀ later ∈ last, later.isClosing) : HasOrigin due (history ++ last) := by
  obtain ⟨before, moment, after, e, rfl, fails, kept, closing⟩ := h
  refine ⟨before, moment, after ++ last, e, by simp, fails, kept, ?_⟩
  intro later mem
  rcases List.mem_append.mp mem with mem | mem
  · exact closing later mem
  · exact hl later mem

end HasOrigin

namespace Engine

variable {α : Type}

/-- A failure outside of forgiven computations is the last thing that happens, and what the
computation ends with. -/
theorem failure_ends_run (x : Engine α) {held : List Node} {m : Machine}
    {before after : List Moment} {moment : Moment} {e : Interrupt}
    (split : x.history due held m = before ++ moment :: after)
    (fails : moment.failure? due = some e) (fatal : e.isFatal) (kept : ¬ moment.isForgiven) :
    (∀ later ∈ after, later.isClosing) ∧
      ∃ e' m', x.runUnder due m = .error e' m' ∧ e.LeadsTo e' := by
  induction x generalizing held m before after with
  | give a => simp [history] at split
  | throw e₀ =>
    obtain ⟨-, rfl, rfl⟩ := split_singleton split
    cases fails
    exact ⟨by simp, e, m, rfl, .refl e⟩
  | act o =>
    obtain ⟨-, rfl, rfl⟩ := split_singleton split
    simp only [Moment.failure?] at fails
    split at fails
    · cases fails
    · rename_i m' performed
      cases fails
      exact ⟨by simp, e, m', performed, .refl e⟩
  | andThen x f ihx ihf =>
    simp only [history] at split
    rcases split_append split with ⟨rest, hx, rfl⟩ | ⟨start, -, hf⟩
    · obtain ⟨closing, e', m', run, leads⟩ := ihx hx
      refine ⟨?_, e', m', by simp [runUnder, run], leads⟩
      simpa [run] using closing
    · cases run : x.runUnder due m with
      | error e' m' => simp [run] at hf
      | ok a m' =>
        simp only [run] at hf
        obtain ⟨closing, e', m'', run', leads⟩ := ihf a hf
        exact ⟨closing, e', m'', by simp [runUnder, run, run'], leads⟩
  | keeping nodes x ih =>
    obtain ⟨closing, e', m', run, leads⟩ := ih split
    exact ⟨closing, e', m'.truncateRoots m.roots.size, by simp only [runUnder, run, dropRoots],
      leads⟩
  | holding nodes x ih =>
    obtain ⟨closing, e', m', run, leads⟩ := ih split
    exact ⟨closing, e', m', by simpa only [runUnder] using run, leads⟩
  | executing site x ih =>
    obtain ⟨closing, e', m', run, leads⟩ := ih split
    exact ⟨closing, e'.atSite site, m', by simp only [runUnder, run], leads.atSite site⟩
  | calling name args x ih =>
    obtain ⟨inner, start, entered, split⟩ := Machine.split_historyInside split fails
    obtain ⟨closing, e', m', run, leads⟩ := ih split
    exact ⟨closing, e'.withLayer name args, (m'.observe .leave).leave,
      by simp only [runUnder, entered, run], leads.withLayer name args⟩
  | nested x ih =>
    obtain ⟨inner, start, entered, split⟩ := Machine.split_historyInside split fails
    obtain ⟨closing, e', m', run, leads⟩ := ih split
    exact ⟨closing, e', m'.leave, by simp only [runUnder, entered, run], leads⟩
  | inSection phase resumed x ih =>
    simp only [history] at split
    cases entered : m.enter with
    | error e₀ =>
      simp only [entered] at split
      obtain ⟨-, rfl, rfl⟩ := split_singleton split
      cases fails
    | ok inner =>
      simp only [entered] at split
      have notOpens : moment ≠ .opens phase resumed m := by
        rintro rfl
        cases fails
      obtain ⟨start, -, split⟩ := split_cons split notOpens
      rcases split_append split with ⟨rest, hx, rfl⟩ | ⟨_, -, last⟩
      · obtain ⟨closing, e', m', run, leads⟩ := ih hx
        refine ⟨?_, e', m'.leave.observe .tryExit, ?_, leads⟩
        · intro later mem
          rcases List.mem_append.mp mem with mem | mem
          · exact closing later mem
          · cases List.mem_singleton.mp mem
            rfl
        · cases e' with
          | raised error => exact absurd leads (Interrupt.LeadsTo.not_raised fatal error)
          | _ => simp only [runUnder, entered, run]
      · obtain ⟨-, rfl, -⟩ := split_singleton last
        cases fails
  | resuming generator name x ih =>
    obtain ⟨inner, start, entered, split⟩ := Machine.split_historyInside split fails
    obtain ⟨closing, e', m', run, leads⟩ := ih split
    cases e' with
    | raised error => exact absurd leads (Interrupt.LeadsTo.not_raised fatal error)
    | _ => exact ⟨closing, _, _, by simp only [runUnder, entered, run]; rfl, leads.withLayer name []⟩
  | catching x ih =>
    obtain ⟨closing, e', m', run, leads⟩ := ih split
    cases e' with
    | raised error => exact absurd leads (Interrupt.LeadsTo.not_raised fatal error)
    | _ => exact ⟨closing, _, m', by simp only [runUnder, run], leads⟩
  | forgiving x ih =>
    simp only [history] at split
    have mem : moment ∈ (x.history due held m).map .forgiven := by simp [split]
    obtain ⟨inner, -, rfl⟩ := List.mem_map.mp mem
    exact absurd rfl kept

/-- A computation that ends with a failure has met it outside of forgiven computations, and nothing
happened after that. -/
theorem history_hasOrigin (x : Engine α) (held : List Node) {m m' : Machine} {e : Interrupt}
    (run : x.runUnder due m = .error e m') (fatal : e.isFatal) :
    HasOrigin due (x.history due held m) := by
  induction x generalizing held m m' e with
  | give a => cases run
  | throw e₀ =>
    cases run
    exact .single _ rfl rfl
  | act o =>
    simp only [runUnder] at run
    exact .single (.acts o held m) (e := e) (by simp only [Moment.failure?, run]) rfl
  | andThen x f ihx ihf =>
    simp only [history]
    cases ran : x.runUnder due m with
    | error e₀ m₀ =>
      simp only [runUnder, ran] at run
      cases run
      exact (ihx _ ran fatal).append_closing (by simp)
    | ok a m₀ =>
      simp only [runUnder, ran] at run
      exact (ihf a _ run fatal).prepend _
  | keeping nodes x ih =>
    simp only [runUnder] at run
    cases ran : x.runUnder due (m.pushRoots nodes) with
    | ok a m₀ => simp only [ran, dropRoots] at run; cases run
    | error e₀ m₀ =>
      simp only [ran, dropRoots] at run
      cases run
      exact ih _ ran fatal
  | holding nodes x ih => exact ih _ (by simpa only [runUnder] using run) fatal
  | executing site x ih =>
    simp only [runUnder] at run
    cases ran : x.runUnder due m with
    | ok a m₀ => simp only [ran] at run; cases run
    | error e₀ m₀ =>
      simp only [ran] at run
      cases run
      exact ih _ ran (by simpa using fatal)
  | calling name args x ih =>
    simp only [runUnder] at run
    cases entered : m.enter with
    | error e₀ =>
      simp only [entered] at run
      cases run
      simp [Machine.not_isFatal_of_enter_error entered] at fatal
    | ok inner =>
      simp only [entered] at run
      cases ran : x.runUnder due (inner.observe (.call name)) with
      | ok a m₀ => simp only [ran] at run; cases run
      | error e₀ m₀ =>
        simp only [ran] at run
        cases run
        exact .historyInside entered (ih _ ran (by simpa using fatal))
  | nested x ih =>
    simp only [runUnder] at run
    cases entered : m.enter with
    | error e₀ =>
      simp only [entered] at run
      cases run
      simp [Machine.not_isFatal_of_enter_error entered] at fatal
    | ok inner =>
      simp only [entered] at run
      cases ran : x.runUnder due inner with
      | ok a m₀ => simp only [ran] at run; cases run
      | error e₀ m₀ =>
        simp only [ran] at run
        cases run
        exact .historyInside entered (ih _ ran fatal)
  | inSection phase resumed x ih =>
    simp only [runUnder] at run
    cases entered : m.enter with
    | error e₀ =>
      simp only [entered] at run
      cases run
      simp [Machine.not_isFatal_of_enter_error entered] at fatal
    | ok inner =>
      simp only [entered] at run
      cases ran : x.runUnder due inner with
      | ok a m₀ => simp only [ran] at run; cases run
      | error e₀ m₀ =>
        have origin : ∀ e, e₀ = e → e.isFatal → HasOrigin due
            ((inSection phase resumed x).history due held m) := by
          rintro e rfl fatal
          simpa only [history, entered, List.cons_append, List.nil_append] using
            ((ih _ ran fatal).append_closing (by simp [Moment.isClosing])).prepend
              [.opens phase resumed m]
        cases e₀ with
        | raised error => simp only [ran] at run; cases run
        | _ =>
          simp only [ran] at run
          cases run
          exact origin _ rfl fatal
  | resuming generator name x ih =>
    simp only [runUnder] at run
    cases entered : m.enter with
    | error e₀ => simp only [entered] at run; cases run
    | ok inner =>
      simp only [entered] at run
      cases ran : x.runUnder due (inner.observe .resume) with
      | ok a m₀ => simp only [ran] at run; cases run
      | error e₀ m₀ =>
        have origin : ∀ e, e₀ = e → e.isFatal → HasOrigin due
            ((resuming generator name x).history due held m) := by
          rintro e rfl fatal
          exact .historyInside entered (ih _ ran fatal)
        cases e₀ with
        | raised error => simp only [ran] at run; cases run
        | _ =>
          simp only [ran] at run
          cases run
          exact origin _ rfl (by simpa using fatal)
  | catching x ih =>
    simp only [runUnder] at run
    cases ran : x.runUnder due m with
    | ok a m₀ => simp only [ran] at run; cases run
    | error e₀ m₀ =>
      cases e₀ with
      | raised error => simp only [ran] at run; cases run
      | _ =>
        simp only [ran] at run
        cases run
        exact ih _ ran fatal
  | forgiving x ih =>
    simp only [runUnder] at run
    cases ran : x.runUnder due m with
    | ok a m₀ => simp only [ran] at run; cases run
    | error e₀ m₀ =>
      simp only [ran] at run
      cases e₀ <;> cases run <;> cases fatal

/-- A failure ends a computation, which ends with it, exactly if it is not met in a forgiven
computation. -/
theorem failure_ends_run_iff (x : Engine α) {held : List Node} {m : Machine}
    {before after : List Moment} {moment : Moment} {e : Interrupt}
    (split : x.history due held m = before ++ moment :: after)
    (fails : moment.failure? due = some e) (fatal : e.isFatal) :
    ((∀ later ∈ after, later.isClosing) ∧
        ∃ e' m', x.runUnder due m = .error e' m' ∧ e.LeadsTo e') ↔
      moment.isForgiven = false := by
  constructor
  · rintro ⟨closing, e', m', run, leads⟩
    obtain ⟨before', origin, after', e₀, split', fails', kept, closing'⟩ :=
      history_hasOrigin x held run (leads.isFatal.trans fatal)
    have notClosing (moment : Moment) {e : Interrupt} (fails : moment.failure? due = some e) :
        ¬ moment.isClosing := by
      intro h
      rw [moment.failure?_of_isClosing h] at fails
      cases fails
    have same : moment = origin :=
      split_last (split.symm.trans split') (notClosing moment fails) (notClosing origin fails')
        closing closing'
    rw [same, kept]
  · intro kept
    exact failure_ends_run x split fails fatal (by simp [kept])

end Engine

namespace Request

/-- A failure in a request ends it: nothing is performed any more, no code is entered and no section
of a protected block starts, and the request reports that failure, with more calls or instructions
to remember. That is so exactly if the failure is not met in a forgiven computation. -/
theorem failure_ends_request_iff (r : Request) (m : Machine) (printer : Printer)
    {before after : List Moment} {moment : Moment} {e : Interrupt}
    (split : r.history m printer = before ++ moment :: after)
    (fails : moment.failure? Heap.collectionDue = some e) (fatal : e.isFatal) :
    ((∀ later ∈ after, later.isClosing) ∧
        ∃ e' m', e.LeadsTo e' ∧
          (r.computation m.globals).run (m.startRequest printer) = .error e' m' ∧
          m.serve printer r = (.error (m'.failureOf e'), m'.noteFailure (m'.failureOf e'))) ↔
      moment.isForgiven = false := by
  rw [← Engine.failure_ends_run_iff _ split fails fatal]
  constructor
  · rintro ⟨closing, e', m', leads, run, -⟩
    exact ⟨closing, e', m', run, leads⟩
  · rintro ⟨closing, e', m', run, leads⟩
    have run : (r.computation m.globals).run (m.startRequest printer) = .error e' m' := run
    exact ⟨closing, e', m', leads, run, by simp only [Machine.serve, Machine.request, run]⟩

/-- A request that takes an operand where there is none ends with that defect. -/
theorem underflow_ends_request :
    let m := Machine.boot (.ofLimits .standard) .silent
    let r := Request.run (.ofList [⟨.pop 1, none⟩])
    ∃ before moment after e, r.history m .discarding = before ++ moment :: after ∧
      moment.failure? Heap.collectionDue = some e ∧ e.isFatal ∧
      (((∀ later ∈ after, later.isClosing) ∧
        ∃ e' m', e.LeadsTo e' ∧
          (r.computation m.globals).run (m.startRequest .discarding) = .error e' m' ∧
          m.serve .discarding r = (.error (m'.failureOf e'), m'.noteFailure (m'.failureOf e'))) ↔
        moment.isForgiven = false) := by
  intro m r
  have failing : (r.history m .discarding).any
      (fun moment => moment.failure? Heap.collectionDue == some (.defect .stackUnderflow [])) := by
    decide +kernel
  obtain ⟨moment, mem, fails⟩ := List.any_eq_true.mp failing
  obtain ⟨before, after, split⟩ := List.append_of_mem mem
  exact ⟨before, moment, after, _, split, eq_of_beq fails, rfl,
    failure_ends_request_iff r m .discarding split (eq_of_beq fails) rfl⟩

/-- Not every failure ends its request: when no more object may be allocated, looking for a member of
a Type meets that limit while it binds a member of the metatype, and goes on as if there were none. -/
theorem allocation_failure_ignored :
    let m := Machine.boot (.ofLimits ⟨none, some 0, none, none, none⟩) .silent
    let r := Request.run (.ofList [⟨.getVar "list", none⟩, ⟨.getMember "op_call", none⟩,
      ⟨.returnValue, none⟩])
    (∃ moment ∈ r.history m (.collecting ""),
      moment.failure? Heap.collectionDue = some (.ofExhaustion (.allocation 0 1))) ∧
    ∃ report, (m.serve (.collecting "") r).1 = .error (.reported report) ∧
      report.typeName = "AttributeError" := by
  intro m r
  have failing : (r.history m (.collecting "")).any (fun moment =>
      moment.failure? Heap.collectionDue == some (.ofExhaustion (.allocation 0 1))) := by
    decide +kernel
  have reported : (match (m.serve (.collecting "") r).1 with
      | .error (.reported report) => report.typeName == "AttributeError"
      | _ => false) = true := by
    decide +kernel
  constructor
  · obtain ⟨moment, mem, fails⟩ := List.any_eq_true.mp failing
    exact ⟨moment, mem, eq_of_beq fails⟩
  · split at reported
    · rename_i report served
      exact ⟨report, served, eq_of_beq reported⟩
    · cases reported

end Request

end ObjectMachine
