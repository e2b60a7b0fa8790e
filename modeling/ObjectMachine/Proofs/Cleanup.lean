import ObjectMachine.Assembler
import ObjectMachine.Proofs.Sections
/-!
The cleanup of a protected block runs exactly once. A block lives as long as it hands out values and
is continued, each time on another machine and at another depth. Once its guarded section has started
and its protected region is left, the cleanup starts right away and never again, and what it ends with
decides what the block delivers; the one exception is a section that waits and cannot be resumed.
-/
namespace ObjectMachine

open Engine

/-- The life of a block that is the current instruction of a frame, with all events of its sections
and how its last execution ended: it is executed, and when it has handed out a value, it may be
continued with the frame that it left. -/
inductive Life (block : String) (binding : Option String) :
    Frame → List SectionEvent → Outcome Step → Prop where
  | executed (due : Schedule) (held : List Node) (k : Reentry) (f : Frame) (m : Machine) :
    Life block binding f ((protect k f block binding).sectionEvents due held m)
      ((protect k f block binding).runUnder due m)
  | continued {due : Schedule} {k : Reentry} {f g : Frame} {m m' : Machine} {value : Ref}
    {events : List SectionEvent} {out : Outcome Step} (held : List Node)
    (suspended : (protect k f block binding).runUnder due m = .ok (.suspended value g) m')
    (rest : Life block binding g events out) :
    Life block binding f ((protect k f block binding).sectionEvents due held m ++ events) out

/-- The outcome with which an event leaves the protected region: the guarded section, or the handler
if it runs. -/
def SectionEvent.leaves? (s : Sections) : SectionEvent → Option Pending
  | shuts .guarded (.ended (.rethrow e)) => if s.handler.isSome then none else some (.rethrow e)
  | shuts .guarded (.ended outcome) | shuts .handler (.ended outcome) => some outcome
  | bars .guarded true e | bars .handler true e => some (.rethrow (.ofExhaustion e))
  | _ => none

/-- Whether the event is the refusal of a section. -/
def SectionEvent.isBar : SectionEvent → Bool
  | bars .. => true
  | _ => false

/-- Between the events before and after the protected region was left with an outcome, the cleanup
starts, and only there; once it is over, the block delivers that outcome unless it is replaced. -/
structure CleansUp (f : Frame) (next : Nat) (before after : List SectionEvent) (outcome : Pending)
    (out : Outcome Step) : Prop where
  /-- The cleanup did not start before. -/
  not_before : .opens .cleanup false ∉ before
  /-- The cleanup is the next section that starts, and does not start again. -/
  starts : ∃ rest, after = .opens .cleanup false :: rest ∧ .opens .cleanup false ∉ rest
  /-- What the cleanup ends with decides what is delivered. -/
  delivers : ∀ ended, .shuts .cleanup (.ended ended) ∈ after →
    Delivered f next (outcome.replacedBy ended) out

/-- Whether a block is left, with its outcome or by an error that can be caught. -/
def Outcome.isExit : Outcome Step → Bool
  | .ok (.jump ..) _ | .error (.raised _) _ => true
  | _ => false

/-! ### Courses with a cleanup -/

namespace Control

variable {s : Sections} {c c' : Control} {events : List SectionEvent}

theorem Course.split {before after : List SectionEvent} {event : SectionEvent}
    (course : Course s c (before ++ event :: after) c') :
    ∃ c₁ c₂, Course s c before c₁ ∧ Moves s c₁ event c₂ ∧ Course s c₂ after c' := by
  induction before generalizing c with
  | nil =>
    cases course with
    | cons move rest => exact ⟨c, _, .nil c, move, rest⟩
  | cons first before ih =>
    cases course with
    | cons move rest =>
      obtain ⟨c₁, c₂, start, moves, rest⟩ := ih rest
      exact ⟨c₁, c₂, .cons move start, moves, rest⟩

/-- Whether the cleanup has started or will not start any more. -/
def isClosed : Control → Bool
  | inside .cleanup _ | waiting .cleanup _ | finished _ | refused _ | broken => true
  | _ => false

theorem Moves.isClosed {event : SectionEvent} (move : Moves s c event c') (closed : c.isClosed) :
    c'.isClosed ∧ event ≠ .opens .cleanup false := by
  cases move with
  | ended phase pending outcome =>
    cases phase with
    | cleanup => exact ⟨rfl, by simp⟩
    | _ => cases closed
  | enter phase pending => cases phase <;> cases closed
  | wait phase pending => cases phase <;> exact ⟨closed, by simp⟩
  | resume phase pending => cases phase <;> exact ⟨closed, by simp⟩
  | start => cases closed
  | refuse e => cases closed
  | lose phase pending e => exact ⟨rfl, by simp⟩
  | cut phase pending => exact ⟨rfl, by simp⟩

/-- A cleanup that has started does not start again. -/
theorem Course.isClosed (course : Course s c events c') (closed : c.isClosed) :
    c'.isClosed ∧ .opens .cleanup false ∉ events := by
  induction course with
  | nil c => exact ⟨closed, by simp⟩
  | cons move _ ih =>
    obtain ⟨closed', ne⟩ := move.isClosed closed
    obtain ⟨last, notLater⟩ := ih closed'
    exact ⟨last, by simp [Ne.symm ne, notLater]⟩

/-- The event that leaves the protected region is one of a section that runs, or the refusal of one
that waits. -/
theorem Moves.leaves {event : SectionEvent} {outcome : Pending} (move : Moves s c event c')
    (cleanup : s.cleanup.isSome) (left : event.leaves? s = some outcome) :
    ¬ c.isClosed ∧
      (event.isBar = false ∧ c' = ready .cleanup outcome ∨ event.isBar ∧ ∃ e, c' = refused e) := by
  cases move with
  | ended phase pending outcome' =>
    cases phase with
    | cleanup => simp [SectionEvent.leaves?] at left
    | handler =>
      cases left
      exact ⟨by simp [Control.isClosed], .inl ⟨rfl, by simp [ofSection, ofRegion, cleanup]⟩⟩
    | guarded =>
      refine ⟨by simp [Control.isClosed], .inl ⟨rfl, ?_⟩⟩
      cases outcome' with
      | rethrow e =>
        simp only [SectionEvent.leaves?] at left
        split at left
        · cases left
        · rename_i handler
          cases left
          simp [ofSection, handler, ofRegion, cleanup]
      | proceed => cases left; simp [ofSection, ofRegion, cleanup]
      | leave value => cases left; simp [ofSection, ofRegion, cleanup]
  | lose phase pending e =>
    cases phase with
    | cleanup => simp [SectionEvent.leaves?] at left
    | _ => exact ⟨by simp [Control.isClosed], .inr ⟨rfl, e, rfl⟩⟩
  | _ => simp [SectionEvent.leaves?] at left

/-- The outcome that is pending while the cleanup runs or waits. -/
def pendingCleanup? : Control → Option Pending
  | inside .cleanup pending | waiting .cleanup pending => some pending
  | _ => none

/-- A cleanup that is over finishes the block with what was pending, unless it replaces that. -/
theorem Course.finished_of_cleanup {pending ended : Pending} (course : Course s c events c')
    (running : c.pendingCleanup? = some pending)
    (closed : .shuts .cleanup (.ended ended) ∈ events) :
    c' = finished (pending.replacedBy ended) := by
  induction course with
  | nil c => cases closed
  | cons move rest ih =>
    cases move with
    | ended phase pending' outcome =>
      cases phase with
      | cleanup =>
        cases running
        cases rest with
        | nil =>
          simp only [List.mem_singleton, SectionEvent.shuts.injEq, Ending.ended.injEq, true_and] at closed
          rw [closed]
          rfl
        | cons move _ => cases move
      | _ => cases running
    | wait phase pending' =>
      cases phase with
      | cleanup => exact ih running (by simpa using closed)
      | _ => cases running
    | resume phase pending' =>
      cases phase with
      | cleanup => exact ih running (by simpa using closed)
      | _ => cases running
    | cut phase pending' =>
      cases rest with
      | nil => simp at closed
      | cons move _ => cases move
    | lose phase pending' e =>
      cases rest with
      | nil => simp at closed
      | cons move _ => cases move
    | _ => cases running

/-- Whether the protected region is being executed. -/
def inRegion : Control → Bool
  | inside .guarded _ | inside .handler _ | waiting .guarded _ | waiting .handler _
  | ready .handler _ => true
  | _ => false

theorem Moves.inRegion {event : SectionEvent} (move : Moves s c event c') (region : c.inRegion) :
    c'.inRegion ∨ c' = broken ∨ (event.leaves? s).isSome := by
  cases move with
  | start => exact .inl rfl
  | refuse e => cases region
  | enter phase pending => cases phase <;> first | exact .inl rfl | cases region
  | resume phase pending => cases phase <;> first | exact .inl rfl | cases region
  | wait phase pending => cases phase <;> first | exact .inl rfl | cases region
  | lose phase pending e => cases phase <;> first | exact .inr (.inr rfl) | cases region
  | cut phase pending => exact .inr (.inl rfl)
  | ended phase pending outcome =>
    cases phase with
    | cleanup => cases region
    | handler => exact .inr (.inr rfl)
    | guarded =>
      cases outcome with
      | rethrow e =>
        cases handler : s.handler with
        | none => simp [SectionEvent.leaves?, handler]
        | some code => simp [ofSection, handler, Control.inRegion]
      | _ => exact .inr (.inr rfl)

/-- A block stays in its protected region until it is cut off or an event leaves the region. -/
theorem Course.inRegion (course : Course s c events c') (region : c.inRegion) :
    c'.inRegion ∨ c' = broken ∨ ∃ event ∈ events, (event.leaves? s).isSome := by
  induction course with
  | nil c => exact .inl region
  | cons move rest ih =>
    rcases move.inRegion region with region | rfl | left
    · rcases ih region with region | broken | ⟨event, mem, left⟩
      · exact .inl region
      · exact .inr (.inl broken)
      · exact .inr (.inr ⟨event, List.mem_cons_of_mem _ mem, left⟩)
    · cases rest with
      | nil => exact .inr (.inl rfl)
      | cons move _ => cases move
    · exact .inr (.inr ⟨_, List.mem_cons_self, left⟩)

end Control

/-- A block is not left while its protected region is executed or when it is cut off. -/
theorem Shows.not_isExit {f : Frame} {next : Nat} {c : Control} {out : Outcome Step}
    (shows : Shows f next c out) (h : c.inRegion ∨ c = .broken) : out.isExit = false := by
  cases shows with
  | waiting value m same control => rfl
  | finished delivered => simp [Control.inRegion] at h
  | refused e m => simp [Control.inRegion] at h
  | broken e m fatal => cases e <;> first | rfl | cases fatal
  | unhandled pending e m fatal => cases e <;> first | rfl | cases fatal

namespace Life

variable {block : String} {binding : Option String} {f : Frame} {s : Sections}
  {events : List SectionEvent} {out : Outcome Step}

theorem find?_base {g : Frame} (same : g.base = f.base) :
    Sections.find? g block = Sections.find? f block := by
  have code : g.code = f.code := congrArg (fun f => f.code) same
  have ip : g.ip = f.ip := congrArg (fun f => f.ip) same
  simp only [Sections.find?, code, ip]

/-- A life is one course, however often the block is continued. -/
theorem follows (life : Life block binding f events out) (found : Sections.find? f block = some s) :
    ∃ c, f.control.Course s events c ∧ Shows f.base s.next c out := by
  induction life with
  | executed due held k f m => exact protect_follows due held k m found binding
  | @continued due k f g m m' value events out held suspended rest ih =>
    obtain ⟨c, course, shows⟩ :=
      protect_follows due held k m found binding
    rw [suspended] at shows
    obtain ⟨_, _, same, control⟩ | ⟨⟨⟩⟩ := shows
    have same' : g.base = f.base := same
    obtain ⟨c', course', shows'⟩ := ih ((find?_base same').trans found)
    rw [control] at course'
    exact ⟨c', course.append course', same' ▸ shows'⟩

/-- A block that handed out a value is the current instruction again when its frame is continued. -/
theorem continued_at_block {value : Ref} {g : Frame} {m : Machine}
    (life : Life block binding f events (.ok (.suspended value g) m))
    (found : Sections.find? f block = some s) :
    settle f.ip (.suspended value g) = .complete (.yielded value g) ∧
      g.code.at? g.ip = f.code.at? f.ip := by
  obtain ⟨c, -, shows⟩ := life.follows found
  obtain ⟨_, _, same, -⟩ | ⟨⟨⟩⟩ := shows
  have code : g.code = f.code := congrArg (fun f => f.code) same
  have ip : g.ip = f.ip := congrArg (fun f => f.ip) same
  exact ⟨rfl, by rw [code, ip]⟩

/-- The cleanup of a block runs exactly once: when the guarded section has started and the protected
region is left by an end, a return or an error that can be caught, the cleanup starts right away, it
does not start before or again, and the block delivers the outcome with which the region was left
unless the cleanup replaces it. That is so exactly if the region is not left because a section that
waits is refused. A block that is left has left its protected region. -/
theorem cleansUp_iff (life : Life block binding f events out) (fresh : f.parked = [])
    (found : Sections.find? f block = some s) (cleanup : s.cleanup.isSome)
    (started : .opens .guarded false ∈ events) :
    (∀ before event after outcome, events = before ++ event :: after →
      event.leaves? s = some outcome →
      (CleansUp f s.next before after outcome out ↔ event.isBar = false)) ∧
    (out.isExit → ∃ event ∈ events, (event.leaves? s).isSome) := by
  obtain ⟨c, course, shows⟩ := life.follows found
  have idle : f.control = .idle := by simp only [Frame.control, fresh]
  have base : f.base = f := by
    obtain ⟨activation, parked⟩ := f
    cases fresh
    rfl
  rw [idle] at course
  rw [base] at shows
  constructor
  · rintro before event after outcome rfl left
    obtain ⟨c₁, c₂, first, move, rest⟩ := course.split
    obtain ⟨opened, ⟨shut, rfl⟩ | ⟨barred, e, rfl⟩⟩ := move.leaves cleanup left
    · simp only [shut, iff_true]
      have not_before : .opens .cleanup false ∉ before := by
        intro mem
        obtain ⟨earlier, later, rfl⟩ := List.append_of_mem mem
        obtain ⟨c₃, c₄, -, enters, later⟩ := first.split
        cases enters
        exact opened (later.isClosed rfl).1
      cases rest with
      | nil => cases shows
      | cons enters rest =>
        cases enters
        refine ⟨not_before, ⟨_, rfl, (rest.isClosed rfl).2⟩, ?_⟩
        intro ended mem
        rw [rest.finished_of_cleanup rfl (by simpa using mem)] at shows
        cases shows with
        | finished delivered => exact delivered
    · simp only [barred, Bool.true_eq_false, iff_false]
      intro cleansUp
      obtain ⟨later, rfl, -⟩ := cleansUp.starts
      cases rest with
      | cons move _ => cases move
  · intro exit
    cases course with
    | nil => cases started
    | cons move rest =>
      cases move with
      | refuse e =>
        cases rest with
        | nil => simp at started
        | cons move _ => cases move
      | start =>
        obtain region | broken | ⟨event, mem, left⟩ := rest.inRegion rfl
        · exact absurd exit (by simp [shows.not_isExit (.inl region)])
        · exact absurd exit (by simp [shows.not_isExit (.inr broken)])
        · exact ⟨event, List.mem_cons_of_mem _ mem, left⟩

/-- A block whose sections are empty cleans up. -/
theorem empty_block_cleansUp :
    let f := Frame.start (assemble [.protect none [] none (some [])]) .globals
    let m := (Machine.boot (.ofLimits .standard) .silent).startRequest .discarding
    let block := protect (reentry 2) f "try#1" none
    let events := block.sectionEvents Heap.collectionDue [] m
    ∃ s, Sections.find? f "try#1" = some s ∧ s.cleanup.isSome ∧ .opens .guarded false ∈ events ∧
      (∀ before event after outcome, events = before ++ event :: after →
        event.leaves? s = some outcome →
        (CleansUp f s.next before after outcome (block.runUnder Heap.collectionDue m) ↔
          event.isBar = false)) ∧
      (Outcome.isExit (block.runUnder Heap.collectionDue m) →
        ∃ event ∈ events, (event.leaves? s).isSome) := by
  intro f m block events
  have sections : ∃ s, Sections.find? f "try#1" = some s ∧ s.cleanup.isSome := by
    have found : ((Sections.find? f "try#1").bind Sections.cleanup).isSome := by decide +kernel
    cases h : Sections.find? f "try#1" with
    | none => simp [h] at found
    | some s => exact ⟨s, rfl, by simpa [h] using found⟩
  obtain ⟨s, found, cleanup⟩ := sections
  have started : .opens .guarded false ∈ events := by decide +kernel
  exact ⟨s, found, cleanup, started,
    cleansUp_iff (.executed Heap.collectionDue [] (reentry 2) f m) rfl found cleanup started⟩

/-- A program whose generator waits in a protected block with a cleanup. The generator is asked for
another item from within a protected block, and then from outside. -/
def waitingCleanup : Code := assemble
  [.function "g" [] true
    [.protect none [.int 1, .op .yieldValue] none
      (some [.get "print", .str "fin", .op (.call 1), .op (.pop 1)])],
  .op (.call 0), .define "it",
  .get "it", .op (.getMember "next"), .op (.call 0), .op (.pop 1),
  .protect none [.get "it", .op (.getMember "next"), .op (.call 0), .op (.pop 1)] (some []) none,
  .forEach "x" [.get "it"] [],
  .get "print", .str "end", .op (.call 1), .op (.pop 1)]

/-- A cleanup may never run: when calls may be nested four deep, the section that waits is refused,
the error is caught, the generator is over, and its cleanup has not started and does not start. -/
theorem cleanup_lost :
    let m := Machine.boot (.ofLimits { Limits.standard with maxRecursionDepth := some 4 }) .silent
    let events := ((Request.run waitingCleanup).history m (.collecting "")).filterMap fun moment =>
      moment.sectionEvent? moment.depth
    .bars .guarded true (.recursion 4) ∈ events ∧
      .opens .cleanup false ∉ events ∧
      (m.run (.collecting "") waitingCleanup).1.toOption = some .null ∧
      (m.run (.collecting "") waitingCleanup).2.printer = .collecting "end\n" := by
  decide +kernel

end Life

end ObjectMachine
