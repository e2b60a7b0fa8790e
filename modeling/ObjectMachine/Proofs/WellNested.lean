import ObjectMachine.Proofs.Lapses
/-!
The events of a request are properly nested but for the lapses. Every instruction closes its brackets if the
entry points of the engine do, so by induction on the fuel everything that the engine runs does. Since no
section waits in any generator of a session in which no value is handed out, this says of each of its
requests that the events are properly nested exactly if nothing of it is a lapse.
-/
namespace ObjectMachine

namespace Engine

variable {due : Schedule} {k : Reentry}

/-! ### Instructions -/

/-- Progress of a frame in which no section waits, if no value is handed out. -/
def Progress.GoesOn : Progress → Prop
  | running f => f.parked = []
  | complete completion => completion.IsDone

/-- An instruction that hands out no value closes its brackets. -/
theorem Closes.execute (hk : k.Closes due) {f : Frame} (fresh : f.parked = []) {op : Opcode}
    (keeps : op ≠ .yieldValue) : (execute k f op).Closes due GoesOn := by
  by_cases block : ∃ name binding, op = .tryBlock name binding
  · obtain ⟨name, binding, rfl⟩ := block
    exact .protect hk fresh name binding
  by_cases opens : op = .enterScope
  · subst opens
    exact .after (.newScope f.scope) fun scope => .pure fresh
  by_cases leaves : op = .exitScope
  · subst leaves
    simp only [Engine.execute]
    split
    · exact .throw _
    · refine .after (.act trivial fun _ => List.forall_mem_nil _) fun s => ?_
      split
      · exact .pure fresh
      · exact .throw _
  -- all other instructions leave the sections that wait in the frame as they are
  have closes : (Engine.execute k f op).Closes due fun _ => True := by
    cases op with
    | makeFunction name body specs generator =>
      exact .after (.makeFunction hk f name body specs generator) fun _ => .pure trivial
    | makeClass name body count => exact .after (.makeClass hk f name body count) fun _ => .pure trivial
    | tryBlock name binding => exact (block ⟨name, binding, rfl⟩).elim
    | enterScope => exact (opens rfl).elim
    | exitScope => exact (leaves rfl).elim
    | _ => exact .of_routine hk (routine_execute f _ rfl)
  refine closes.of_gives ?_
  intro due m step m' ran
  have remains := execute_remains f op (fun name binding same => block ⟨name, binding, same⟩)
    ⟨opens, leaves⟩ due m step m' ran
  cases step with
  | next g => exact (Frame.parked_of_setting remains).trans fresh
  | jump target g => exact (Frame.parked_of_setting remains).trans fresh
  | yielded value g => exact keeps remains.1
  | suspended value g => exact remains

/-- After the report that a value is handed out nothing is claimed. -/
theorem Closes.of_isYield {α : Type} {Q : α → Prop} {e : Nat → Event} (yields : ∀ depth, (e depth).isYield)
    (g : Unit → Engine α) : (observeAt e >>= g).Closes due Q := by
  intro held m unparked silent
  have mem : e m.depth ∈ (observeAt e >>= g).reports due m :=
    List.mem_append_left _ List.mem_cons_self
  cases (yields m.depth).symm.trans (silent _ mem)

theorem Closes.runInstruction (hk : k.Closes due) {f : Frame} (fresh : f.parked = []) :
    (runInstruction k f).Closes due Progress.GoesOn := by
  simp only [Engine.runInstruction]
  split
  · exact .pure trivial
  rename_i instruction found
  refine .after (.act trivial fun _ => List.forall_mem_nil _) fun _ => ?_
  refine .after (.act trivial fun _ => List.forall_mem_nil _) fun _ => ?_
  by_cases yields : instruction.op = .yieldValue
  · exact .of_isYield (fun depth => by simp only [Event.isYield, yields, beq_self_eq_true]) _
  · refine .after (.act trivial fun m e mem => List.mem_singleton.mp mem ▸ rfl) fun _ => ?_
    refine .bind (.executing _ (.keeping _ (.execute hk fresh yields))) fun step goesOn => .pure ?_
    cases step with
    | next g | jump target g =>
      simp only [settle, settle.proceed]
      split
      · trivial
      · exact goesOn
    | yielded value g | suspended value g => exact goesOn.elim

/-! ### Runs -/

/-- The entry points of the engine close their brackets, whatever the fuel. -/
theorem closes_reentry (due : Schedule) (fuel : Nat) : (reentry fuel).Closes due := by
  induction fuel with
  | zero => exact ⟨fun _ _ => .throw _, fun _ => .throw _, fun _ _ => .throw _, fun _ _ => .throw _⟩
  | succ n ih =>
    refine ⟨.call ih, .invoke ih, fun f fresh => ?_, fun iterator taken => ?_⟩
    · refine .bind (.runInstruction ih fresh) fun progress goesOn => ?_
      split
      · exact ih.runFrame _ goesOn
      · exact .pure goesOn
    · exact .of_routine ih (routine_drain iterator taken)

end Engine

/-- A request closes its brackets. -/
theorem Request.closes_computation (due : Schedule) (globals : ScopeRef) (r : Request) :
    (r.computation globals).Closes due fun _ => True := by
  have entries := Engine.closes_reentry due Machine.fuel
  cases r with
  | run code =>
    refine .after (.act trivial fun _ => List.forall_mem_nil _) fun _ => ?_
    refine .after (.act trivial fun _ => List.forall_mem_nil _) fun _ => ?_
    refine .bind (.nested (entries.runFrame _ rfl)) fun ended done => ?_
    split
    · exact .pure trivial
    · exact done.elim
  | call callee args => exact entries.call callee args
  | operator name args => exact .of_routine entries (Engine.routine_callOperator name args true)
  | getMember obj name => exact .of_routine entries (Engine.routine_getMember obj name)
  | setMember obj name value =>
    exact .after (.of_routine entries (Engine.routine_setMember obj name value)) fun _ => .pure trivial

/-! ### Sessions -/

namespace Heap

theorem unparked_boot : boot.Unparked := by
  refine ⟨wellFormed_boot, fun r p found => ?_⟩
  have static := isStatic_boot found
  cases p with
  | generator name state => cases static
  | _ => trivial

theorem unparked_survivesEnds : SurvivesEnds Unparked := by
  intro h g unparked
  refine unparked.modify g fun state same => ?_
  cases same
  trivial

theorem unparked_survivesHost : SurvivesHost Unparked where
  store h p storable unparked := by
    cases stored : h.allocate (.ofPayload p none) with
    | mk result h' =>
      cases result with
      | error e => exact unparked.of_objects_eq (allocate_error stored).1
      | ok r =>
        have stores := stores_of_allocate unparked.wellFormed stored
        refine ⟨stores.wellFormed, fun r' q found => ?_⟩
        have there := stores.object? r'
        split at there
        · rw [payload?, there] at found
          cases found
          cases p <;> trivial
        · exact unparked.data r' q ((payload?_congr there).symm.trans found)
  vars _ _ same unparked := unparked.of_objects_eq same
  collect h roots unparked := by
    refine ⟨wellFormed_collect unparked.wellFormed roots, fun r p found => ?_⟩
    obtain ⟨o, there, same⟩ := Option.map_eq_some_iff.mp found
    exact unparked.data r p (Option.map_eq_some_iff.mpr ⟨o, object?_of_collect there, same⟩)

end Heap

namespace Machine

variable {m : Machine}

/-- While no value is handed out, no section is left waiting. -/
theorem unparked_perform (unparked : m.heap.Unparked) (a : HostAction)
    (silent : ∀ e ∈ a.reports m, e.isYield = false) : (a.perform m).heap.Unparked := by
  cases a with
  | request printer r =>
    rw [HostAction.perform, heap_serve]
    exact (r.closes_computation Heap.collectionDue m.globals [] (m.startRequest printer) unparked silent).unparked
  | _ =>
    exact invariant_perform Heap.unparked_survivesHost Heap.unparked_survivesEnds m _ unparked
      (List.forall_mem_nil _)

theorem unparked_afterSession (unparked : m.heap.Unparked) (actions : List HostAction)
    (silent : ∀ e ∈ m.sessionReports actions, e.isYield = false) :
    (m.afterSession actions).heap.Unparked := by
  induction actions generalizing m with
  | nil => exact unparked
  | cons a later ih =>
    refine ih (unparked_perform unparked a fun e mem => ?_) fun e mem => ?_
    · exact silent e (List.mem_append_left _ mem)
    · exact silent e (List.mem_append_right _ mem)

/-- What an observer without a limit records of a request, in a session in which no value is handed out, is
properly nested but for the blocks whose exit is missing; so it is properly nested exactly if no block is left
by a lapse: one of its sections is refused, or its handler cannot be prepared. -/
theorem events_nested_iff (budget : Budget) (actions : List HostAction) (printer : Printer) (r : Request) :
    let start := boot budget (.recording none #[])
    let m := start.afterSession actions
    let before := start.sessionReports actions
    let during := r.reports m printer
    let missing := lapses Heap.collectionDue false (r.history m printer)
    m.Records before ∧ (m.serve printer r).2.Records (before ++ during) ∧
      ((∀ e ∈ before ++ during, e.isYield = false) →
        Bracketed missing during ∧ (Nested during ↔ missing = 0)) := by
  intro start m before during missing
  have records : m.Records before := (records_boot budget).afterSession actions
  refine ⟨records, records.serve printer r, fun silent => ?_⟩
  simp only [List.mem_append] at silent
  have booted : start.heap.Unparked := Heap.unparked_boot.of_objects_eq (objects_withBudget _ _)
  have unparked : m.heap.Unparked :=
    unparked_afterSession booted actions fun e mem => silent e (.inl mem)
  have closes := r.closes_computation Heap.collectionDue m.globals [] (m.startRequest printer) unparked
    fun e mem => silent e (.inr mem)
  exact ⟨closes.brackets, closes.brackets.nested_iff⟩

/-- A function whose error is caught where it is called, with a cleanup: nothing is a lapse, and the events
are properly nested. -/
theorem events_nested_caught :
    let start := boot .unlimited (.recording none #[])
    let r := Request.run (assemble [.function "f" [] false [.get "missing"], .define "f",
      .protect (some "e") [.get "f", .op (.call 0)] (some [.get "e", .op (.pop 1)]) (some [])])
    let during := r.reports start .discarding
    (during.countP Event.isEntry, during.countP Event.isBracket) = (1, 4) ∧ Nested during := by
  intro start r during
  obtain ⟨counted, silent, none⟩ :
      (during.countP Event.isEntry, during.countP Event.isBracket) = (1, 4) ∧
        (∀ e ∈ [] ++ during, e.isYield = false) ∧
        lapses Heap.collectionDue false (r.history start .discarding) = 0 := by
    decide +kernel
  exact ⟨counted, ((events_nested_iff .unlimited [] .discarding r).2.2 silent).2.mpr none⟩

/-- A block whose first section is refused because calls are nested too deeply: its entry is reported, and its
exit is not. -/
theorem refused_section_unclosed :
    let start := boot (.ofLimits { Limits.standard with maxRecursionDepth := some 1 }) (.recording none #[])
    let r := Request.run (assemble [.protect none [.int 1, .op (.pop 1)] none (some [])])
    let during := [.instruction 0 "Try" 0 1, .tryEnter 1]
    start.Records [] ∧ (start.serve .discarding r).2.Records during ∧
      (∀ e ∈ during, e.isYield = false) ∧ ¬ Nested during := by
  intro start r during
  have reported : r.reports start .discarding = during := by decide +kernel
  have recorded := (records_boot
    (.ofLimits { Limits.standard with maxRecursionDepth := some 1 })).serve .discarding r
  rw [List.nil_append, reported] at recorded
  refine ⟨rfl, recorded, by decide, fun nested => ?_⟩
  exact absurd nested.countP_isEntry (by decide)

end Machine

end ObjectMachine
