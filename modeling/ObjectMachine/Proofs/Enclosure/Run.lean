import ObjectMachine.Proofs.Enclosure
/-!
Instructions and runs. The instructions that deal with scopes are the ones that need an argument: a scope is
opened within one that has a chain, the scope of a frame that is closed is not the one in which the frame
started, and the sections of a block start in the scope of the frame or wait in scopes that it shelters.
-/
namespace ObjectMachine

namespace Frame

variable {f : Frame} {h : Heap} {m m' : Machine}

/-- A frame with a section that waits in it is anchored if both are. -/
theorem Anchored.park {body : Frame} (anchored : f.Anchored h) (waits : body.Anchored h) (phase : Phase)
    (pending : Pending) : (Engine.park f phase pending body).Anchored h :=
  ⟨anchored.1, List.forall_mem_cons.mpr ⟨waits.1, waits.2⟩⟩

/-- The outermost section that waits in a frame, with those that wait in it. -/
theorem Anchored.unpark {a : Activation} {phase : Phase} {pending : Pending} {body : Activation}
    {inner : List Parked} (anchored : Frame.Anchored h ⟨a, ⟨phase, pending, body⟩ :: inner⟩) :
    Frame.Anchored h ⟨body, inner⟩ :=
  ⟨anchored.2 _ List.mem_cons_self, fun p mem => anchored.2 p (List.mem_cons_of_mem _ mem)⟩

/-- A frame whose scope is not the one in which it started goes on within another scope around that. -/
theorem Anchored.exit {s : Scope} (anchored : f.Anchored h) (inside : f.scope ≠ f.baseScope)
    (found : h.scope? f.scope = some s) :
    ∃ outer, s.outer = some outer ∧ Frame.Anchored h { f with scope := outer } := by
  obtain ⟨chain, c, mem⟩ := anchored.1
  cases c with
  | outermost last => exact (inside (List.mem_singleton.mp mem).symm).elim
  | @inner _ outer rest next c =>
    obtain ⟨s', there, around⟩ := Heap.around?_eq_some_iff.mp next
    cases found.symm.trans there
    have within := (List.mem_cons.mp mem).resolve_left (Ne.symm inside)
    exact ⟨outer, around, ⟨rest, c, within⟩, anchored.2⟩

/-- A frame goes on in a new scope within its own. -/
theorem Anchored.enter {h' : Heap} {s : ScopeRef} (anchored : f.Anchored h)
    (keeps : ∀ t chain, h.Chain t chain → h'.Chain t chain)
    (opened : ∀ chain, h.Chain f.scope chain → h'.Chain s (s :: chain)) :
    Frame.Anchored h' { f with scope := s } := by
  refine ⟨?_, (anchored.mono fun t chain _ c => keeps t chain c).2⟩
  obtain ⟨chain, c, mem⟩ := anchored.1
  exact ⟨s :: chain, opened chain c, List.mem_cons_of_mem _ mem⟩

/-- A frame that is kept while garbage is collected stays anchored. -/
theorem Anchored.collected {due : Schedule} {nodes : Unit → List Node} (anchored : f.Anchored m.heap)
    (kept : f.links ⊆ nodes ()) (ran : (Op.collectIfDue nodes).perform due m = .ok () m') :
    f.Anchored m'.heap := by
  simp only [Op.perform] at ran
  split at ran <;> cases ran
  · exact anchored.mono fun s chain mem c => c.collect (.root (List.mem_append_right _ (kept mem)))
  · exact anchored

end Frame

namespace Engine

variable {due : Schedule} {k : Reentry} {m : Machine}

/-- The frame that goes on is anchored. -/
def Progress.Anchored : Progress → Heap → Prop
  | running f, h => f.Anchored h
  | complete completion, h => completion.Anchored h

/-- The same instruction does the same with other entry points, if it does not run other code. -/
theorem execute_eq_of_runsCode {op : Opcode} (quiet : op.runsCode = false) (k k' : Reentry) (f : Frame) :
    execute k f op = execute k' f op := by
  cases op <;> first | rfl | cases quiet

namespace Secure

/-! ### Functions and Types -/

theorem runCode (hk : k.Secure due) (f : Function) (code : Code) {outer : ScopeRef} (generator : Bool)
    (args : Matched) (rooted : m.heap.Rooted) (c : ∃ chain, m.heap.Chain outer chain) :
    (Engine.runCode k f code outer generator args).Secure due (fun _ _ => True) m := by
  obtain ⟨chain, c⟩ := c
  refine .bind (.newScope rooted ⟨chain, c⟩) fun scope m₁ _ opened rooted => ?_
  have start {m : Machine} (rooted : m.heap.Rooted) (same : m₁.heap.SameAround m.heap) :
      (if generator then new (.generator f.name (.fresh (Frame.start code scope)))
        else k.runFrame (Frame.start code scope) >>= returned f.name).Secure due (fun _ _ => True) m := by
    have anchored : (Frame.start code scope).Anchored m.heap :=
      Frame.anchored_start code ⟨_, same.keeps (opened.2 chain c)⟩
    split
    · exact .act rooted anchored trivial fun _ _ _ => trivial
    · refine .bind (hk.runFrame _ _ rooted anchored) fun ended _ _ _ rooted => ?_
      unfold returned
      split
      · exact .pure rooted trivial
      · exact .raise rooted _
  refine .bind (.of_still (routine_defineAll scope _) rooted) fun _ m₂ _ defined rooted => ?_
  dsimp only
  split
  · refine .bind (.of_still (.newList _) rooted) fun list m₃ _ stored rooted => ?_
    refine .bind (.of_still (.define scope _ list) rooted) fun _ m₄ _ named rooted => ?_
    exact start rooted ((defined.trans stored).trans named)
  · exact start rooted defined

theorem invoke (hk : k.Secure due) (p : Prepared) (rooted : m.heap.Rooted) (anchored : p.function.Anchored m.heap) :
    (Engine.invoke k (runNative k) p).Secure due (fun _ _ => True) m := by
  refine .calling _ _ rooted fun inner heap _ => ?_
  rw [← heap] at rooted anchored
  split
  · exact .of_routine hk (routine_runNative _ _) rooted
  · rename_i code scope generator body
    exact .runCode hk _ _ _ _ rooted (anchored code scope generator body)

theorem call (hk : k.Secure due) (callee : Ref) (args : List Ref) (rooted : m.heap.Rooted) :
    (Engine.call k callee args).Secure due (fun _ _ => True) m := by
  have prepares {m : Machine} (rooted : m.heap.Rooted) :
      (Engine.prepare callee args).Secure due (fun p h => ∀ call, p = some call → call.function.Anchored h) m := by
    refine .bind (.of_still (.load callee) rooted) fun _ _ _ _ rooted => ?_
    refine .bind (.ask rooted _) fun answer m' _ accepted rooted => ?_
    split
    · rename_i prepared
      refine .pure rooted fun call same => ?_
      subst same
      exact rooted.data callee _ (Heap.payload?_of_prepare accepted.symm)
    · exact .throw rooted rfl
  refine .keepingObjects _ (.bind (prepares rooted) fun prepared m' _ anchored rooted => ?_)
  split
  · exact hk.invoke _ _ rooted (anchored _ rfl)
  · refine .of_routine hk ?_ rooted
    grind -funext

/-- A frame makes a function in its scope, and no scope is moved. -/
theorem makeFunction {f : Frame} (name body : String) (specs : List ParamSpec) (generator : Bool)
    (rooted : m.heap.Rooted) (anchored : f.Anchored m.heap) :
    (Engine.makeFunction f name body specs generator).Secure due (fun _ h => m.heap.SameAround h) m := by
  refine .bind (.of_gives (.of_still (routine_popMany f _) rooted) (gives_popMany f _))
    fun popped m₁ _ promised rooted => ?_
  obtain ⟨taken, rest⟩ := promised
  refine .bind (.of_still (routine_parameters _ specs _) rooted) fun params m₂ _ declared rooted => ?_
  split
  · exact .raise rooted _
  split
  · exact .fail rooted (by simp)
  refine .bind (.sparing rooted trivial trivial) fun _ m₃ _ told rooted => ?_
  have same : m.heap.SameAround m₃.heap := (taken.trans declared).trans told
  have captured := ((anchored.of_setting (Frame.setting_of_unloaded rest)).of_sameAround same).chain
  refine .bind (.sparing rooted ?_ trivial) fun function m₄ _ stored rooted => .pure rooted (same.trans stored)
  rintro _ _ _ ⟨⟩
  exact captured

theorem newType (name : String) (parents : List Ref) (rooted : m.heap.Rooted) :
    (Engine.newType name parents).Secure due (fun _ _ => True) m := by
  refine .bind (.sparing rooted trivial trivial) fun result m' _ _ rooted => ?_
  split
  · exact .pure rooted trivial
  · exact .bind (.ask rooted _) fun names _ _ _ rooted => .raise rooted _

theorem makeClass (hk : k.Secure due) {f : Frame} (name body : String) (count : Nat) (rooted : m.heap.Rooted)
    (pinned : f.Pinned m) : (Engine.makeClass k f name body count).Secure due (fun _ _ => True) m := by
  refine .bind (.of_gives (.of_routine hk (routine_popMany f count) rooted) (gives_popMany f count))
    fun popped m₁ taken promised rooted => ?_
  have rest := Frame.setting_of_unloaded promised.2
  refine .bind (.of_routine hk (routine_checkParents name [] _) rooted) fun _ m₂ checked _ rooted => ?_
  refine .bind (.newType name _ rooted) fun type m₃ made _ rooted => ?_
  split
  · exact .fail rooted (by simp)
  have around := (pinned.shelters ((taken.trans checked).trans made)).anchored.of_setting rest
  obtain ⟨chain, c⟩ := around.chain
  refine .bind (.newScope rooted ⟨chain, c⟩) fun scope m₄ _ opened rooted => ?_
  refine .bind (P := fun _ _ => True) (.nested rooted fun inner heap _ => .keepingObjects _ ?_)
    fun ended m₅ _ _ rooted => ?_
  · refine (hk.runFrame (Frame.start _ scope) _ (heap ▸ rooted) ?_).mono fun _ _ _ => trivial
    exact Frame.anchored_start _ ⟨_, heap ▸ opened.2 chain c⟩
  split
  · exact .raise rooted _
  · refine .bind (.of_routine hk (.loadScope scope) rooted) fun s _ _ _ rooted => ?_
    refine .bind (.of_routine hk (routine_addMembers _ _ _) rooted) fun _ _ _ _ rooted => ?_
    refine .bind (.ask rooted _) fun length _ _ _ rooted => ?_
    exact .bind (.sparing rooted trivial trivial) fun _ _ _ _ rooted => .pure rooted trivial

/-! ### Protected blocks -/

theorem runSection (hk : k.Secure due) (phase : Phase) (resumed : Bool) (pending : Pending) {body : Frame}
    (rooted : m.heap.Rooted) (anchored : body.Anchored m.heap) :
    (Engine.runSection k phase resumed pending body).Secure due SectionEnd.Anchored m := by
  refine .bind (.inSection phase resumed rooted fun inner heap _ => .keeping _ ?_
    (hk.runFrame body _ (heap ▸ rooted) (heap ▸ anchored))) fun result m' _ ended rooted => ?_
  · rw [pending.filterMap_scope?_links]
    trivial
  split
  · exact .pure rooted (ended _ rfl)
  · exact .pure rooted trivial
  · exact .pure rooted trivial

theorem finishBlock {f : Frame} (next : Nat) (pending : Pending) (rooted : m.heap.Rooted)
    (anchored : f.Anchored m.heap) : (Engine.finishBlock f next pending).Secure due Step.Anchored m := by
  refine .bind (.sparing rooted trivial trivial) fun _ m' _ told rooted => ?_
  split
  · exact .pure rooted (anchored.of_sameAround told)
  · exact .pure rooted (anchored.of_sameAround told)
  · exact .throw rooted rfl

/-- A block runs a section and goes on when that is over; a section that hands out a value waits. -/
theorem afterSection (hk : k.Secure due) {f body : Frame} (phase : Phase) (resumed : Bool) (pending : Pending)
    {g : SectionEnd → Engine Step} (rooted : m.heap.Rooted) (pinned : f.Pinned m)
    (anchored : body.Anchored m.heap)
    (waits : ∀ value body, g (.yielded value body) = Pure.pure (.suspended value (park f phase pending body)))
    (later : ∀ result (m' : Machine), m'.heap.Rooted → f.Pinned m' →
      (g (.ended result)).Secure due Step.Anchored m') :
    (Engine.runSection k phase resumed pending body >>= g).Secure due Step.Anchored m := by
  refine .bind (.runSection hk phase resumed pending rooted anchored) fun ended m' sheltered after rooted => ?_
  have pinned := pinned.shelters sheltered
  cases ended with
  | yielded value body =>
    rw [waits]
    exact .pure rooted (pinned.anchored.park after phase pending)
  | ended result => exact later result m' rooted pinned

section
variable {f body : Frame} (hk : k.Secure due) (rooted : m.heap.Rooted) (pinned : f.Pinned m)
include hk rooted pinned

theorem runCleanup (next : Nat) (resumed : Bool) (pending : Pending) (anchored : body.Anchored m.heap) :
    (Engine.runCleanup k f next resumed pending body).Secure due Step.Anchored m := by
  refine .afterSection hk .cleanup resumed pending rooted pinned anchored (fun _ _ => rfl) ?_
  intro result m' rooted pinned
  cases result with
  | error e => exact .finishBlock next _ rooted pinned.anchored
  | ok value => cases value <;> exact .finishBlock next _ rooted pinned.anchored

theorem startCleanup (sections : Sections) (pending : Pending) :
    (Engine.startCleanup k f sections pending).Secure due Step.Anchored m := by
  unfold Engine.startCleanup
  split
  · exact .runCleanup hk rooted pinned _ false pending (Frame.anchored_start _ pinned.anchored.chain)
  · exact .finishBlock _ pending rooted pinned.anchored

theorem runHandler (sections : Sections) (resumed : Bool) (anchored : body.Anchored m.heap) :
    (Engine.runHandler k f sections resumed body).Secure due Step.Anchored m := by
  refine .afterSection hk .handler resumed .proceed rooted pinned anchored (fun _ _ => rfl) ?_
  intro result m' rooted pinned
  cases result with
  | error e => exact .startCleanup hk rooted pinned sections _
  | ok value => cases value <;> exact .startCleanup hk rooted pinned sections _

/-- A handler starts in a new scope within that of the frame. -/
theorem startHandler (sections : Sections) (binding : Option String) (code : Code) (e : Raised) :
    (Engine.startHandler k f sections binding code e).Secure due Step.Anchored m := by
  obtain ⟨chain, c⟩ := pinned.anchored.chain
  refine .bind (.newScope rooted ⟨chain, c⟩) fun scope m₁ first opened rooted => ?_
  have start {m₂ : Machine} (rooted : m₂.heap.Rooted) (later : m₁.Shelters m₂)
      (same : m₁.heap.SameAround m₂.heap) :
      (Engine.runHandler k f sections false (Frame.start code scope)).Secure due Step.Anchored m₂ :=
    .runHandler hk rooted (pinned.shelters (first.trans later)) sections false
      (Frame.anchored_start code ⟨_, same.keeps (opened.2 chain c)⟩)
  split
  · refine .bind (.of_still (routine_errorObject e) rooted) fun error m₂ second made rooted => ?_
    refine .bind (.of_still (.define scope _ error) rooted) fun _ m₃ third named rooted => ?_
    exact start rooted (second.trans third) (made.trans named)
  · exact start rooted (.refl rooted.scopes) (.refl _)

theorem runGuarded (sections : Sections) (binding : Option String) (resumed : Bool)
    (anchored : body.Anchored m.heap) :
    (Engine.runGuarded k f sections binding resumed body).Secure due Step.Anchored m := by
  refine .afterSection hk .guarded resumed .proceed rooted pinned anchored (fun _ _ => rfl) ?_
  intro result m' rooted pinned
  cases result with
  | error e =>
    dsimp only
    split
    · exact .startHandler hk rooted pinned sections binding _ e
    · exact .startCleanup hk rooted pinned sections _
  | ok value => cases value <;> exact .startCleanup hk rooted pinned sections _

theorem protect (block : String) (binding : Option String) :
    (Engine.protect k f block binding).Secure due Step.Anchored m := by
  unfold Engine.protect
  split
  · exact .fail rooted (by simp)
  rename_i sections found
  obtain ⟨activation, parked⟩ := f
  cases parked with
  | nil =>
    -- the block is entered, and its first section starts in the scope of the frame
    refine .bind (.sparing rooted trivial trivial) fun _ m' sheltered _ rooted => ?_
    have pinned := pinned.shelters sheltered
    exact .runGuarded hk rooted pinned sections binding false (Frame.anchored_start _ pinned.anchored.chain)
  | cons p inner =>
    obtain ⟨phase, pending, body⟩ := p
    -- the section that waits goes on, and the frame around it waits without it
    have waits := pinned.anchored.unpark
    cases phase with
    | guarded => exact .runGuarded hk rooted pinned.base sections binding true waits
    | handler => exact .runHandler hk rooted pinned.base sections true waits
    | cleanup => exact .runCleanup hk rooted pinned.base _ true pending waits

end

/-! ### Instructions -/

/-- An instruction whose frame is anchored, and is among the roots if other code may run, leads to a frame that
is anchored. -/
theorem execute (hk : k.Secure due) {f : Frame} (op : Opcode) (rooted : m.heap.Rooted)
    (anchored : f.Anchored m.heap) (pins : op.runsCode → f.Pinned m) :
    (Engine.execute k f op).Secure due Step.Anchored m := by
  by_cases block : ∃ name binding, op = .tryBlock name binding
  · obtain ⟨name, binding, rfl⟩ := block
    exact .protect hk rooted (pins rfl) name binding
  by_cases opens : op = .enterScope
  · subst opens
    refine .bind (.newScope rooted anchored.chain) fun scope m' _ opened rooted => .pure rooted ?_
    exact anchored.enter opened.1 opened.2
  by_cases closes : op = .exitScope
  · subst closes
    simp only [Engine.execute]
    split
    · exact .fail rooted (by simp)
    rename_i inside
    have reads : (Engine.loadScope f.scope).Secure due
        (fun s h => h.scope? f.scope = some s ∧ m.heap.SameAround h) m := by
      refine .act rooted trivial trivial fun s m' ran => ?_
      simp only [Op.perform] at ran
      split at ran <;> cases ran
      rename_i found
      exact ⟨found, .refl _⟩
    refine .bind reads fun s m' _ promised rooted => ?_
    obtain ⟨found, same⟩ := promised
    obtain ⟨outer, around, goesOn⟩ := (anchored.of_sameAround same).exit inside found
    simp only [around]
    exact .pure rooted goesOn
  -- all other instructions leave the frame in its scope
  have kept : (Engine.execute k f op).Secure due (fun _ h => f.Anchored h) m := by
    cases runs : op.runsCode with
    | true =>
      refine .sheltering (pins runs) ?_
      cases op with
      | makeClass name body count =>
        exact .bind (.makeClass hk name body count rooted (pins rfl)) fun _ _ _ _ rooted => .pure rooted trivial
      | tryBlock name binding => exact (block ⟨name, binding, rfl⟩).elim
      | _ => first | cases runs; done | exact .of_routine hk (routine_execute f _ rfl) rooted
    | false =>
      have still : (Engine.execute k f op).Secure due (fun _ h => m.heap.SameAround h) m := by
        rw [execute_eq_of_runsCode runs k (reentry 0)]
        cases op with
        | makeFunction name body specs generator =>
          exact .bind (.makeFunction name body specs generator rooted anchored)
            fun _ _ _ same rooted => .pure rooted same
        | enterScope => exact (opens rfl).elim
        | exitScope => exact (closes rfl).elim
        | _ => first | cases runs; done | exact .of_still (routine_execute f _ rfl) rooted
      exact still.mono fun _ _ same => anchored.of_sameAround same
  have remains := execute_remains (k := k) f op (fun name binding same => block ⟨name, binding, same⟩)
    ⟨opens, closes⟩
  refine (kept.of_gives remains).mono fun step h promised => ?_
  obtain ⟨anchored, remains⟩ := promised
  cases step with
  | next g | jump target g => exact anchored.of_setting remains
  | yielded value g => exact anchored.of_setting remains.2
  | suspended value g => exact remains.elim

theorem runInstruction (hk : k.Secure due) {f : Frame} (rooted : m.heap.Rooted) (anchored : f.Anchored m.heap) :
    (Engine.runInstruction k f).Secure due Progress.Anchored m := by
  simp only [Engine.runInstruction]
  split
  · exact .pure rooted trivial
  rename_i instruction found
  refine .bind (.sparing rooted trivial trivial) fun _ m₁ _ booked rooted => ?_
  have anchored := anchored.of_sameAround booked
  refine .bind (P := fun _ h => f.Anchored h) ?_ fun _ m₂ _ anchored rooted => ?_
  · exact .act rooted trivial (f.anchored_iff.mp anchored) fun _ _ ran =>
      anchored.collected (List.Subset.refl _) ran
  refine .bind (.sparing rooted trivial trivial) fun _ m₃ _ told rooted => ?_
  have anchored := anchored.of_sameAround told
  refine .bind (.executing _ (.keeping _ ?_ (.execute hk instruction.op rooted anchored ?_)))
    fun step m₄ _ leads rooted => .pure rooted ?_
  · split
    · exact f.anchored_iff.mp anchored
    · trivial
  · intro runs
    refine ⟨anchored, fun n mem => ?_⟩
    rw [Machine.roots_pushRoots, if_pos runs]
    exact List.mem_append_right _ mem
  · cases step with
    | next g | jump target g =>
      simp only [settle, settle.proceed]
      split
      · trivial
      · exact leads
    | yielded value g | suspended value g => exact leads

end Secure

/-! ### Runs -/

/-- The entry points of the engine are secure, whatever the fuel. -/
theorem secure_reentry (due : Schedule) (fuel : Nat) : (reentry fuel).Secure due := by
  induction fuel with
  | zero => exact secure_reentry_zero due
  | succ n ih =>
    refine ⟨fun callee args m rooted => .call ih callee args rooted,
      fun p m rooted anchored => .invoke ih p rooted anchored, fun f m rooted anchored => ?_,
      fun iterator taken m rooted => .of_routine ih (routine_drain iterator taken) rooted⟩
    refine .bind (.runInstruction ih rooted anchored) fun progress m' _ goesOn rooted => ?_
    split
    · exact ih.runFrame _ m' rooted goesOn
    · exact .pure rooted goesOn

end Engine

/-- A request is secure if the outer scope has a chain. -/
theorem Request.secure_computation (due : Schedule) {globals : ScopeRef} (r : Request) {m : Machine}
    (rooted : m.heap.Rooted) (c : ∃ chain, m.heap.Chain globals chain) :
    (r.computation globals).Secure due (fun _ _ => True) m := by
  have entries := Engine.secure_reentry due Machine.fuel
  cases r with
  | run code =>
    obtain ⟨chain, c⟩ := c
    refine .bind (.sparing rooted trivial trivial) fun _ m₁ _ allowed rooted => ?_
    refine .bind (.sparing rooted trivial trivial) fun _ m₂ _ noted rooted => ?_
    refine .bind (P := Completion.Anchored) (.nested rooted fun inner heap _ => ?_)
      fun ended m₃ _ _ rooted => ?_
    · refine entries.runFrame (Frame.start code globals) inner (heap ▸ rooted) ?_
      exact Frame.anchored_start code ⟨chain, heap ▸ (allowed.trans noted).keeps c⟩
    split
    · exact .pure rooted trivial
    · exact .raise rooted _
  | call callee args => exact entries.call callee args m rooted
  | operator name args => exact .of_routine entries (Engine.routine_callOperator name args true) rooted
  | getMember obj name => exact .of_routine entries (Engine.routine_getMember obj name) rooted
  | setMember obj name value =>
    exact .bind (.of_routine entries (Engine.routine_setMember obj name value) rooted)
      fun _ _ _ _ rooted => .pure rooted trivial

end ObjectMachine
