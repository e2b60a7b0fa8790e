import ObjectMachine.Proofs.Brackets
import ObjectMachine.Proofs.Generators
/-!
Where exits are missing. All parts of the engine close their brackets but for the lapses of protected blocks;
so the events of a request are properly nested exactly if there are none.
-/
namespace ObjectMachine

/-! ### Routine computations -/

/-- Whether a run of code is over. -/
def Completion.IsDone : Completion → Prop
  | done _ => True
  | yielded .. => False

/-- The entry points of the engine close their brackets. -/
structure Reentry.Closes (due : Schedule) (k : Reentry) : Prop where
  /-- Calls. -/
  call : ∀ callee args, (k.call callee args).Closes due fun _ => True
  /-- Runs of functions. -/
  invoke : ∀ p, (k.invoke p).Closes due fun _ => True
  /-- Runs of frames in which no section waits; they hand out no value. -/
  runFrame : ∀ f, f.parked = [] → (k.runFrame f).Closes due Completion.IsDone
  /-- Iterations. -/
  drain : ∀ iterator taken, (k.drain iterator taken).Closes due fun _ => True

namespace Engine

variable {due : Schedule} {k : Reentry}

theorem Op.SparesSections.of_routine {α : Type} {o : Op α} (routine : o.Routine) : o.SparesSections := by
  cases o with
  | store o => exact Payload.Unparked.of_isCode routine
  | change r c =>
    cases c with
    | generator state => exact routine.elim
    | _ => trivial
  | _ => trivial

namespace Closes

variable {α β : Type}

theorem raise (c : Cause) : (raise c : Engine α).Closes due fun _ => True :=
  .act trivial fun _ => List.forall_mem_nil _

theorem ask (f : Heap → α) : (ask f).Closes due fun _ => True :=
  .act trivial fun _ => List.forall_mem_nil _

theorem new {p : Payload} (unparked : p.Unparked) : (new p).Closes due fun _ => True :=
  .act unparked fun _ => List.forall_mem_nil _

theorem newScope (outer : ScopeRef) : (newScope outer).Closes due fun _ => True :=
  .act trivial fun _ => List.forall_mem_nil _

theorem putState (generator : Ref) (state : GeneratorState) (unparked : state.Unparked) :
    (change generator (.generator state)).Closes due fun _ => True :=
  .act unparked fun _ => List.forall_mem_nil _

/-- One computation after another, whatever the first one gives. -/
theorem after {x : Engine α} {f : α → Engine β} {Q : β → Prop} (first : x.Closes due fun _ => True)
    (later : ∀ a, (f a).Closes due Q) : (x >>= f).Closes due Q :=
  first.bind fun a _ => later a

/-- Binding a function makes a function, in which no section waits. -/
theorem bindFunction (f : Function) (this : Ref) :
    (match f.bind this with
      | .ok bound => Engine.new (.function bound)
      | .error cause => Engine.raise cause).Closes due fun _ => True := by
  split
  · exact .new trivial
  · exact .raise _

theorem resume (hk : k.Closes due) (generator : Ref) (name : String) {frame : Frame}
    {before : GeneratorState} (unparked : frame.parked = []) (same : before.Unparked) :
    (resume k generator name frame before).Closes due fun _ => True := by
  refine after (putState generator .running trivial) fun _ => ?_
  refine bind (resuming generator name (hk.runFrame frame unparked)) fun result done => ?_
  match result with
  | .error e => exact after (putState generator _ same) fun _ => .throw _
  | .ok (.ok (.yielded value frame)) => exact (done _ rfl).elim
  | .ok (.ok (.done value)) => exact after (putState generator .finished trivial) fun _ => .raise _
  | .ok (.error e) => exact after (putState generator .finished trivial) fun _ => .throw _

theorem generatorNext (hk : k.Closes due) (generator : Ref) :
    (generatorNext k generator).Closes due fun _ => True := by
  refine bind (payload generator) fun p unparked => ?_
  split
  · exact .raise _
  · exact .raise _
  · exact resume hk _ _ unparked unparked
  · exact resume hk _ _ unparked unparked
  · exact .throw _

/-- A routine computation closes its brackets if the entry points do. -/
theorem of_routine (hk : k.Closes due) {x : Engine α} (routine : Routine k x) :
    x.Closes due fun _ => True := by
  induction routine with
  | give a => exact .pure trivial
  | throw e => exact .throw e
  | @act _ o routine =>
    refine .act (Op.SparesSections.of_routine routine) fun m e mem => ?_
    cases o with
    | observe f => exact List.mem_singleton.mp mem ▸ routine m.depth
    | _ => cases mem
  | andThen _ _ ihx ihf => exact after ihx ihf
  | keeping refs _ ih => exact .keeping _ ih
  | holding nodes _ ih => exact .holding nodes ih
  | catching _ ih => exact .catching ih
  | forgiving _ ih => exact .forgiving ih
  | bindValue value this =>
    refine bind (payload value) fun p _ => ?_
    split
    · exact bindFunction _ this
    · exact .pure trivial
  | bindFunction function this =>
    have reads : (functionOf function).Closes due fun _ => True := by
      refine bind (payload function) fun p _ => ?_
      split
      · exact .pure trivial
      · exact bind (payload function) fun _ _ => .throw _
    exact after reads fun f => bindFunction f this
  | dispatch name args other ih =>
    refine .keeping _ ?_
    split
    · exact .raise _
    refine after (ask _) fun types => after (ask _) fun choice => ?_
    split
    · exact .holding _ (hk.invoke _)
    · exact hk.call _ _
    · split
      · exact ih _ rfl
      · exact after (ask _) fun names => .throw _
  | generatorNext generator => exact generatorNext hk generator
  | call callee args => exact hk.call callee args
  | drain iterator taken => exact hk.drain iterator taken

/-! ### Functions and Types -/

theorem runCode (hk : k.Closes due) (f : Function) (code : Code) (outer : ScopeRef) (generator : Bool)
    (args : Matched) : (runCode k f code outer generator args).Closes due fun _ => True := by
  refine after (newScope outer) fun scope => ?_
  refine after (of_routine hk (routine_defineAll scope _)) fun _ => ?_
  have runs (frame : Frame) (unparked : frame.parked = []) :
      (if generator then Engine.new (.generator f.name (.fresh frame))
        else k.runFrame frame >>= returned f.name).Closes due fun _ => True := by
    split
    · exact .new unparked
    · refine bind (hk.runFrame frame unparked) fun ended done => ?_
      unfold returned
      split
      · exact .pure trivial
      · exact .raise _
  dsimp only
  split
  · refine after (of_routine hk (.newList _)) fun list => ?_
    exact after (of_routine hk (.define _ _ _)) fun _ => runs _ rfl
  · exact runs _ rfl

theorem invoke (hk : k.Closes due) (p : Prepared) :
    (Engine.invoke k (runNative k) p).Closes due fun _ => True := by
  refine .calling _ _ ?_
  split
  · exact of_routine hk (routine_runNative _ _)
  · exact runCode hk _ _ _ _ _

theorem call (hk : k.Closes due) (callee : Ref) (args : List Ref) :
    (Engine.call k callee args).Closes due fun _ => True := by
  refine .keeping _ (after (of_routine hk (routine_prepare callee args)) fun prepared => ?_)
  split
  · exact hk.invoke _
  · refine of_routine hk ?_
    grind -funext

theorem newType (name : String) (parents : List Ref) : (newType name parents).Closes due fun _ => True := by
  refine after (.act trivial fun _ => List.forall_mem_nil _) fun result => ?_
  split
  · exact .pure trivial
  · exact after (ask _) fun names => .raise _

theorem makeClass (hk : k.Closes due) (f : Frame) (name body : String) (count : Nat) :
    (makeClass k f name body count).Closes due fun _ => True := by
  refine after (of_routine hk (routine_popMany f count)) fun popped => ?_
  refine after (of_routine hk (routine_checkParents name [] _)) fun _ => ?_
  refine after (newType name _) fun type => ?_
  split
  · exact .throw _
  refine after (newScope _) fun scope => ?_
  refine after (.mono (.nested (.keeping _ (hk.runFrame _ rfl))) fun _ _ => trivial) fun ended => ?_
  split
  · exact .raise _
  · refine after (of_routine hk (.loadScope scope)) fun s => ?_
    refine after (of_routine hk (routine_addMembers _ _ _)) fun _ => after (ask _) fun length => ?_
    refine after (.act trivial fun m e mem => ?_) fun _ => .pure trivial
    exact List.mem_singleton.mp mem ▸ rfl

theorem makeFunction (hk : k.Closes due) (f : Frame) (name body : String) (specs : List ParamSpec)
    (generator : Bool) : (makeFunction f name body specs generator).Closes due fun _ => True := by
  refine after (of_routine hk (routine_popMany f _)) fun popped => ?_
  refine after (of_routine hk (routine_parameters _ specs _)) fun params => ?_
  split
  · exact .raise _
  split
  · exact .throw _
  refine after (.act trivial fun m e mem => ?_) fun _ => after (.new trivial) fun _ => .pure trivial
  exact List.mem_singleton.mp mem ▸ rfl

end Closes

/-! ### Protected blocks -/

/-- The events of a block that was entered at a depth, behind its entry: its exit comes last, or it is
missing. -/
inductive Rest (depth : Nat) : Nat → List Event → Prop where
  | closed {n : Nat} {word : List Event} (inside : Bracketed n word) : Rest depth n (word ++ [.tryExit depth])
  | lapsed {n : Nat} {word : List Event} (inside : Bracketed n word) : Rest depth (n + 1) word

namespace Rest

variable {depth n n' : Nat} {word word' : List Event}

theorem prepend (first : Bracketed n word) (rest : Rest depth n' word') :
    Rest depth (n + n') (word ++ word') := by
  cases rest with
  | closed inside =>
    rw [← List.append_assoc]
    exact .closed (first.append inside)
  | lapsed inside => exact .lapsed (first.append inside)

theorem enter (rest : Rest depth n word) : Bracketed n (.tryEnter depth :: word) := by
  cases rest with
  | closed inside => exact .block depth inside
  | lapsed inside => exact .lapse depth inside

end Rest

/-- A step that goes on in a frame in which no section waits. -/
def GoesOn : Step → Prop
  | .next g | .jump _ g => g.parked = []
  | .yielded .. | .suspended .. => False

/-- What the rest of a block brings about on a machine, if no value is handed out. -/
structure FinishesFrom (due : Schedule) (held : List Node) (start : Bool) (x : Engine Step)
    (m : Machine) : Prop where
  /-- No section waits. -/
  unparked : (x.runUnder due m).machine.heap.Unparked
  /-- The exit is reported, unless that is a lapse. -/
  rest : Rest m.depth (lapses due start (x.history due held m)) (x.reports due m)
  /-- No handler is being prepared. -/
  settled : isPreparing due start (x.history due held m) = false
  /-- The frame goes on behind the block. -/
  value : ∀ step m', x.runUnder due m = .ok step m' → GoesOn step

/-- The rest of a block, which starts with the preparation of its handler or not. -/
def Finishes (due : Schedule) (start : Bool) (x : Engine Step) : Prop :=
  ∀ held m, m.heap.Unparked → (∀ e ∈ x.reports due m, e.isYield = false) → FinishesFrom due held start x m

/-- A block that is over reports its exit. -/
theorem finishes_finishBlock {f : Frame} (fresh : f.parked = []) (start : Bool) (next : Nat)
    (pending : Pending) :
    Finishes due start (finishBlock f next pending) := by
  intro held m unparked silent
  cases pending with
  | proceed =>
    refine ⟨unparked, .closed .nil, rfl, ?_⟩
    rintro _ _ ⟨⟩
    exact fresh
  | leave value =>
    refine ⟨unparked, .closed .nil, rfl, ?_⟩
    rintro _ _ ⟨⟩
    exact fresh
  | rethrow e =>
    refine ⟨unparked, .closed .nil, rfl, ?_⟩
    rintro _ _ ⟨⟩

/-- Whether a handler is being prepared after a section is over. -/
def preparesAfter : Phase → Except Raised (Option Ref) → Bool
  | .guarded, .error _ => true
  | _, _ => false

section
variable {held : List Node} {start : Bool} {phase : Phase} {pending : Pending} {body : Frame} {m : Machine}
  {g : SectionEnd → Engine Step}

/-- A section that is refused is a lapse. -/
theorem finishes_refused {e : Exhaustion} (unparked : m.heap.Unparked) (refused : m.enter = .error e) :
    FinishesFrom due held start (runSection k phase false pending body >>= g) m := by
  let x := keeping pending.links (k.runFrame body)
  have run : (runSection k phase false pending body >>= g).runUnder due m = .error (.ofExhaustion e) m := by
    show (andThen (andThen (inSection phase false x) _) g).runUnder due m = _
    simp only [runUnder, refused]
  have passed : (runSection k phase false pending body >>= g).history due held m =
      [.bars phase false e m] := by
    show (andThen (andThen (inSection phase false x) _) g).history due held m = _
    simp only [history, runUnder, refused, List.append_nil]
  have reported : (runSection k phase false pending body >>= g).reports due m = [] := by
    show (andThen (andThen (inSection phase false x) _) g).reports due m = _
    simp only [reports, Machine.reportsInside, runUnder, refused, List.append_nil]
  refine ⟨?_, ?_, ?_, ?_⟩
  · rw [run]
    exact unparked
  · rw [passed, reported]
    exact .lapsed .nil
  · rw [passed]
    rfl
  · rw [run]
    rintro _ _ ⟨⟩

/-- What a section that was entered goes through and reports, and how it ends. -/
theorem section_of_entered (due : Schedule) (held : List Node) (k : Reentry) (phase : Phase)
    (pending : Pending) (body : Frame) {inner : Machine} (entered : m.enter = .ok inner) :
    let x := keeping pending.links (k.runFrame body)
    (runSection k phase false pending body).history due held m =
        .opens phase false m :: (x.history due held inner ++ [.shuts phase m (x.runUnder due inner)]) ∧
      (runSection k phase false pending body).reports due m =
        x.reports due inner ++ (x.runUnder due inner).exits m.depth ∧
      (runSection k phase false pending body).runUnder due m =
        match x.runUnder due inner with
        | .ok (.yielded value body) m' => .ok (.yielded value body) m'.leave
        | .ok (.done value) m' => .ok (.ended (.ok value)) m'.leave
        | .error (.raised e) m' => .ok (.ended (.error e)) m'.leave
        | .error e m' => .error e (m'.leave.observe .tryExit) := by
  intro x
  have history : (inSection phase false x).history due held m =
      .opens phase false m :: (x.history due held inner ++ [.shuts phase m (x.runUnder due inner)]) := by
    simp only [history, entered]
  have reports : (inSection phase false x).reports due m =
      x.reports due inner ++ (x.runUnder due inner).exits m.depth := by
    simp only [reports, Machine.reportsInside, entered]
  rw [← history, ← reports]
  -- what is made of the result is given back at once
  refine ⟨?_, ?_, ?_⟩
  · refine (history_bind (inSection phase false x) _ held m).trans (List.append_right_eq_self.mpr ?_)
    split
    · split <;> rfl
    · rfl
  · refine (reports_bind (inSection phase false x) _ m).trans (List.append_right_eq_self.mpr ?_)
    split
    · split <;> rfl
    · rfl
  · show (andThen (inSection phase false x) _).runUnder due m = _
    simp only [runUnder, entered]
    cases x.runUnder due inner with
    | ok c m' => cases c <;> rfl
    | error e m' => cases e <;> rfl

/-- A section has the lapses of its code, and a handler is prepared only if it ends with an error. -/
theorem lapses_section (start : Bool) (phase : Phase) (m : Machine) (shut : Moment) {x : Engine Completion}
    {inner : Machine} (plain : ∀ preparing, shut.lapse due preparing = 0)
    (settled : isPreparing due false (x.history due held inner) = false) :
    lapses due start (.opens phase false m :: (x.history due held inner ++ [shut])) =
        lapses due false (x.history due held inner) ∧
      isPreparing due start (.opens phase false m :: (x.history due held inner ++ [shut])) =
        shut.prepares due false := by
  constructor
  · simp only [lapses, lapses_append, Moment.lapse, Moment.prepares, plain, Nat.add_zero, Nat.zero_add]
  · rw [isPreparing, List.foldl_cons, List.foldl_append]
    exact congrArg (fun b => Moment.prepares due b shut) settled

/-- A block runs a section, and goes on when that is over. A section that is left by what cannot be caught
reports the exit itself. -/
theorem finishes_section (hk : k.Closes due) (start : Bool) (unparked : body.parked = [])
    (later : ∀ result, Finishes due (preparesAfter phase result) (g (.ended result))) :
    Finishes due start (runSection k phase false pending body >>= g) := by
  intro held m before silent
  cases entered : m.enter with
  | error e => exact finishes_refused before entered
  | ok inner =>
    have closes := Closes.keeping pending.links (hk.runFrame body unparked)
    obtain ⟨passed, reported, ended⟩ := section_of_entered due held k phase pending body entered
    generalize keeping pending.links (k.runFrame body) = x at closes passed reported ended
    have begun : inner.heap.Unparked := (Machine.heap_of_enter entered).symm ▸ before
    rw [reports_bind, reported] at silent
    obtain ⟨between, brackets, settled, done⟩ := closes held inner begun fun e mem =>
      silent e (List.mem_append_left _ (List.mem_append_left _ mem))
    obtain ⟨lapsed, prepared⟩ := lapses_section start phase m
      (.shuts phase m (x.runUnder due inner)) (fun _ => rfl) settled
    rw [← passed] at lapsed prepared
    have same := Machine.nesting_leave entered (x.runUnder_nesting due inner)
    have goesOn (result : Except Raised (Option Ref)) (m' : Machine)
        (ran : (runSection k phase false pending body).runUnder due m = .ok (.ended result) m')
        (depth : m'.depth = m.depth) (unparked' : m'.heap.Unparked)
        (quiet : (x.runUnder due inner).exits m.depth = [])
        (prepares : (Moment.shuts phase m (x.runUnder due inner)).prepares due false =
          preparesAfter phase result) :
        FinishesFrom due held start (runSection k phase false pending body >>= g) m := by
      rw [ran] at silent
      obtain ⟨after, rest, settled', value⟩ := later result held m' unparked' fun e mem =>
        silent e (List.mem_append_right _ mem)
      refine ⟨?_, ?_, ?_, ?_⟩
      · rw [runUnder_bind, ran]
        exact after
      · rw [history_bind, reports_bind, reported, ran, quiet, List.append_nil, lapses_append, lapsed, prepared,
          prepares]
        exact .prepend brackets (depth ▸ rest)
      · rw [history_bind, ran, isPreparing_append, prepared, prepares]
        exact settled'
      · rw [runUnder_bind, ran]
        exact value
    have leaves (e : Interrupt) (m' : Machine)
        (ran : (runSection k phase false pending body).runUnder due m = .error e m')
        (unparked' : m'.heap.Unparked) (exits : (x.runUnder due inner).exits m.depth = [.tryExit m.depth])
        (prepares : (Moment.shuts phase m (x.runUnder due inner)).prepares due false = false) :
        FinishesFrom due held start (runSection k phase false pending body >>= g) m := by
      refine ⟨?_, ?_, ?_, ?_⟩
      · rw [runUnder_bind, ran]
        exact unparked'
      · rw [history_bind, reports_bind, reported, ran, exits, List.append_nil, List.append_nil, lapsed]
        exact .closed brackets
      · rw [history_bind, ran, List.append_nil, prepared, prepares]
      · rw [runUnder_bind, ran]
        rintro _ _ ⟨⟩
    cases ran : x.runUnder due inner with
    | ok c m' =>
      rw [ran] at between same ended
      cases c with
      | yielded value body => exact (done _ _ ran).elim
      | done value =>
        refine goesOn (.ok value) m'.leave ended (Machine.depth_eq_of_nesting same) between ?_ ?_
        · rw [ran]
          rfl
        · rw [ran]
          cases phase <;> rfl
    | error e m' =>
      rw [ran] at between same ended
      cases e with
      | raised e =>
        refine goesOn (.error e) m'.leave ended (Machine.depth_eq_of_nesting same) between ?_ ?_
        · rw [ran]
          rfl
        · rw [ran]
          cases phase <;> rfl
      | _ =>
        refine leaves _ _ ended between ?_ ?_
        · rw [ran]
          rfl
        · rw [ran]
          cases phase <;> rfl

end

/-! ### Handlers -/

/-- A computation of operations alone, which report nothing. -/
def Direct {α : Type} : Engine α → Prop
  | give _ => True
  | act o => o.SparesSections ∧ ∀ m, o.reports m = []
  | andThen x f => x.Direct ∧ ∀ a, (f a).Direct
  | _ => False

theorem Direct.bind {α β : Type} {x : Engine α} {f : α → Engine β} (first : x.Direct)
    (later : ∀ a, (f a).Direct) : (x >>= f).Direct :=
  ⟨first, later⟩

theorem direct_act {α : Type} {o : Op α} (spares : o.SparesSections) (silent : ∀ m, o.reports m = []) :
    (act o).Direct :=
  ⟨spares, silent⟩

theorem direct_newErrorObject (e : ErrorBody) (causes : List ErrorBody) : (newErrorObject e causes).Direct :=
  Direct.bind (direct_act trivial fun _ => rfl) fun _ => .bind (direct_act trivial fun _ => rfl) fun _ => trivial

theorem direct_bodyObject (e : ErrorBody) : (bodyObject e).Direct := by
  simp only [bodyObject]
  cases e.value with
  | some object => exact .bind (direct_act trivial fun _ => rfl) fun _ => trivial
  | none =>
    refine .bind (direct_newErrorObject e []) fun made => ?_
    exact .bind (direct_act trivial fun _ => rfl) fun _ => trivial

theorem direct_bodyObjects (errors : List ErrorBody) : (bodyObjects errors).Direct := by
  induction errors with
  | nil => trivial
  | cons e later ih => exact .bind (direct_bodyObject e) fun _ => .bind ih fun _ => trivial

theorem direct_errorObject (e : Raised) : (errorObject e).Direct := by
  simp only [errorObject]
  cases e.value with
  | some object => exact .bind (direct_act trivial fun _ => rfl) fun _ => trivial
  | none =>
    refine .bind (direct_newErrorObject _ _) fun made => ?_
    obtain ⟨object, message⟩ := made
    dsimp only
    split
    · exact .bind (direct_act trivial fun _ => rfl) fun _ => trivial
    · refine .bind (direct_bodyObjects _) fun objects => ?_
      refine .bind (direct_act trivial fun _ => rfl) fun list => ?_
      exact .bind (direct_act trivial fun _ => rfl) fun _ => trivial

/-- Operations that prepare a handler report nothing, and it is a lapse if one of them fails. -/
theorem Direct.prepares {α : Type} {x : Engine α} (direct : x.Direct) (due : Schedule) (held : List Node) {m : Machine}
    (unparked : m.heap.Unparked) :
    (x.runUnder due m).machine.heap.Unparked ∧ x.reports due m = [] ∧
      match x.runUnder due m with
      | .ok _ _ =>
        lapses due true (x.history due held m) = 0 ∧ isPreparing due true (x.history due held m) = true
      | .error _ _ =>
        lapses due true (x.history due held m) = 1 ∧ isPreparing due true (x.history due held m) = false := by
  induction x generalizing m with
  | give a => exact ⟨unparked, rfl, rfl, rfl⟩
  | act o =>
    obtain ⟨spares, silent⟩ := direct
    refine ⟨o.unparked_perform spares unparked, silent m, ?_⟩
    simp only [runUnder, history, lapses, isPreparing, List.foldl_cons, List.foldl_nil, Nat.add_zero]
    cases o with
    | observe e => cases silent m
    | _ =>
      simp only [Moment.lapse, Moment.prepares]
      split <;> rename_i ran <;> simp only [ran, if_true, and_self]
  | andThen x f ihx ihf =>
    obtain ⟨between, quiet, first⟩ := ihx direct.1 unparked
    cases ran : x.runUnder due m with
    | error e m' =>
      rw [ran] at between first
      simp only [runUnder, reports, history, ran, List.append_nil]
      exact ⟨between, quiet, first⟩
    | ok a m' =>
      rw [ran] at between first
      obtain ⟨after, quiet', later⟩ := ihf a (direct.2 a) between
      simp only [runUnder, reports, history, ran, quiet, lapses_append, isPreparing_append, first, Nat.zero_add,
        List.nil_append]
      exact ⟨after, quiet', later⟩
  | _ => exact direct.elim

/-- A handler that could be prepared runs; one that could not is a lapse. -/
theorem finishes_prepared {α : Type} {x : Engine α} {g : α → Engine Step} (direct : x.Direct)
    (later : ∀ a, Finishes due true (g a)) : Finishes due true (x >>= g) := by
  intro held m before silent
  obtain ⟨between, quiet, prepares⟩ := direct.prepares due held before
  cases ran : x.runUnder due m with
  | error e m' =>
    rw [ran] at between prepares
    refine ⟨?_, ?_, ?_, ?_⟩
    · rw [runUnder_bind, ran]
      exact between
    · rw [history_bind, reports_bind, ran, quiet, List.append_nil, List.append_nil, prepares.1]
      exact .lapsed .nil
    · rw [history_bind, ran, List.append_nil, prepares.2]
    · rw [runUnder_bind, ran]
      rintro _ _ ⟨⟩
  | ok a m' =>
    have same := x.runUnder_nesting due m
    rw [ran] at between prepares same
    rw [reports_bind, quiet, ran, List.nil_append] at silent
    obtain ⟨after, rest, settled, value⟩ := later a held m' between silent
    refine ⟨?_, ?_, ?_, ?_⟩
    · rw [runUnder_bind, ran]
      exact after
    · rw [history_bind, reports_bind, ran, quiet, lapses_append, prepares.1, prepares.2, Nat.zero_add,
        ← show m'.depth = m.depth from Machine.depth_eq_of_nesting same]
      exact rest
    · rw [history_bind, ran, isPreparing_append, prepares.2]
      exact settled
    · rw [runUnder_bind, ran]
      exact value

/-! ### Blocks -/

section
variable {f : Frame} {s : Sections}

theorem finishes_startCleanup (hk : k.Closes due) (fresh : f.parked = []) (start : Bool) (pending : Pending) :
    Finishes due start (startCleanup k f s pending) := by
  simp only [startCleanup]
  split
  · refine finishes_section hk start rfl fun result => ?_
    cases result with
    | error e => exact finishes_finishBlock fresh _ _ (.rethrow e)
    | ok value =>
      cases value with
      | none => exact finishes_finishBlock fresh _ _ pending
      | some value => exact finishes_finishBlock fresh _ _ (.leave value)
  · exact finishes_finishBlock fresh start _ pending

theorem finishes_runHandler (hk : k.Closes due) (fresh : f.parked = []) (start : Bool) (code : Code)
    (scope : ScopeRef) : Finishes due start (runHandler k f s false (Frame.start code scope)) := by
  refine finishes_section hk start rfl fun result => ?_
  cases result with
  | error e => exact finishes_startCleanup hk fresh _ (.rethrow e)
  | ok value =>
    cases value with
    | none => exact finishes_startCleanup hk fresh _ .proceed
    | some value => exact finishes_startCleanup hk fresh _ (.leave value)

theorem finishes_startHandler (hk : k.Closes due) (fresh : f.parked = []) (binding : Option String)
    (code : Code) (e : Raised) : Finishes due true (startHandler k f s binding code e) := by
  refine finishes_prepared (direct_act trivial fun _ => rfl) fun scope => ?_
  cases binding with
  | none => exact finishes_runHandler hk fresh true code scope
  | some name =>
    refine finishes_prepared (direct_errorObject e) fun error => ?_
    refine finishes_prepared (direct_act trivial fun _ => rfl) fun _ => ?_
    exact finishes_runHandler hk fresh true code scope

theorem finishes_runGuarded (hk : k.Closes due) (fresh : f.parked = []) (binding : Option String) (code : Code)
    (scope : ScopeRef) :
    Finishes due false (runGuarded k f s binding false (Frame.start code scope)) := by
  refine finishes_section hk false rfl fun result => ?_
  cases result with
  | error e =>
    dsimp only
    split
    · exact finishes_startHandler hk fresh binding _ e
    · exact finishes_startCleanup hk fresh _ (.rethrow e)
  | ok value =>
    cases value with
    | none => exact finishes_startCleanup hk fresh _ .proceed
    | some value => exact finishes_startCleanup hk fresh _ (.leave value)

end

/-- A protected block closes its brackets but for its lapse. -/
theorem Closes.protect (hk : k.Closes due) {f : Frame} (fresh : f.parked = []) (block : String)
    (binding : Option String) : (protect k f block binding).Closes due GoesOn := by
  simp only [Engine.protect]
  split
  · exact .throw _
  · rename_i s found
    rw [fresh]
    intro held m unparked silent
    obtain ⟨after, rest, settled, value⟩ :=
      finishes_runGuarded hk fresh binding s.guarded f.scope held (m.observe .tryEnter) unparked fun e mem =>
        silent e (List.mem_cons_of_mem _ mem)
    refine ⟨after, ?_, settled, value⟩
    have lapsed := rest.enter
    rw [← Nat.zero_add (lapses _ _ _)] at lapsed
    exact lapsed

end Engine

end ObjectMachine
