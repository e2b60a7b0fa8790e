import ObjectMachine.Proofs.Rethrow
/-!
Throwing. An instance of a Type of errors is thrown as the error that it is, which a handler turns back into the
same object, unless its data is a text: then a new plain error with that text is thrown in its place. Other texts
are thrown as such an error too, and any other value is refused.
-/
namespace ObjectMachine

theorem ErrorBody.typeRef_of_ofRef {e : ErrorBody} {T : Ref} (type : e.type = .ofRef T) : e.typeRef = T := by
  rw [typeRef, type, ErrorType.ofRef]
  cases found : ErrorKind.ofRef? T with
  | none => rfl
  | some kind => exact ErrorKind.ofRef?_eq_some_iff.mp found

/-- An error in flight keeps the value that was thrown on a heap: it has its Type, its message, and the value
itself. -/
structure Raised.Keeps (h : Heap) (v : Ref) (o : Object) (e : Raised) : Prop where
  /-- The value is that of the error. -/
  value : e.value = some v
  /-- The Type is exactly that of the value. -/
  type : e.typeRef = o.typeRef
  /-- The message is the text that is the member `message` of the value; empty if there is none. -/
  message : e.message = h.messageOf o

namespace Heap

variable {h : Heap} {v : Ref} {o : Object} {e : Raised}

theorem typeOf_of_object? (live : h.object? v = some o) : h.typeOf v = o.typeRef := by
  rw [typeOf, live, Option.map_some, Option.getD_some]

theorem keeps_of_thrown? (live : h.object? v = some o) (error : h.thrown? v = some e) : e.Keeps h v o := by
  obtain ⟨o', found, -, -, rfl⟩ := thrown?_eq_some_iff.mp error
  rw [live] at found
  cases found
  exact ⟨rfl, ErrorBody.typeRef_of_ofRef rfl, rfl⟩

/-- The name that a report gives to the Type of an error is the one that the Type has. -/
theorem BuiltinsStand.name_eq (stand : h.BuiltinsStand) (e : ErrorBody) :
    e.type.name h = h.nameOfType e.typeRef := by
  rw [ErrorBody.typeRef]
  cases e.type with
  | custom T => rfl
  | builtin kind =>
    have names : ∀ kind ∈ ErrorKind.all, boot.nameOfType kind.ref = kind.name := by decide +kernel
    have atStart : h.nameOfType kind.ref = boot.nameOfType kind.ref := by
      rw [nameOfType, nameOfType, stand _ kind.ref_mem_builtinTypeRefs]
    exact (atStart.trans (names kind kind.mem_all)).symm

end Heap

namespace Raised

/-! ### What becomes of an error that keeps its value -/

namespace Keeps

variable {h h' : Heap} {v : Ref} {o : Object} {e : Raised}

theorem through (keeps : e.Keeps h v o) (layers : List Layer) : (e.through layers).Keeps h v o :=
  ⟨keeps.value, keeps.type, keeps.message⟩

/-- The error is of just the built-in kinds that its value is an instance of, for as long as the value has its
Type. -/
theorem errorIs_eq (keeps : e.Keeps h v o) (stand : h'.BuiltinsStand) (same : h'.typeOf v = o.typeRef)
    (kind : ErrorKind) : h'.errorIs e.toErrorBody kind = h'.isInstance v kind.ref := by
  rw [stand.errorIs_eq, Heap.isInstance, same, keeps.type]

/-- A report of the error names the Type of its value and has its message. -/
theorem of_report? {report : Report} (keeps : e.Keeps h v o) (stand : h'.BuiltinsStand)
    (reported : e.report? h' = some report) :
    report.typeName = h'.nameOfType o.typeRef ∧ report.message = h.messageOf o := by
  simp only [Raised.report?, ErrorBody.report?, Option.bind_eq_bind, Option.bind_eq_some_iff, Option.pure_def,
    Option.some_inj] at reported
  obtain ⟨body, ⟨trace, -, rfl⟩, causes, -, rfl⟩ := reported
  have name : e.type.name h' = h'.nameOfType o.typeRef := by
    rw [stand.name_eq e.toErrorBody]
    exact congrArg _ keeps.type
  exact ⟨name, keeps.message⟩

end Keeps

/-- The plain error with a text. -/
def plain (s : String) : Raised :=
  { type := .builtin .error, message := s, value := none, trace := [], payload := [], causes := [] }

theorem inStep_plain (h : Heap) (s : String) : (plain s).InStep h :=
  .unbound ⟨rfl, ⟨.error, rfl⟩, List.forall_mem_nil _⟩ (List.forall_mem_nil _)

end Raised

namespace Engine

variable {m m' : Machine} {v r : Ref} {o : Object} {e : Raised} {s : String} {due : Schedule}

/-! ### Catching -/

/-- The object of an error that has one is that one. -/
theorem runUnder_errorObject (value : e.value = some v) (live : m.heap.object? v = some o) :
    (errorObject e).runUnder due m =
      .ok v (m.withHeap fun h => h.modify v (Change.flight e.trace e.causes).apply) := by
  have occupied : m.heap.objects.occupied v.slot := Option.isSome_iff_exists.mpr ⟨o, live⟩
  rw [errorObject, value]
  simp only [runUnder_bind, change, runUnder, Op.perform, if_pos occupied, runUnder_pure]

/-- A handler with a binding runs in a new scope, in which the name stands for the value of the error. -/
theorem runUnder_startHandler (value : e.value = some v) (k : Reentry) (f : Frame) (sections : Sections)
    (name : String) (code : Code) :
    (startHandler k f sections (some name) code e).runUnder due m = (do
      let scope ← newScope f.scope
      change v (.flight e.trace e.causes)
      define scope name v
      runHandler k f sections false (Frame.start code scope)).runUnder due m := by
  rw [startHandler, errorObject, value]
  simp only [runUnder_bind]
  cases (newScope f.scope).runUnder due m with
  | error i m' => rfl
  | ok scope m' =>
    dsimp only
    cases (change v (.flight e.trace e.causes)).runUnder due m' <;> rfl

/-! ### Throwing -/

/-- Storing succeeds, unless a budget refuses. -/
theorem runUnder_store (due : Schedule) (o : Object) (m : Machine) :
    (∃ r m', (act (.store o)).runUnder due m = .ok r m') ∨
      ∃ x m', (act (.store o)).runUnder due m = .error (.ofExhaustion x) m' := by
  simp only [runUnder, Op.perform, Op.onHeap]
  split
  · exact .inl ⟨_, _, rfl⟩
  · exact .inr ⟨_, _, rfl⟩

theorem runUnder_newErrorObject (due : Schedule) (e : ErrorBody) (causes : List ErrorBody) (m : Machine) :
    (∃ made m', (newErrorObject e causes).runUnder due m = .ok made m') ∨
      ∃ x m', (newErrorObject e causes).runUnder due m = .error (.ofExhaustion x) m' := by
  rw [newErrorObject, newOf, newStr, new, runUnder_bind]
  rcases runUnder_store due (.ofPayload (.error e.trace causes) (some e.typeRef)) m with
    ⟨r, m₁, first⟩ | ⟨x, m₁, refused⟩
  · rw [first]
    dsimp only
    rw [runUnder_bind]
    rcases runUnder_store due (.ofPayload (.str e.message) none) m₁ with ⟨t, m₂, second⟩ | ⟨x, m₂, refused⟩
    · rw [second]
      exact .inl ⟨(r, t), m₂, rfl⟩
    · rw [refused]
      exact .inr ⟨x, m₂, rfl⟩
  · rw [refused]
    exact .inr ⟨x, m₁, rfl⟩

/-- Making the object of a plain error succeeds, unless a budget refuses; the object is new. -/
theorem runUnder_errorObject_plain (due : Schedule) (w : m.heap.objects.WellFormed) (s : String) :
    (∃ r m', (errorObject (.plain s)).runUnder due m = .ok r m' ∧ m.heap.object? r = none) ∨
      ∃ x m', (errorObject (.plain s)).runUnder due m = .error (.ofExhaustion x) m' := by
  rw [errorObject]
  show (∃ r m', (newErrorObject (Raised.plain s).toErrorBody [] >>= _).runUnder due m = .ok r m' ∧ _) ∨
    ∃ x m', (newErrorObject (Raised.plain s).toErrorBody [] >>= _).runUnder due m = _
  rw [runUnder_bind]
  rcases runUnder_newErrorObject due (Raised.plain s).toErrorBody [] m with ⟨⟨r, t⟩, m₁, made⟩ | ⟨x, m₁, refused⟩
  · left
    obtain ⟨-, new, here, -⟩ := newErrorObject_ok w made
    have occupied : m₁.heap.objects.occupied r.slot := Option.isSome_iff_exists.mpr ⟨_, here⟩
    refine ⟨r, m₁.withHeap fun h => h.modify r (Change.write [("message", t)]).apply, ?_, new⟩
    rw [made]
    show (change r (.write [("message", t)]) >>= fun _ => pure r).runUnder due m₁ = _
    rw [runUnder_bind, change, runUnder, Op.perform, if_pos occupied]
    rfl
  · right
    refine ⟨x, m₁, ?_⟩
    rw [refused]

/-- To throw a text is to throw the object of the plain error with that text. -/
theorem runUnder_thrown_of_text {p : Payload} (text : m.heap.payload? v = some (.str s))
    (made : (errorObject (.plain s)).runUnder due m = .ok r m') (payload : m'.heap.payload? r = some p)
    (noText : p.isText = false) : (thrown v).runUnder due m = (thrown r).runUnder due m' := by
  rw [thrown, thrown, runUnder_bind, runUnder_bind, runUnder_payload, runUnder_payload, text, payload]
  show (errorObject (.plain s) >>= _).runUnder due m = _
  rw [runUnder_bind, made]
  cases p with
  | str s => cases noText
  | _ => rfl

/-- A text is thrown as a new plain error with that text, unless a budget refuses its object. -/
theorem runUnder_thrown_text (due : Schedule) (w : m.heap.objects.WellFormed) (stand : m.heap.BuiltinsStand)
    (text : m.heap.payload? v = some (.str s)) :
    (∃ r m', (thrown v).runUnder due m = .ok ((Raised.plain s).boundTo r) m' ∧ m.heap.object? r = none) ∨
      ∃ x m', (thrown v).runUnder due m = .error (.ofExhaustion x) m' := by
  rcases runUnder_errorObject_plain due w s with ⟨r, m', made, new⟩ | ⟨x, m', refused⟩
  · left
    obtain ⟨-, remembers, shown⟩ := thrown?_of_errorObject w stand (Raised.inStep_plain _ s) made
    rw [if_pos (remembers rfl)] at shown
    obtain ⟨o, here, noText, -⟩ := Heap.thrown?_eq_some_iff.mp shown
    have payload : m'.heap.payload? r = some o.payload := by rw [Heap.payload?, here, Option.map_some]
    refine ⟨r, m', ?_, new⟩
    rw [runUnder_thrown_of_text text made payload noText]
    exact runUnder_thrown shown
  · right
    refine ⟨x, m', ?_⟩
    rw [thrown, runUnder_bind, runUnder_payload, text]
    show (errorObject (.plain s) >>= _).runUnder due m = _
    rw [runUnder_bind, refused]

/-- An instance of a Type of errors whose data is not a text is thrown as the error that keeps it, and the machine
stays as it is. -/
theorem runUnder_thrown_error (due : Schedule) (live : m.heap.object? v = some o)
    (isError : m.heap.isInstance v ErrorKind.error.ref) (noText : o.payload.isText = false) :
    ∃ e, (thrown v).runUnder due m = .ok e m ∧ e.Keeps m.heap v o := by
  rw [Heap.isInstance, Heap.typeOf_of_object? live] at isError
  have shown := Heap.thrown?_eq_some_iff.mpr ⟨o, live, noText, isError, rfl⟩
  exact ⟨_, runUnder_thrown shown, Heap.keeps_of_thrown? live shown⟩

theorem payload?_of_text (live : m.heap.object? v = some o) (text : o.payload = .str s) :
    m.heap.payload? v = some (.str s) := by
  rw [Heap.payload?, live, Option.map_some, text]

/-- The data of a value that its error keeps is not a text: the error of a text has a new object. -/
theorem noText_of_keeps (w : m.heap.objects.WellFormed) (stand : m.heap.BuiltinsStand)
    (live : m.heap.object? v = some o) (threw : (thrown v).runUnder due m = .ok e m')
    (keeps : e.Keeps m.heap v o) : o.payload.isText = false := by
  cases data : o.payload with
  | str s =>
    rcases runUnder_thrown_text due w stand (payload?_of_text live data) with ⟨r, m'', other, new⟩ | ⟨x, m'', refused⟩
    · rw [threw] at other
      cases other
      cases keeps.value
      rw [live] at new
      cases new
    · rw [threw] at refused
      cases refused
  | _ => rfl

/-- What is neither a text nor an error is refused, and nothing happens. -/
theorem runUnder_thrown_other (due : Schedule) (live : m.heap.object? v = some o) (noText : o.payload.isText = false)
    (other : m.heap.isInstance v ErrorKind.error.ref = false) :
    (thrown v).runUnder due m = .error (.raised (.ofCause (.thrownType (m.heap.typeName v)))) m := by
  have payload : m.heap.payload? v = some o.payload := by rw [Heap.payload?, live, Option.map_some]
  rw [thrown, runUnder_bind, runUnder_payload, payload]
  dsimp only
  split
  · rename_i s text
    rw [text] at noText
    cases noText
  · rw [Heap.isInstance] at other
    simp only [runUnder_bind, runUnder_pure, runUnder_ask, other, Bool.not_false, ↓reduceIte]
    rfl

/-- The instruction that throws its operand raises the error that arises. -/
theorem runUnder_throwValue (due : Schedule) (k : Reentry) {f : Frame} {stack : List Ref} (top : f.stack = v :: stack) :
    (execute k f .throwValue).runUnder due m =
      match (thrown v).runUnder due m with
      | .ok e m' => .error (.raised e) m'
      | .error i m' => .error i m' := by
  obtain ⟨activation, parked⟩ := f
  show ((pop _) >>= fun popped => (thrown popped.1) >>= fun e => throw (.raised e)).runUnder due m = _
  rw [runUnder_bind, pop, top]
  show ((thrown v) >>= fun e => throw (.raised e)).runUnder due m = _
  rw [runUnder_bind]
  cases (thrown v).runUnder due m <;> rfl

end Engine

namespace Machine

open Engine

/-- For every live value of a session. An instance of a Type of errors is thrown as an error of exactly its Type
with its message, and the machine stays as it is, exactly if its data is not a text. A text is thrown as a new plain
error instead, unless a budget refuses the object. What is neither is refused with a `TypeError`, and nothing
happens. While the error that keeps its value passes through calls, it is of just the built-in kinds that the value
is an instance of; a handler that binds it binds the value; and if it escapes, its report names the Type of the
value and has its message. -/
theorem throw_keeps_iff (budget : Budget) (tracer : Tracer) (actions : List HostAction) {m : Machine}
    (reachable : m.heap ∈ (boot budget tracer).passage actions) {v : Ref} {o : Object}
    (live : m.heap.object? v = some o) (due : Schedule) :
    let h := m.heap
    let ran := (thrown v).runUnder due m
    -- what the instruction does
    (∀ k f stack, f.stack = v :: stack → (execute k f .throwValue).runUnder due m =
      match ran with
      | .ok e m' => .error (.raised e) m'
      | .error i m' => .error i m') ∧
    -- errors, texts, and other values
    (h.isInstance v ErrorKind.error.ref →
      ((∃ e m', ran = .ok e m' ∧ e.Keeps h v o) ↔ o.payload.isText = false) ∧
        (o.payload.isText = false → ∃ e, ran = .ok e m)) ∧
    (∀ s, o.payload = .str s →
      (∃ r m', ran = .ok ((Raised.plain s).boundTo r) m' ∧ h.object? r = none) ∨
        ∃ x m', ran = .error (.ofExhaustion x) m') ∧
    (h.isInstance v ErrorKind.error.ref = false → o.payload.isText = false →
      let e := Raised.ofCause (.thrownType (h.typeName v))
      ran = .error (.raised e) m ∧ e.type = .builtin .typeError) ∧
    -- what becomes of an error that keeps its value
    ∀ (e : Raised) (layers : List Layer), e.Keeps h v o → let passing := e.through layers
      (∀ actions', ∀ h' ∈ (boot budget tracer).passage actions', h'.typeOf v = h.typeOf v →
        ∀ kind, h'.errorIs passing.toErrorBody kind = h'.isInstance v kind.ref) ∧
      (∀ (due' : Schedule) (m' : Machine) (o' : Object), m'.heap.object? v = some o' →
        ∃ m'', (errorObject passing).runUnder due' m' = .ok v m'') ∧
      (∀ k f sections name code due' m', (startHandler k f sections (some name) code passing).runUnder due' m' = (do
        let scope ← newScope f.scope
        change v (.flight passing.trace passing.causes)
        define scope name v
        runHandler k f sections false (Frame.start code scope)).runUnder due' m') ∧
      ∀ (actions' : List HostAction) (printer : Printer) (request : Request) (m' : Machine) (report : Report),
        request.Escapes ((boot budget tracer).afterSession actions') printer passing m' →
        passing.report? m'.heap = some report →
        report.typeName = m'.heap.nameOfType o.typeRef ∧ report.message = h.messageOf o := by
  intro h ran
  have w : h.objects.WellFormed := (orderly_of_mem_passage reachable).objects
  have stand : h.BuiltinsStand := builtinsStand_of_mem_passage reachable
  have typeOf : h.typeOf v = o.typeRef := Heap.typeOf_of_object? live
  refine ⟨fun k f stack top => runUnder_throwValue due k top, fun isError => ⟨⟨?_, ?_⟩, ?_⟩, ?_,
    fun other noText => ⟨runUnder_thrown_other due live noText other, rfl⟩, ?_⟩
  · rintro ⟨e, m', threw, keeps⟩
    exact noText_of_keeps w stand live threw keeps
  · intro noText
    obtain ⟨e, threw, keeps⟩ := runUnder_thrown_error due live isError noText
    exact ⟨e, m, threw, keeps⟩
  · intro noText
    obtain ⟨e, threw, -⟩ := runUnder_thrown_error due live isError noText
    exact ⟨e, threw⟩
  · intro s text
    exact runUnder_thrown_text due w stand (payload?_of_text live text)
  · intro e layers keeps passing
    have still : passing.Keeps h v o := keeps.through layers
    refine ⟨?_, ?_, ?_, ?_⟩
    · intro actions' h' mem same kind
      exact still.errorIs_eq (builtinsStand_of_mem_passage mem) (same.trans typeOf) kind
    · intro due' m' o' there
      exact ⟨_, runUnder_errorObject still.value there⟩
    · intro k f sections name code due' m'
      exact runUnder_startHandler still.value k f sections name code
    · intro actions' printer request m' report escapes reported
      exact still.of_report? (builtinsStand_of_mem_passage (mem_passage_of_escapes escapes)) reported

/-- A program that defines a Type of errors with the given parents, and `v` as an instance made from a text. -/
def makesError (parents : List String) : List Statement :=
  parents.map .get ++ [.typeDef "E" parents.length [], .define "E", .get "E", .str "x", .op (.call 1), .define "v"]

/-- An instance of a Type that refines `TypeError` and `ValueError` is thrown as the error that it is, and that error
is a `ValueError` too. -/
theorem throw_keeps_two_kinds :
    let m := (boot .unlimited .silent).afterSession
      [.request .discarding (.run (assemble (makesError ["TypeError", "ValueError"])))]
    ∃ v o e, m.getGlobal? "v" = some v ∧ m.heap.object? v = some o ∧
      (thrown v).runUnder Heap.collectionDue m = .ok e m ∧ e.Keeps m.heap v o ∧
      m.heap.nameOfType e.typeRef = "E" ∧ e.message = "x" ∧ m.heap.errorIs e.toErrorBody .valueError := by
  intro m
  have made : ((m.getGlobal? "v").any fun v => (m.heap.object? v).any fun o =>
      m.heap.isInstance v ErrorKind.error.ref && m.heap.isInstance v ErrorKind.valueError.ref &&
        !o.payload.isText && m.heap.nameOfType o.typeRef == "E" && m.heap.messageOf o == "x") = true := by
    decide +kernel
  obtain ⟨v, named, here⟩ := (Option.any_eq_true _ _).mp made
  obtain ⟨o, live, facts⟩ := (Option.any_eq_true _ _).mp here
  simp only [Bool.and_eq_true, Bool.not_eq_true', beq_iff_eq] at facts
  obtain ⟨⟨⟨⟨error, valueError⟩, noText⟩, name⟩, message⟩ := facts
  have mem : m.heap ∈ (boot .unlimited .silent).passage
      [.request .discarding (.run (assemble (makesError ["TypeError", "ValueError"])))] :=
    heap_afterSession_mem_passage _ _
  obtain ⟨-, ofError, -, -, after⟩ :=
    throw_keeps_iff .unlimited .silent _ mem live Heap.collectionDue
  obtain ⟨kept, still⟩ := ofError error
  obtain ⟨e, m', threw, keeps⟩ := kept.mpr noText
  obtain ⟨e', threw'⟩ := still noText
  cases threw.symm.trans threw'
  obtain ⟨is, -⟩ := after e [] keeps
  refine ⟨v, o, e, named, live, threw, keeps, ?_, keeps.message.trans message, ?_⟩
  · rw [keeps.type]
    exact name
  · rw [← e.through_nil]
    exact (is _ _ mem rfl .valueError).trans valueError

/-- A program that throws such an instance, catches the error with a binding, and asks whether it caught the same
object. -/
def comparesCaught (parents : List String) : Code :=
  assemble (makesError parents ++ [.protect (some "e") [.get "v", .op .throwValue]
    (some [.get "e", .get "v", .op .same, .op .returnValue]) none])

/-- An instance of a Type that refines `string` and `Error` is not thrown as the error that it is: the Type is lost,
and a handler binds another object. -/
theorem text_error_replaced :
    let start := boot .unlimited .silent
    let ran := start.run .discarding (comparesCaught ["string", "Error"])
    ran.1.toOption = some .no ∧
      ∃ v e m', ran.2.getGlobal? "v" = some v ∧ ran.2.heap.isInstance v ErrorKind.error.ref ∧
        (thrown v).runUnder Heap.collectionDue ran.2 = .ok e m' ∧
        e.value ≠ some v ∧ e.typeRef ≠ ran.2.heap.typeOf v := by
  intro start ran
  obtain ⟨bound, made⟩ : ran.1.toOption = some .no ∧
      (ran.2.getGlobal? "v").any (fun v => ran.2.heap.isInstance v ErrorKind.error.ref &&
        match (thrown v).runUnder Heap.collectionDue ran.2 with
        | .ok e _ => e.value != some v && e.typeRef != ran.2.heap.typeOf v
        | .error _ _ => false) = true := by
    decide +kernel
  obtain ⟨v, named, here⟩ := (Option.any_eq_true _ _).mp made
  obtain ⟨error, lost⟩ := Bool.and_eq_true_iff.mp here
  split at lost
  · rename_i e m' threw
    obtain ⟨value, type⟩ := Bool.and_eq_true_iff.mp lost
    exact ⟨bound, v, e, m', named, error, threw, bne_iff_ne.mp value, bne_iff_ne.mp type⟩
  · cases lost

end Machine

end ObjectMachine
