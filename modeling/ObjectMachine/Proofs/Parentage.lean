import ObjectMachine.Proofs.Ancestry
import ObjectMachine.Proofs.Literals
import ObjectMachine.Proofs.ReportedKinds
import ObjectMachine.Proofs.Reports
import ObjectMachine.Proofs.Retention
import ObjectMachine.Proofs.Routine.Run
/-!
The parents of a Type are Types. A class checks its parents right before its Type is stored, so that at no moment a Type
is stored but with parents that are Types then. What ancestors a Type has are therefore Types too, and stay so: a Type
keeps its ancestors alive. A new Type gets a vacant slot, which is none of theirs; so no Type occurs twice among the
ancestors of another, whatever is collected in a session.
-/
namespace ObjectMachine

/-! ### Moments -/

/-- A Type is stored only with parents that are Types, the root of all Types being one. -/
def Op.Parented (h : Heap) {α : Type} : Op α → Prop
  | storeType _ parents => ∀ P ∈ parents, h.isType P ∨ P = Kind.object.ref
  | _ => True

/-- At no moment a Type is stored with other parents. -/
def Moment.Parented : Moment → Prop
  | acts o _ m => o.Parented m.heap
  | forgiven moment => moment.Parented
  | _ => True

theorem Op.Parented.of_routine {α : Type} {o : Op α} (routine : o.Routine) (h : Heap) : o.Parented h := by
  cases o with
  | storeType => exact routine.elim
  | _ => trivial

namespace Engine

variable {α β : Type} {k : Reentry}

/-- A computation stores Types only with parents that are Types. -/
def Parented (x : Engine α) : Prop :=
  ∀ (due : Schedule) (held : List Node) (m : Machine), ∀ moment ∈ x.history due held m, moment.Parented

end Engine

/-- The entry points of the engine store Types only with parents that are Types. -/
structure Reentry.Parented (k : Reentry) : Prop where
  /-- Calls. -/
  call : ∀ callee args, (k.call callee args).Parented
  /-- Runs of functions. -/
  invoke : ∀ p, (k.invoke p).Parented
  /-- Runs of frames. -/
  runFrame : ∀ f, (k.runFrame f).Parented
  /-- Iterations. -/
  drain : ∀ iterator taken, (k.drain iterator taken).Parented

namespace Engine

variable {α β : Type} {k : Reentry}

theorem parented_historyInside {history : Machine → List Moment} {m : Machine}
    (inside : ∀ inner, ∀ moment ∈ history inner, moment.Parented) :
    ∀ moment ∈ m.historyInside history, moment.Parented := by
  intro moment mem
  simp only [Machine.historyInside] at mem
  split at mem
  · rw [List.mem_singleton.mp mem]
    trivial
  · rename_i inner _
    rcases List.mem_cons.mp mem with rfl | mem
    · trivial
    · exact inside inner moment mem

namespace Parented

theorem give (a : α) : (Engine.give a).Parented := fun _ _ _ => List.forall_mem_nil _

theorem pure (a : α) : (Pure.pure a : Engine α).Parented := give a

theorem throw (e : Interrupt) : (Engine.throw e : Engine α).Parented :=
  fun _ _ _ => List.forall_mem_singleton.mpr trivial

theorem act {o : Op α} (parented : ∀ h, o.Parented h) : (Engine.act o).Parented :=
  fun _ _ m => List.forall_mem_singleton.mpr (parented m.heap)

/-- What follows may rest on what the first computation did. -/
theorem bind_of {x : Engine α} {f : α → Engine β} (first : x.Parented)
    (later : ∀ due m a m', x.runUnder due m = .ok a m' →
      ∀ held, ∀ moment ∈ (f a).history due held m', moment.Parented) : (x >>= f).Parented := by
  intro due held m
  rw [history_bind]
  refine List.forall_mem_append.mpr ⟨first due held m, ?_⟩
  split
  · rename_i a m' ran
    exact later due m a m' ran held
  · exact List.forall_mem_nil _

theorem bind {x : Engine α} {f : α → Engine β} (first : x.Parented) (later : ∀ a, (f a).Parented) :
    (x >>= f).Parented :=
  first.bind_of fun due _ a m' _ held => later a due held m'

theorem keeping (nodes : List Node) {x : Engine α} (inner : x.Parented) : (Engine.keeping nodes x).Parented :=
  fun due held m => inner due held (m.pushRoots nodes)

theorem holding (nodes : List Node) {x : Engine α} (inner : x.Parented) : (Engine.holding nodes x).Parented :=
  fun due held m => inner due (nodes ++ held) m

theorem executing (site : Site) {x : Engine α} (inner : x.Parented) : (Engine.executing site x).Parented := inner

theorem catching {x : Engine α} (inner : x.Parented) : (Engine.catching x).Parented := inner

theorem forgiving {x : Engine α} (inner : x.Parented) : (Engine.forgiving x).Parented :=
  fun due held m => List.forall_mem_map.mpr (inner due held m)

theorem calling (name : String) (args : List Ref) {x : Engine α} (inner : x.Parented) :
    (Engine.calling name args x).Parented :=
  fun due held _ => parented_historyInside fun inside => inner due held (inside.observe (.call name))

theorem nested {x : Engine α} (inner : x.Parented) : (Engine.nested x).Parented :=
  fun due held _ => parented_historyInside fun inside => inner due held inside

theorem resuming (generator : Ref) (name : String) {x : Engine Completion} (inner : x.Parented) :
    (Engine.resuming generator name x).Parented :=
  fun due held _ => parented_historyInside fun inside => inner due held (inside.observe .resume)

theorem inSection (phase : Phase) (resumed : Bool) {x : Engine Completion} (inner : x.Parented) :
    (Engine.inSection phase resumed x).Parented := by
  intro due held m moment mem
  simp only [history] at mem
  split at mem
  · rw [List.mem_singleton.mp mem]
    trivial
  · rename_i inside _
    rcases List.mem_cons.mp mem with rfl | mem
    · trivial
    · rcases List.mem_append.mp mem with mem | mem
      · exact inner due held inside moment mem
      · rw [List.mem_singleton.mp mem]
        trivial

theorem ask (f : Heap → α) : (Engine.ask f).Parented := act fun _ => trivial

theorem raise (c : Cause) : (Engine.raise c : Engine α).Parented := act fun _ => trivial

theorem new (p : Payload) : (Engine.new p).Parented := act fun _ => trivial

theorem payload (r : Ref) : (Engine.payload r).Parented := bind (act fun _ => trivial) fun _ => pure _

theorem putState (generator : Ref) (state : GeneratorState) : (change generator (.generator state)).Parented :=
  act fun _ => trivial

theorem bindFunction (f : Function) (this : Ref) :
    (match f.bind this with
      | .ok bound => Engine.new (.function bound)
      | .error cause => Engine.raise cause).Parented := by
  split
  · exact new _
  · exact raise _

theorem generatorNext (hk : k.Parented) (generator : Ref) : (Engine.generatorNext k generator).Parented := by
  have resumes (name : String) (frame : Frame) (before : GeneratorState) :
      (resume k generator name frame before).Parented := by
    refine bind (putState generator .running) fun _ => ?_
    refine bind (resuming generator name (hk.runFrame frame)) fun result => ?_
    split
    · exact bind (putState generator _) fun _ => throw _
    · exact bind (act fun _ => trivial) fun _ => bind (putState generator _) fun _ => pure _
    · exact bind (putState generator .finished) fun _ => raise _
    · exact bind (putState generator .finished) fun _ => throw _
  refine bind (payload generator) fun p => ?_
  split
  · exact raise _
  · exact raise _
  · exact resumes _ _ _
  · exact resumes _ _ _
  · exact throw _

/-- A routine computation stores no Type itself. -/
theorem of_routine (hk : k.Parented) {x : Engine α} (routine : Routine k x) : x.Parented := by
  induction routine with
  | give a => exact give a
  | throw e => exact throw e
  | act routine => exact act (.of_routine routine)
  | andThen _ _ ihx ihf => exact bind ihx ihf
  | keeping refs _ ih => exact keeping _ ih
  | holding nodes _ ih => exact holding nodes ih
  | catching _ ih => exact catching ih
  | forgiving _ ih => exact forgiving ih
  | bindValue value this =>
    refine bind (payload value) fun p => ?_
    split
    · exact bindFunction _ this
    · exact pure _
  | bindFunction function this =>
    have reads : (functionOf function).Parented := by
      refine bind (payload function) fun p => ?_
      split
      · exact pure _
      · exact bind (payload function) fun _ => throw _
    exact bind reads fun f => bindFunction f this
  | dispatch name args other ih =>
    refine keeping _ ?_
    split
    · exact raise _
    refine bind (ask _) fun types => bind (ask _) fun choice => ?_
    split
    · exact holding _ (hk.invoke _)
    · exact hk.call _ _
    · split
      · exact ih _ rfl
      · exact bind (ask _) fun names => throw _
  | generatorNext generator => exact generatorNext hk generator
  | call callee args => exact hk.call callee args
  | drain iterator taken => exact hk.drain iterator taken

/-! ### Functions and Types -/

theorem runCode (hk : k.Parented) (f : Function) (code : Code) (outer : ScopeRef) (generator : Bool) (args : Matched) :
    (Engine.runCode k f code outer generator args).Parented := by
  refine bind (act fun _ => trivial) fun scope => bind (of_routine hk (routine_defineAll scope _)) fun _ => ?_
  have runs (frame : Frame) :
      (if generator then Engine.new (.generator f.name (.fresh frame))
        else k.runFrame frame >>= returned f.name).Parented := by
    split
    · exact new _
    · refine bind (hk.runFrame frame) fun ended => ?_
      unfold returned
      split
      · exact pure _
      · exact raise _
  dsimp only
  split
  · exact bind (of_routine hk (.newList _)) fun list => bind (of_routine hk (.define _ _ _)) fun _ => runs _
  · exact runs _

theorem invoke (hk : k.Parented) (p : Prepared) : (Engine.invoke k (runNative k) p).Parented := by
  refine calling _ _ ?_
  split
  · exact of_routine hk (routine_runNative _ _)
  · exact runCode hk _ _ _ _ _

theorem call (hk : k.Parented) (callee : Ref) (args : List Ref) : (Engine.call k callee args).Parented := by
  refine keeping _ (bind (of_routine hk (routine_prepare callee args)) fun prepared => ?_)
  split
  · exact hk.invoke _
  · refine of_routine hk ?_
    grind -funext

/-- Parents that were checked are Types, and the machine is as it was. -/
theorem types_of_checkParents {due : Schedule} {m m' : Machine} {name : String} {seen parents : List Ref}
    (ran : (checkParents name seen parents).runUnder due m = .ok () m') :
    m' = m ∧ ∀ P ∈ parents, m.heap.isType P := by
  induction parents generalizing seen with
  | nil =>
    cases ran
    exact ⟨rfl, List.forall_mem_nil _⟩
  | cons parent later ih =>
    rw [checkParents, runUnder_bind, runUnder_ask] at ran
    dsimp only at ran
    split at ran
    · cases ran
    · rename_i isType
      split at ran
      · cases ran
      · obtain ⟨same, rest⟩ := ih ran
        exact ⟨same, List.forall_mem_cons.mpr ⟨by simpa using isType, rest⟩⟩

/-- A Type whose parents are Types. -/
theorem newType {due : Schedule} {m : Machine} (name : String) {parents : List Ref}
    (types : ∀ P ∈ parents, m.heap.isType P ∨ P = Kind.object.ref) (held : List Node) :
    ∀ moment ∈ (Engine.newType name parents).history due held m, moment.Parented := by
  rw [Engine.newType, history_bind]
  refine List.forall_mem_append.mpr ⟨List.forall_mem_singleton.mpr types, ?_⟩
  split
  · split
    · exact pure _ due held _
    · exact bind (ask _) (fun names => raise _) due held _
  · exact List.forall_mem_nil _

/-- The Type of a class is stored right after its parents are checked. -/
theorem checked (hk : k.Parented) (name : String) (parents : List Ref) {f : Ref → Engine β}
    (later : ∀ type, (f type).Parented) :
    (checkParents name [] parents >>= fun _ =>
      Engine.newType name (if parents.isEmpty then [Kind.object.ref] else parents) >>= f).Parented := by
  refine bind_of (of_routine hk (routine_checkParents name [] parents)) fun due m _ m' ran held => ?_
  obtain ⟨rfl, types⟩ := types_of_checkParents ran
  have parented : ∀ P ∈ (if parents.isEmpty then [Kind.object.ref] else parents),
      m'.heap.isType P ∨ P = Kind.object.ref := by
    split
    · exact List.forall_mem_singleton.mpr (.inr rfl)
    · exact fun P mem => .inl (types P mem)
  rw [history_bind]
  refine List.forall_mem_append.mpr ⟨newType name parented held, ?_⟩
  split
  · exact later _ due held _
  · exact List.forall_mem_nil _

theorem makeClass (hk : k.Parented) (f : Frame) (name body : String) (count : Nat) :
    (Engine.makeClass k f name body count).Parented := by
  refine bind (of_routine hk (routine_popMany f count)) fun popped => checked hk name _ fun type => ?_
  split
  · exact throw _
  refine bind (act fun _ => trivial) fun scope => bind (nested (keeping _ (hk.runFrame _))) fun ended => ?_
  split
  · exact raise _
  · refine bind (act fun _ => trivial) fun s => bind (of_routine hk (routine_addMembers _ _ _)) fun _ => ?_
    exact bind (ask _) fun length => bind (act fun _ => trivial) fun _ => pure _

theorem makeFunction (hk : k.Parented) (f : Frame) (name body : String) (specs : List ParamSpec) (generator : Bool) :
    (Engine.makeFunction f name body specs generator).Parented := by
  refine bind (of_routine hk (routine_popMany f _)) fun popped =>
    bind (of_routine hk (routine_parameters _ specs _)) fun params => ?_
  split
  · exact raise _
  split
  · exact throw _
  exact bind (act fun _ => trivial) fun _ => bind (new _) fun _ => pure _

/-! ### Protected blocks -/

section
variable (hk : k.Parented) (f : Frame)
include hk

theorem runSection (phase : Phase) (resumed : Bool) (pending : Pending) (body : Frame) :
    (Engine.runSection k phase resumed pending body).Parented := by
  refine bind (inSection phase resumed (keeping _ (hk.runFrame body))) fun result => ?_
  split <;> exact pure _

omit hk in
theorem finishBlock (next : Nat) (pending : Pending) : (Engine.finishBlock f next pending).Parented := by
  refine bind (act fun _ => trivial) fun _ => ?_
  split
  · exact pure _
  · exact pure _
  · exact throw _

theorem runCleanup (next : Nat) (resumed : Bool) (pending : Pending) (body : Frame) :
    (Engine.runCleanup k f next resumed pending body).Parented := by
  refine bind (runSection hk _ _ _ _) fun ended => ?_
  split
  · exact pure _
  all_goals exact finishBlock f _ _

theorem startCleanup (sections : Sections) (pending : Pending) :
    (Engine.startCleanup k f sections pending).Parented := by
  unfold Engine.startCleanup
  split
  · exact runCleanup hk f _ _ _ _
  · exact finishBlock f _ _

theorem runHandler (sections : Sections) (resumed : Bool) (body : Frame) :
    (Engine.runHandler k f sections resumed body).Parented := by
  refine bind (runSection hk _ _ _ _) fun ended => ?_
  split
  · exact pure _
  all_goals exact startCleanup hk f _ _

theorem startHandler (sections : Sections) (binding : Option String) (code : Code) (e : Raised) :
    (Engine.startHandler k f sections binding code e).Parented := by
  refine bind (act fun _ => trivial) fun scope => ?_
  dsimp only
  split
  · refine bind (of_routine hk (routine_errorObject e)) fun error => bind (act fun _ => trivial) fun _ => ?_
    exact runHandler hk f _ _ _
  · exact runHandler hk f _ _ _

theorem runGuarded (sections : Sections) (binding : Option String) (resumed : Bool) (body : Frame) :
    (Engine.runGuarded k f sections binding resumed body).Parented := by
  refine bind (runSection hk _ _ _ _) fun ended => ?_
  split
  · exact pure _
  · exact startCleanup hk f _ _
  · exact startCleanup hk f _ _
  · split
    · exact startHandler hk f _ _ _ _
    · exact startCleanup hk f _ _

theorem protect (block : String) (binding : Option String) : (Engine.protect k f block binding).Parented := by
  unfold Engine.protect
  split
  · exact throw _
  split
  · exact bind (act fun _ => trivial) fun _ => runGuarded hk f _ _ _ _
  · dsimp only
    split
    · exact runGuarded hk _ _ _ _ _
    · exact runHandler hk _ _ _ _
    · exact runCleanup hk _ _ _ _ _

/-! ### Instructions -/

theorem execute (op : Opcode) : (Engine.execute k f op).Parented := by
  cases runs : op.isScoped with
  | false => exact of_routine hk (routine_execute f op runs)
  | true =>
    cases op with
    | enterScope => exact bind (act fun _ => trivial) fun _ => pure _
    | exitScope =>
      simp only [Engine.execute]
      split
      · exact throw _
      · refine bind (act fun _ => trivial) fun s => ?_
        split
        · exact pure _
        · exact throw _
    | makeFunction name body specs generator => exact bind (makeFunction hk f _ _ _ _) fun _ => pure _
    | makeClass name body count => exact bind (makeClass hk f _ _ _) fun _ => pure _
    | tryBlock block binding => exact protect hk f block binding
    | _ => cases runs

theorem runInstruction : (Engine.runInstruction k f).Parented := by
  unfold Engine.runInstruction
  split
  · exact pure _
  refine bind (act fun _ => trivial) fun _ => bind (act fun _ => trivial) fun _ => ?_
  refine bind (act fun _ => trivial) fun _ => ?_
  exact bind (executing _ (keeping _ (execute hk f _))) fun step => pure _

end

end Parented

/-- Whatever the engine does, it stores Types only with parents that are Types. -/
theorem parented_reentry (fuel : Nat) : (reentry fuel).Parented := by
  induction fuel with
  | zero => exact ⟨fun _ _ => .throw _, fun _ => .throw _, fun _ => .throw _, fun _ _ => .throw _⟩
  | succ n ih =>
    refine ⟨fun callee args => .call ih callee args, fun p => .invoke ih p, fun f => ?_,
      fun iterator taken => .of_routine ih (routine_drain iterator taken)⟩
    refine .bind (.runInstruction ih f) fun progress => ?_
    split
    · exact ih.runFrame _
    · exact .pure _

end Engine

/-- So does a request. -/
theorem Request.parented_computation (globals : ScopeRef) (r : Request) : (r.computation globals).Parented := by
  have entries := Engine.parented_reentry Machine.fuel
  cases r with
  | run code =>
    refine .bind (.act fun _ => trivial) fun _ => .bind (.act fun _ => trivial) fun _ => ?_
    refine .bind (.nested (entries.runFrame _)) fun ended => ?_
    split
    · exact .pure _
    · exact .raise _
  | call callee args => exact entries.call callee args
  | operator name args => exact .of_routine entries (Engine.routine_callOperator name args true)
  | getMember obj name => exact .of_routine entries (Engine.routine_getMember obj name)
  | setMember obj name value =>
    exact .bind (.of_routine entries (Engine.routine_setMember obj name value)) fun _ => .pure _

/-- At no moment of a session a Type is stored with other parents. -/
theorem Machine.parented_of_mem_sessionHistory {m : Machine} {actions : List HostAction} {moment : Moment}
    (mem : moment ∈ m.sessionHistory actions) : moment.Parented := by
  induction actions generalizing m with
  | nil => cases mem
  | cons a later ih =>
    rcases List.mem_append.mp mem with now | mem
    · cases a with
      | request printer r => exact r.parented_computation m.globals _ _ _ moment now
      | _ => cases now
    · exact ih mem


/-! ### Heaps -/

namespace Heap

variable {h h' : Heap} {T : Ref} {info : TypeInfo}

/-- A Type that a step makes has only Types for parents, the root of all Types being one. -/
def ParentsStand (h h' : Heap) : Prop :=
  h.objects.WellFormed → ∀ T info, h.typeInfo? T = none → h'.typeInfo? T = some info →
    ∀ P ∈ info.parents, h.isType P ∨ P = Kind.object.ref

/-- No Type occurs twice among the ancestors of a Type, and all of these are Types. -/
structure Lined (h : Heap) : Prop where
  /-- Each ancestor occurs once. -/
  nodup : ∀ T, (h.mro T).Nodup
  /-- Ancestors are Types. -/
  types : ∀ T, ∀ U ∈ h.mro T, h.isType U

theorem ParentsStand.of_fewer (fewer : ∀ T info, h'.typeInfo? T = some info → h.typeInfo? T = some info) :
    h.ParentsStand h' := by
  intro _ T info new found
  rw [fewer T info found] at new
  cases new

/-- No step that a host makes by itself makes a Type. -/
theorem hostSteps_parentsStand : HostSteps ParentsStand where
  finish h generators := .of_fewer fun T info found => by rwa [finishAll, typeInfo?_changeAll] at found
  store h p storable := by
    intro w T info new found
    have free : p.isReserved = false := by cases p <;> first | rfl | cases storable
    rw [typeInfo?_allocate w free, new] at found
    cases found
  bind h s f := .of_fewer fun _ _ found => found
  collect h roots := .of_fewer fun _ _ => typeInfo?_of_collect

theorem hostSteps_step_and_parentsStand : HostSteps fun h h' => h.Step h' ∧ h.ParentsStand h' where
  finish h generators := ⟨hostSteps_step.finish h generators, hostSteps_parentsStand.finish h generators⟩
  store h p storable := ⟨hostSteps_step.store h p storable, hostSteps_parentsStand.store h p storable⟩
  bind h s f := ⟨hostSteps_step.bind h s f, hostSteps_parentsStand.bind h s f⟩
  collect h roots := ⟨hostSteps_step.collect h roots, hostSteps_parentsStand.collect h roots⟩

/-- A Type that is stored has the parents it is given, or none. -/
theorem parents_of_allocateType {name : String} {parents : List Ref} (w : h.objects.WellFormed)
    (new : h.typeInfo? T = none) (found : (h.allocateType name parents).2.typeInfo? T = some info) :
    info.parents ⊆ parents := by
  simp only [allocateType] at found
  cases stored : h.allocate (.ofPayload (.type ⟨name, [], []⟩) none) with
  | mk result h₁ =>
    rw [stored] at found
    cases result with
    | error e =>
      have same : h₁ = h := eq_of_allocate_error stored
      rw [same, new] at found
      cases found
    | ok r =>
      have stores := stores_of_allocate w stored
      rcases eq_or_ne T r with rfl | other
      · have placeholder := typeInfo?_eq_some_iff.mpr stores.payload?
        dsimp only at found
        split at found
        · cases placeholder.symm.trans found
          exact List.nil_subset _
        · simp only [typeInfo?, payload?, object?_modify, stores.object?, ↓reduceIte, Option.map_some,
            Option.some.injEq] at found
          subst found
          exact List.Subset.refl parents
      · have vacant : h₁.typeInfo? T = none := (stores.typeInfo?_of_ne other).trans new
        dsimp only at found
        split at found
        · cases vacant.symm.trans found
        · have kept (f : Object → Object) : (h₁.modify r f).object? T = h₁.object? T := by
            rw [object?_modify, if_neg (Ne.symm other)]
          rw [typeInfo?_congr (kept _), vacant] at found
          cases found

end Heap

/-- An operation makes Types only from Types if it stores them so. -/
theorem Op.Parented.parentsStand {due : Schedule} {α : Type} {o : Op α} {m : Machine} (parented : o.Parented m.heap)
    (defining : o.Defining) : m.heap.ParentsStand (o.perform due m).machine.heap := by
  intro w T info new found P mem
  have absent {p : Payload} (is : p = .type info) : m.heap.payload? T ≠ some p := by
    rintro there
    rw [is, ← Heap.typeInfo?_eq_some_iff, new] at there
    cases there
  cases (o.origin_perform due w).2 T _ (Heap.typeInfo?_eq_some_iff.mp found) with
  | kept there => exact absurd there (absent rfl)
  | changed c q _ there became =>
    exact absurd there (absent ((Heap.onPayload_eq_type_iff c q info).mp became.symm))
  | made makes =>
    cases o with
    | store o =>
      have free : o.payload.isReserved = false := defining
      rw [← (makes : Payload.type info = o.payload)] at free
      cases free
    | storeType name parents =>
      rw [Op.perform, Op.heap_onHeap] at found
      exact parented P (Heap.parents_of_allocateType w new found mem)
    | _ => exact makes.elim

/-- So does whatever happens at a moment. -/
theorem Moment.Parented.steps {due : Schedule} {moment : Moment} (parented : moment.Parented)
    (defining : moment.Defining) : moment.Steps due fun h h' => h.Step h' ∧ h.ParentsStand h' := by
  induction moment with
  | acts o held m => exact ⟨o.step_perform due m defining, parented.parentsStand defining⟩
  | forgiven moment ih => exact ih parented defining
  | _ => trivial

namespace Heap

variable {h h' : Heap} {T U : Ref} {info : TypeInfo}

theorem isType_of_typeInfo? (found : h.typeInfo? T = some info) : h.isType T :=
  Option.isSome_iff_exists.mpr ⟨info, found⟩

/-- A collection leaves the ancestors of a Type that it leaves: the Type refers to them. -/
theorem Lined.collect (lined : h.Lined) (roots : List Node) : (h.collect roots).2.Lined := by
  have left (T : Ref) : (h.collect roots).2.mro T = [] ∨
      ∃ info, (h.collect roots).2.typeInfo? T = some info ∧ h.typeInfo? T = some info ∧
        (h.collect roots).2.mro T = info.mro ∧ h.mro T = info.mro := by
    cases found : (h.collect roots).2.typeInfo? T with
    | none => exact .inl (mro_of_typeInfo?_none found)
    | some info =>
      have before := typeInfo?_of_collect found
      exact .inr ⟨info, rfl, before, mro_of_typeInfo? found, mro_of_typeInfo? before⟩
  refine ⟨fun T => ?_, fun T U mem => ?_⟩
  · rcases left T with none | ⟨info, -, -, after, before⟩
    · exact none ▸ List.nodup_nil
    · exact after.trans before.symm ▸ lined.nodup T
  · rcases left T with none | ⟨info, found, found₀, after, before⟩
    · rw [none] at mem
      cases mem
    rw [after] at mem
    obtain ⟨o, at_T, -⟩ := exists_object_of_typeInfo? found
    have occupied : (h.collect roots).2.Occupied (.object T) := Option.isSome_iff_exists.mpr ⟨o, at_T⟩
    have reached : h.Reaches roots (.object U) :=
      (occupied_collect_iff.mp occupied).2.handle (refersTo_of_typeInfo? found₀ (List.mem_append_right _ mem))
    obtain ⟨infoU, foundU⟩ := Option.isSome_iff_exists.mp (lined.types T U (before ▸ mem))
    obtain ⟨oU, at_U, -⟩ := exists_object_of_typeInfo? foundU
    have marked : (h.reached roots).marked (.object U) :=
      marked_reached_iff.mpr ⟨reached, hasSlot_of_object? at_U⟩
    have same : (h.collect roots).2.object? U = h.object? U := by rw [object?_collect, if_pos marked]
    exact isType_of_typeInfo? ((typeInfo?_congr same).trans foundU)

/-- A Type that is made has each ancestor once: they are the Type itself, which is new, and Types that its parents lead
to. -/
theorem Lined.new (lined : h.Lined) (step : h.Step h') (stand : h.ParentsStand h') (w : h.objects.WellFormed)
    (root : h.isType Kind.object.ref) (new : h.typeInfo? T = none) (found : h'.typeInfo? T = some info) :
    info.mro.Nodup ∧ ∀ U ∈ info.mro, U = T ∨ h.isType U := by
  have parents : ∀ P ∈ info.parents, h.isType P := by
    intro P mem
    rcases stand w T info new found P mem with type | rfl
    · exact type
    · exact root
  cases step.retypes w with
  | same types =>
    rw [types, new] at found
    cases found
  | fewer types =>
    rw [types T info found] at new
    cases new
  | new T₁ info₁ vacant types ancestors =>
    rw [types] at found
    split at found
    · rename_i here
      subst here
      cases found
      rcases ancestors with ⟨-, none⟩ | ⟨some, linear⟩
      · rw [none]
        exact ⟨List.nodup_nil, List.forall_mem_nil _⟩
      obtain ⟨rest, starts, merged⟩ := Lineage.exists_of_linearize (Lineage.not_mem_of_linearize some linear) linear
      obtain ⟨nodup, lists, -, -⟩ := Lineage.merge_eq_ok (Nat.lt_succ_self _) merged
      have types : ∀ U ∈ rest, h.isType U := by
        intro U mem
        rw [lists, Lineage.mergedOrders, List.flatten_append, List.mem_append, List.flatten_singleton] at mem
        rcases mem with above | isParent
        · obtain ⟨_, order, inP⟩ := List.mem_flatten.mp above
          obtain ⟨P, -, rfl⟩ := List.mem_map.mp order
          exact lined.types P U inP
        · exact parents U isParent
      have fresh : T ∉ rest := by
        intro mem
        have type := types T mem
        rw [isType, new] at type
        cases type
      rw [starts]
      refine ⟨List.nodup_cons.mpr ⟨fresh, nodup⟩, fun U mem => ?_⟩
      exact (List.mem_cons.mp mem).imp_right (types U)
    · rw [new] at found
      cases found

/-- Every step leaves the ancestors in line. -/
theorem Lined.step (lined : h.Lined) (step : h.Step h') (stand : h.ParentsStand h') (w : h.objects.WellFormed)
    (root : h.isType Kind.object.ref) : h'.Lined := by
  by_cases collects : ∃ roots, h' = (h.collect roots).2
  · obtain ⟨roots, rfl⟩ := collects
    exact lined.collect roots
  have kept {T : Ref} {info : TypeInfo} (found : h.typeInfo? T = some info) : h'.typeInfo? T = some info := by
    rw [typeInfo?_eq_some_iff] at found ⊢
    refine (step.payload?_or_collect w (Payload.constant_type info) found).resolve_right ?_
    rintro ⟨roots, is, -⟩
    exact collects ⟨roots, is⟩
  have type {U : Ref} (before : h.isType U) : h'.isType U := by
    obtain ⟨info, found⟩ := Option.isSome_iff_exists.mp before
    exact isType_of_typeInfo? (kept found)
  have each (T : Ref) (proper : h'.mro T ≠ []) : (h'.mro T).Nodup ∧ ∀ U ∈ h'.mro T, U = T ∨ h.isType U := by
    obtain ⟨info, found, mro⟩ := exists_typeInfo?_of_mro proper
    rw [← mro]
    cases before : h.typeInfo? T with
    | none => exact lined.new step stand w root before found
    | some info₀ =>
      cases found.symm.trans (kept before)
      rw [← mro_of_typeInfo? before]
      exact ⟨lined.nodup T, fun U mem => .inr (lined.types T U mem)⟩
  refine ⟨fun T => ?_, fun T U mem => ?_⟩
  · by_cases proper : h'.mro T = []
    · exact proper ▸ List.nodup_nil
    · exact (each T proper).1
  · rcases (each T (List.ne_nil_of_mem mem)).2 U mem with rfl | before
    · exact isType_of_mro (List.ne_nil_of_mem mem)
    · exact type before

theorem lined_boot (budget : Budget) : (boot.withBudget budget).Lined := by
  have founded := founded_boot.withBudget budget
  refine ⟨fun T => ?_, fun T U mem => ?_⟩
  · by_cases proper : (boot.withBudget budget).mro T = []
    · exact proper ▸ List.nodup_nil
    · exact founded.nodup proper
  · exact isType_of_mro (founded.ancestor (List.ne_nil_of_mem mem) U mem).1

end Heap

/-- Types are objects without a Type of their own. -/
def Heap.TypesUntyped (h : Heap) : Prop := ∀ r o, h.object? r = some o → o.payload.isType → o.type = none

theorem Heap.typesUntyped_boot : boot.TypesUntyped := fun _ _ live _ => type_boot live

/-- Types depend on the objects alone. -/
theorem Heap.TypesUntyped.withBudget {h : Heap} (untyped : h.TypesUntyped) (budget : Budget) :
    (h.withBudget budget).TypesUntyped :=
  untyped

theorem Heap.TypesUntyped.step {h h' : Heap} (untyped : h.TypesUntyped) (step : h.Step h') (w : h.objects.WellFormed) :
    h'.TypesUntyped := by
  intro r o live type
  have fixed : o.payload.isFixed := by rw [Payload.isFixed, type, Bool.or_true]
  rcases step.exists_of_isFixed w live fixed with ⟨o', live', payload, same⟩ | ⟨-, none⟩
  · exact same.symm.trans (untyped r o' live' (payload ▸ type))
  · exact none

namespace Machine

variable {budget : Budget} {tracer : Tracer} {actions : List HostAction} {h : Heap}

/-- Throughout a session the Type of a Type is the Type of all Types. -/
theorem typeOf_of_isType {T : Ref} (mem : h ∈ (boot budget tracer).passage actions) (type : h.isType T) :
    h.typeOf T = Kind.type.ref := by
  have untyped : h.TypesUntyped := by
    refine (boot budget tracer).invariant_passage actions ?_ (fun h mem _ _ step untyped => ?_) h mem
    · rw [heap_boot]
      exact Heap.typesUntyped_boot.withBudget budget
    · exact untyped.step step (orderly_of_mem_passage mem).objects
  obtain ⟨info, found⟩ := Option.isSome_iff_exists.mp type
  obtain ⟨o, live, payload⟩ := Heap.exists_object_of_typeInfo? found
  have none : o.type = none := untyped T o live (by rw [payload])
  rw [Heap.typeOf, live, Option.map_some, Option.getD_some, Object.typeRef, none, payload]
  rfl

theorem isInstance_type_of_isType {T : Ref} (mem : h ∈ (boot budget tracer).passage actions) (type : h.isType T) :
    h.isInstance T Kind.type.ref := by
  rw [Heap.isInstance, typeOf_of_isType mem type, Heap.isSubtype, beq_self_eq_true, Bool.true_or]

/-- Throughout a session no Type occurs twice among the ancestors of a Type, and all of these are Types. -/
theorem lined_of_mem_passage (mem : h ∈ (boot budget tracer).passage actions) : h.Lined := by
  have chain := isChain_passage_of_steps Heap.hostSteps_step_and_parentsStand (boot budget tracer) actions
    fun moment mem =>
    (parented_of_mem_sessionHistory mem).steps (defining_of_mem_sessionHistory mem)
  refine invariant_isChain chain (fun h first => ?_) (fun h mem h' _ step lined => ?_) h mem
  · rw [head?_passage, Option.mem_some_iff, heap_boot] at first
    exact first ▸ Heap.lined_boot budget
  · have root : h.isType Kind.object.ref := by
      obtain ⟨info, atStart⟩ := Heap.isSome_boot_typeInfo? Kind.object.ref_mem_builtinTypeRefs
      exact Heap.isType_of_typeInfo?
        ((builtinsStand_of_mem_passage mem _ Kind.object.ref_mem_builtinTypeRefs).trans atStart)
    exact lined.step step.1 step.2 (orderly_of_mem_passage mem).objects root

end Machine

end ObjectMachine
