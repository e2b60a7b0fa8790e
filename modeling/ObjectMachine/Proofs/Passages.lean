import Mathlib.Data.List.Chain
import ObjectMachine.Proofs.Fuel.Effects
import ObjectMachine.Proofs.Sessions
/-!
Passages: the heaps that a machine goes through in a session, in order, with those in the midst of an
action. From each heap of a passage to the next there is one step. So what every step keeps holds
throughout every session, and what every step does adds up along it.
-/
namespace ObjectMachine

/-! ### Steps of a heap -/

namespace Heap

/-- The heap after changes of objects, one after another. -/
def changeAll (h : Heap) (changes : List (Ref × Change)) : Heap :=
  changes.foldl (fun h c => h.modify c.1 c.2.apply) h

/-- The heap after generators were finished, one after another. -/
def finishAll (h : Heap) (generators : List Ref) : Heap :=
  h.changeAll (generators.map fun g => (g, .generator .finished))

theorem finishAll_append (h : Heap) (first later : List Ref) :
    h.finishAll (first ++ later) = (h.finishAll first).finishAll later := by
  simp only [finishAll, changeAll, List.map_append, List.foldl_append]

/-- Everything that can happen to a heap at once. No step stores a Type but the definition of one, and
that names parents; none stores `null` or a truth value. Without changes, a heap stays as it is. -/
inductive Step (h : Heap) : Heap → Prop where
  | store (o : Object) (free : o.payload.isReserved = false) : Step h (h.allocate o).2
  | storeType (name : String) (parents : List Ref) (some : parents ≠ []) :
    Step h (h.allocateType name parents).2
  | openScope (s : Scope) : Step h (h.allocateScope s).2
  | change (changes : List (Ref × Change)) : Step h (h.changeAll changes)
  | bind (s : ScopeRef) (f : Scope → Scope) : Step h (h.modifyScope s f)
  | tick : Step h h.tick.2
  | beginRequest : Step h h.beginRequest
  | collect (roots : List Node) : Step h (h.collect roots).2

theorem Step.stay (h : Heap) : h.Step h := .change []

/-- A relation between heaps holds of everything that happens without a moment of its own: generators are
finished by failures, and the host stores data, changes variables and collects garbage. -/
structure HostSteps (S : Heap → Heap → Prop) : Prop where
  /-- Generators are finished. -/
  finish : ∀ h generators, S h (h.finishAll generators)
  /-- Data is stored. -/
  store : ∀ h p, Payload.isStorable p → S h (h.allocate (.ofPayload p none)).2
  /-- Variables are changed. -/
  bind : ∀ h s f, S h (h.modifyScope s f)
  /-- Garbage is collected. -/
  collect : ∀ h roots, S h (h.collect roots).2

namespace HostSteps

variable {S : Heap → Heap → Prop}

theorem stay (host : HostSteps S) (h : Heap) : S h h := host.finish h []

theorem define (host : HostSteps S) (h : Heap) (s : ScopeRef) (name : String) (value : Ref) :
    S h (h.define s name value) := by
  simp only [Heap.define]
  split
  · exact host.stay h
  · exact host.bind h s _

theorem assign (host : HostSteps S) (h : Heap) (s : ScopeRef) (name : String) (value : Ref) :
    S h ((h.assign? s name value).getD h) := by
  simp only [assign?]
  split
  · exact host.stay h
  · split
    · exact host.bind h _ _
    · exact host.stay h

theorem undefine (host : HostSteps S) (h : Heap) (s : ScopeRef) (name : String) :
    S h ((h.undefine? s name).getD h) := by
  simp only [undefine?]
  split
  · exact host.stay h
  · split
    · exact host.bind h s _
    · exact host.stay h

end HostSteps

theorem hostSteps_step : HostSteps Step where
  finish h generators := .change _
  store h p storable := .store _ (by cases p <;> first | rfl | cases storable)
  bind h s f := .bind s f
  collect h roots := .collect roots

end Heap

/-! ### Operations -/

/-- An operation stores a Type only as a definition with parents, and no other reserved data. -/
def Op.Defining {α : Type} : Op α → Prop
  | store o => o.payload.isReserved = false
  | storeType _ parents => parents ≠ []
  | _ => True

theorem Op.Permitted.defining {r : Rights} {α : Type} {o : Op α} (permitted : o.Permitted r) :
    o.Defining := by
  cases o with
  | store o => exact permitted
  | storeType name parents => exact permitted
  | _ => trivial

/-- An operation is one step of the heap. -/
theorem Op.step_perform (due : Schedule) {α : Type} (o : Op α) (m : Machine) (defining : o.Defining) :
    m.heap.Step (o.perform due m).machine.heap := by
  have onHeap {β : Type} (f : Heap → Except Exhaustion β × Heap) :
      (Op.onHeap f m).machine.heap = (f m.heap).2 := by
    simp only [Op.onHeap]
    split <;> rename_i ran <;> rw [ran] <;> rfl
  cases o with
  | load r =>
    simp only [perform]
    split <;> exact .stay _
  | loadScope s =>
    simp only [perform]
    split <;> exact .stay _
  | store o =>
    rw [perform, onHeap]
    exact .store o defining
  | storeType name parents =>
    rw [perform, onHeap]
    exact .storeType name parents defining
  | openScope outer =>
    rw [perform, onHeap]
    exact .openScope _
  | change r c =>
    simp only [perform]
    split
    · exact .change [(r, c)]
    · exact .stay _
  | define s name value => exact Heap.hostSteps_step.define m.heap s name value
  | assign s name value => exact Heap.hostSteps_step.assign m.heap s name value
  | undefine s name => exact Heap.hostSteps_step.undefine m.heap s name
  | tick =>
    rw [perform, onHeap]
    exact .tick
  | collectIfDue nodes =>
    simp only [perform, Outcome.machine]
    split
    · exact .collect _
    · exact .stay _
  | print s =>
    simp only [perform, printTo]
    split <;> exact .stay _
  | beginRequest => exact .beginRequest
  | _ => exact .stay _

namespace Moment

/-- At no moment is a Type stored but by a definition with parents. -/
def Defining : Moment → Prop
  | acts o _ _ => o.Defining
  | forgiven moment => moment.Defining
  | _ => True

/-- What a moment does to the heap is a step. -/
def Steps (due : Schedule) (S : Heap → Heap → Prop) : Moment → Prop
  | acts o _ m => S m.heap (o.perform due m).machine.heap
  | forgiven moment => moment.Steps due S
  | _ => True

theorem Defining.steps {due : Schedule} {moment : Moment} (defining : moment.Defining) :
    moment.Steps due Heap.Step := by
  induction moment with
  | acts o held m => exact o.step_perform due m defining
  | forgiven moment ih => exact ih defining
  | _ => trivial

/-- The heaps right before and right after the operation that a moment performs. -/
def heaps (due : Schedule) : Moment → List Heap
  | acts o _ m => [m.heap, (o.perform due m).machine.heap]
  | forgiven moment => moment.heaps due
  | _ => []

end Moment

/-! ### Computations -/

/-- The heaps that something goes through between a first and a last heap: each step starts where the last
one ended, except that generators may have been finished. -/
inductive Heap.Passes (S : Heap → Heap → Prop) : Heap → List Heap → Heap → Prop where
  | rest (h : Heap) (generators : List Ref) : Passes S h [] (h.finishAll generators)
  | step {h h₁ h' : Heap} {later : List Heap} (generators : List Ref)
    (step : S (h.finishAll generators) h₁) (passes : Passes S h₁ later h') :
    Passes S h (h.finishAll generators :: h₁ :: later) h'

namespace Heap.Passes

variable {S : Heap → Heap → Prop} {h h' h'' : Heap} {first later : List Heap}

theorem refl (h : Heap) : Passes S h [] h := .rest h []

theorem of_step (step : S h h') : Passes S h [h, h'] h' := .step [] step (.refl h')

theorem append (passes : Passes S h first h') (more : Passes S h' later h'') :
    Passes S h (first ++ later) h'' := by
  induction passes with
  | rest h generators =>
    cases more with
    | rest _ more =>
      rw [← finishAll_append]
      exact .rest h _
    | step more step passes =>
      simp only [List.nil_append, ← finishAll_append] at step ⊢
      exact .step _ step passes
  | step generators step _ ih => exact .step generators step (ih more)

/-- A generator may be finished at the end. -/
theorem finish (passes : Passes S h first h') (r : Ref) :
    Passes S h first (h'.modify r (Change.generator .finished).apply) := by
  have after : Passes S h' [] (h'.modify r (Change.generator .finished).apply) := .rest h' [r]
  rw [← List.append_nil first]
  exact passes.append after

/-- All that is passed is linked by steps. -/
theorem isChain (host : HostSteps S) (passes : Passes S h first h') : (h :: (first ++ [h'])).IsChain S := by
  induction passes with
  | rest h generators => exact List.isChain_pair.mpr (host.finish h generators)
  | step generators step _ ih => exact .cons_cons (host.finish _ generators) (.cons_cons step ih)

end Heap.Passes

namespace Engine

variable {α : Type}

/-- A computation stores no Types but by definitions with parents. -/
def Defining (x : Engine α) : Prop :=
  ∀ (due : Schedule) (held : List Node) (m : Machine), ∀ moment ∈ x.history due held m, moment.Defining

theorem Defining.andThen {β : Type} {x : Engine α} {f : α → Engine β} (hx : x.Defining)
    (hf : ∀ a, x.MayGive a → (f a).Defining) : (Engine.andThen x f).Defining := by
  intro due held m moment mem
  simp only [history, List.mem_append] at mem
  rcases mem with mem | mem
  · exact hx due held m moment mem
  · cases ran : x.runUnder due m with
    | ok a m' =>
      rw [ran] at mem
      exact hf a ⟨due, m, m', ran⟩ due held m' moment mem
    | error e m' => simp [ran] at mem

theorem defining_act {o : Op α} (defining : o.Defining) : (act o).Defining := by
  intro due held m moment mem
  rw [List.mem_singleton.mp mem]
  exact defining

theorem defining_historyInside {history : Machine → List Moment} {m : Machine}
    (inside : ∀ inner, ∀ moment ∈ history inner, moment.Defining) :
    ∀ moment ∈ m.historyInside history, moment.Defining := by
  intro moment mem
  simp only [Machine.historyInside] at mem
  split at mem
  · rw [List.mem_singleton.mp mem]
    trivial
  · rename_i inner _
    rcases List.mem_cons.mp mem with rfl | mem
    · trivial
    · exact inside inner moment mem

theorem Defining.nested {x : Engine α} (hx : x.Defining) : (Engine.nested x).Defining :=
  fun due held _ => defining_historyInside fun inner => hx due held inner

/-- What the engine is put together from stores no Types but by definitions with parents. -/
theorem BelowWith.defining {kept : List Ref} {r : Rights} {x y : Engine α} (below : BelowWith kept r x y) :
    x.Defining := by
  induction below with
  | outOfFuel y =>
    intro due held m moment mem
    rw [List.mem_singleton.mp mem]
    trivial
  | give a => exact fun _ _ _ => List.forall_mem_nil _
  | throw e =>
    intro due held m moment mem
    rw [List.mem_singleton.mp mem]
    trivial
  | act permitted => exact defining_act permitted.defining
  | andThen _ _ _ _ ihx ihf => exact ihx.andThen ihf
  | keeping nodes _ ih => exact fun due held m => ih due held (m.pushRoots nodes)
  | holding nodes _ ih => exact fun due held m => ih due (nodes ++ held) m
  | executing _ _ ih => exact ih
  | calling _ _ _ ih =>
    exact fun due held _ => defining_historyInside fun inner => ih due held (inner.observe _)
  | nested _ ih => exact ih.nested
  | inSection phase resumed _ ih =>
    intro due held m moment mem
    simp only [history] at mem
    split at mem
    · rw [List.mem_singleton.mp mem]
      trivial
    · rename_i inner _
      rcases List.mem_cons.mp mem with rfl | mem
      · trivial
      · rcases List.mem_append.mp mem with mem | mem
        · exact ih due held inner moment mem
        · rw [List.mem_singleton.mp mem]
          trivial
  | resuming _ _ _ _ ih =>
    exact fun due held _ => defining_historyInside fun inner => ih due held (inner.observe _)
  | generator _ _ _ _ _ ih => exact ih
  | catching _ ih => exact ih
  | forgiving _ _ ih =>
    intro due held m moment mem
    obtain ⟨inner, innerMem, rfl⟩ := List.mem_map.mp mem
    exact ih due held m inner innerMem

end Engine

/-- A request stores no Types but by definitions with parents. -/
theorem Request.defining_computation (globals : ScopeRef) (r : Request) :
    (r.computation globals).Defining := by
  have entries : (Engine.reentry Machine.fuel).Below (Engine.reentry Machine.fuel) :=
    Engine.below_reentry Machine.fuel 0
  let none : Rights := ⟨false, false⟩
  cases r with
  | run code =>
    have frame := (entries.runFrame none (Frame.start code globals) []).defining
    refine (Engine.defining_act (o := .beginRequest) trivial).andThen fun _ _ => ?_
    refine (Engine.defining_act (o := .note (.executing code.size)) trivial).andThen fun _ _ => ?_
    refine frame.nested.andThen fun ended _ => ?_
    split
    · exact (Engine.Below.pure (r := none) _ []).defining
    · exact (Engine.Below.raise (r := none) _ []).defining
  | call callee args => exact (entries.call none callee args []).defining
  | operator name args => exact (Engine.below_callOperator (r := none) entries name args true []).defining
  | getMember obj name => exact (Engine.below_getMember (r := none) entries obj name []).defining
  | setMember obj name value =>
    have written := Engine.below_setMember (r := none) entries obj name value
    exact ((written []).bind fun _ => Engine.Below.pure Ref.null []).defining

namespace Engine

/-- A computation passes from the heap it starts on to the heap it ends on through the heaps of its
moments. -/
theorem passes_history {α : Type} {S : Heap → Heap → Prop} (due : Schedule) (x : Engine α)
    (held : List Node) (m : Machine) (steps : ∀ moment ∈ x.history due held m, moment.Steps due S) :
    m.heap.Passes S ((x.history due held m).flatMap (Moment.heaps due))
      (x.runUnder due m).machine.heap := by
  -- by induction on the computation; what spans others adds no heap of its own
  induction x generalizing held m with
  | give a => exact .refl _
  | throw e => exact .refl _
  | act o => exact .of_step (steps _ List.mem_cons_self)
  | andThen x f ihx ihf =>
    simp only [history, List.mem_append, List.flatMap_append] at steps ⊢
    have first := ihx held m fun moment mem => steps moment (.inl mem)
    simp only [runUnder]
    cases ran : x.runUnder due m with
    | ok a m' =>
      simp only [ran] at first steps ⊢
      exact first.append (ihf a held m' fun moment mem => steps moment (.inr mem))
    | error e m' =>
      simp only [ran, List.flatMap_nil, List.append_nil] at first ⊢
      exact first
  | keeping nodes x ih =>
    have inner := ih held (m.pushRoots nodes) steps
    simp only [runUnder]
    cases ran : x.runUnder due (m.pushRoots nodes) <;> rw [ran] at inner <;> exact inner
  | holding nodes x ih => exact ih (nodes ++ held) m steps
  | executing site x ih =>
    have inner := ih held m steps
    simp only [runUnder]
    cases ran : x.runUnder due m <;> rw [ran] at inner <;> exact inner
  | calling name args x ih =>
    simp only [history, Machine.historyInside, runUnder] at steps ⊢
    cases entered : m.enter with
    | error e => exact .refl _
    | ok inside =>
      simp only [entered] at steps ⊢
      have inner := ih held (inside.observe (.call name)) fun moment mem =>
        steps moment (List.mem_cons_of_mem _ mem)
      rw [Machine.heap_observe, Machine.heap_of_enter entered] at inner
      cases ran : x.runUnder due (inside.observe (.call name)) <;> rw [ran] at inner <;> exact inner
  | nested x ih =>
    simp only [history, Machine.historyInside, runUnder] at steps ⊢
    cases entered : m.enter with
    | error e => exact .refl _
    | ok inside =>
      simp only [entered] at steps ⊢
      have inner := ih held inside fun moment mem => steps moment (List.mem_cons_of_mem _ mem)
      rw [Machine.heap_of_enter entered] at inner
      cases ran : x.runUnder due inside <;> rw [ran] at inner <;> exact inner
  | inSection phase resumed x ih =>
    simp only [history, runUnder] at steps ⊢
    cases entered : m.enter with
    | error e => exact .refl _
    | ok inside =>
      simp only [entered] at steps ⊢
      have inner := ih held inside fun moment mem =>
        steps moment (List.mem_cons_of_mem _ (List.mem_append_left _ mem))
      rw [Machine.heap_of_enter entered] at inner
      simp only [List.flatMap_cons, List.flatMap_append, List.flatMap_nil, Moment.heaps,
        List.nil_append, List.append_nil]
      cases ran : x.runUnder due inside with
      | ok a m' => rw [ran] at inner; exact inner
      | error e m' => rw [ran] at inner; cases e <;> exact inner
  | resuming generator name x ih =>
    simp only [history, Machine.historyInside, runUnder] at steps ⊢
    cases entered : m.enter with
    | error e => exact .refl _
    | ok inside =>
      simp only [entered] at steps ⊢
      have inner := ih held (inside.observe .resume) fun moment mem =>
        steps moment (List.mem_cons_of_mem _ mem)
      rw [Machine.heap_observe, Machine.heap_of_enter entered] at inner
      cases ran : x.runUnder due (inside.observe .resume) with
      | ok a m' => rw [ran] at inner; exact inner
      | error e m' =>
        rw [ran] at inner
        cases e with
        | raised error => exact inner
        -- the generator that fails is put into its last state, without a moment of its own
        | _ => exact inner.finish generator
  | catching x ih =>
    have inner := ih held m steps
    simp only [runUnder]
    cases ran : x.runUnder due m with
    | ok a m' => rw [ran] at inner; exact inner
    | error e m' => rw [ran] at inner; cases e <;> exact inner
  | forgiving x ih =>
    simp only [history, List.forall_mem_map, List.flatMap_map, Moment.heaps] at steps ⊢
    have inner := ih held m steps
    simp only [runUnder]
    cases ran : x.runUnder due m with
    | ok a m' => rw [ran] at inner; exact inner
    | error e m' =>
      rw [ran] at inner
      dsimp only
      split <;> exact inner

end Engine

/-! ### Actions of the host -/

namespace Snapshot

/-- The heaps right before and right after an object is stored for the host. -/
def storedHeaps (p : Payload) (h : Heap) : List Heap :=
  [h, (h.allocate (.ofPayload p none)).2]

/-- The heaps of what follows on a value that was stored; none if it was not. -/
def heapsAfter {α : Type} (later : α → Heap → List Heap) : EStateM.Result StoreFault Heap α → List Heap
  | .ok a h => later a h
  | .error _ _ => []

mutual

/-- The heaps that the storing of a snapshot goes through. -/
def heaps : Snapshot → Heap → List Heap
  | int i, h => storedHeaps (.int i) h
  | num x, h => storedHeaps (.num x) h
  | str s, h => storedHeaps (.str s) h
  | list items, h =>
    heapsOfItems items h ++
      heapsAfter (fun refs => storedHeaps (.list refs.toArray)) (storeItems items h)
  | map entries, h =>
    heapsOfEntries .empty entries h ++
      heapsAfter (fun stored => storedHeaps (.map stored)) (storeEntries .empty entries h)
  | _, _ => []

/-- The heaps that the storing of items goes through. -/
def heapsOfItems : List Snapshot → Heap → List Heap
  | [], _ => []
  | v :: later, h => heaps v h ++ heapsAfter (fun _ => heapsOfItems later) (store v h)

/-- The heaps that the storing of entries goes through. -/
def heapsOfEntries (done : Entries) : List (Snapshot × Snapshot) → Heap → List Heap
  | [], _ => []
  | (key, v) :: later, h =>
    heaps key h ++
      heapsAfter
        (fun keyObject h =>
          heaps v h ++
            heapsAfter
              (fun value h => heapsOfEntries (done.put (h.keyOf keyObject) keyObject value) later h)
              (store v h))
        (store key h)

end

variable {S : Heap → Heap → Prop}

theorem passes_storePayload (host : Heap.HostSteps S) {p : Payload} (storable : p.isStorable) (h : Heap) :
    h.Passes S (storedHeaps p h) (heapOf (storePayload p h)) := by
  have step : S h (h.allocate (.ofPayload p none)).2 := host.store h p storable
  simp only [storePayload]
  split <;> rename_i stored <;> simp only [storedHeaps, stored] at step ⊢ <;> exact .of_step step

theorem passes_bind {α β : Type} {x : EStateM StoreFault Heap α} {f : α → EStateM StoreFault Heap β}
    {first : List Heap} {later : α → Heap → List Heap} {h : Heap} (hx : h.Passes S first (heapOf (x h)))
    (hf : ∀ (a : α) (h : Heap), h.Passes S (later a h) (heapOf (f a h))) :
    h.Passes S (first ++ heapsAfter later (x h)) (heapOf ((x >>= f) h)) := by
  simp only [bind, EStateM.bind]
  cases ran : x h with
  | ok a h' =>
    rw [ran] at hx
    exact hx.append (hf a h')
  | error e h' =>
    rw [ran] at hx
    simp only [heapsAfter, List.append_nil]
    exact hx

mutual

theorem passes_store (host : Heap.HostSteps S) (s : Snapshot) (h : Heap) :
    h.Passes S (s.heaps h) (heapOf (s.store h)) := by
  cases s with
  | int i => exact passes_storePayload host rfl h
  | num x => exact passes_storePayload host rfl h
  | str s => exact passes_storePayload host rfl h
  | list items =>
    simp only [heaps, store]
    exact passes_bind (passes_storeItems host items h) fun refs h =>
      passes_storePayload host (p := .list refs.toArray) rfl h
  | map entries =>
    simp only [heaps, store]
    exact passes_bind (passes_storeEntries host .empty entries h) fun stored h =>
      passes_storePayload host (p := .map stored) rfl h
  | _ => exact .refl h

theorem passes_storeItems (host : Heap.HostSteps S) (items : List Snapshot) (h : Heap) :
    h.Passes S (heapsOfItems items h) (heapOf (storeItems items h)) := by
  cases items with
  | nil => exact .refl h
  | cons v later =>
    simp only [heapsOfItems, storeItems]
    refine passes_bind (passes_store host v h) fun r h => ?_
    have rest := passes_storeItems host later h
    simp only [bind, EStateM.bind]
    cases ran : storeItems later h <;> rw [ran] at rest <;> exact rest

theorem passes_storeEntries (host : Heap.HostSteps S) (done : Entries) (entries : List (Snapshot × Snapshot))
    (h : Heap) :
    h.Passes S (heapsOfEntries done entries h) (heapOf (storeEntries done entries h)) := by
  match entries with
  | [] => exact .refl h
  | (key, v) :: later =>
    simp only [heapsOfEntries, storeEntries]
    refine passes_bind (passes_store host key h) fun keyObject h => ?_
    refine passes_bind (passes_store host v h) fun value h => ?_
    exact passes_storeEntries host (done.put (h.keyOf keyObject) keyObject value) later h

end

end Snapshot

/-- The heaps in the midst of an action. -/
def HostAction.heaps (m : Machine) : HostAction → List Heap
  | request printer r => (r.history m printer).flatMap (Moment.heaps Heap.collectionDue)
  | store s => s.heaps m.heap
  | _ => []

/-- All that is passed in an action is linked by steps. -/
theorem HostAction.isChain_heaps {S : Heap → Heap → Prop} (host : Heap.HostSteps S) (m : Machine)
    (a : HostAction) (steps : ∀ moment ∈ a.history m, moment.Steps Heap.collectionDue S) :
    (m.heap :: (a.heaps m ++ [(a.perform m).heap])).IsChain S := by
  cases a with
  | request printer r =>
    have passes := Engine.passes_history Heap.collectionDue (r.computation m.globals) []
      (m.startRequest printer) steps
    rw [perform, Machine.heap_serve]
    exact passes.isChain host
  | store s =>
    rw [perform, Machine.heap_store]
    exact (s.passes_store host m.heap).isChain host
  | define name value => exact List.isChain_pair.mpr (host.define m.heap m.globals name value)
  | assign name value =>
    have step := host.assign m.heap m.globals name value
    refine List.isChain_pair.mpr ?_
    simp only [perform, Machine.setGlobal, Machine.changeNamed]
    cases assigned : m.heap.assign? m.globals name value with
    | none => exact host.stay m.heap
    | some heap =>
      rw [assigned] at step
      exact step
  | undefine name =>
    have step := host.undefine m.heap m.globals name
    refine List.isChain_pair.mpr ?_
    simp only [perform, Machine.deleteGlobal, Machine.changeNamed]
    cases removed : m.heap.undefine? m.globals name with
    | none => exact host.stay m.heap
    | some heap =>
      rw [removed] at step
      exact step
  | collect extra => exact List.isChain_pair.mpr (host.collect m.heap _)

namespace Machine

/-- The heaps that a machine goes through in a session: before and after each action, and in its midst. -/
def passage (m : Machine) : List HostAction → List Heap
  | [] => [m.heap]
  | a :: later => (m.heap :: a.heaps m) ++ (a.perform m).passage later

theorem head?_passage (m : Machine) (actions : List HostAction) :
    (m.passage actions).head? = some m.heap := by
  cases actions <;> rfl

theorem getLast?_passage (m : Machine) (actions : List HostAction) :
    (m.passage actions).getLast? = some (m.afterSession actions).heap := by
  induction actions generalizing m with
  | nil => rfl
  | cons a later ih => rw [passage, List.getLast?_append, ih (a.perform m), Option.some_or, afterSession,
      afterSession, List.foldl_cons]

theorem heap_afterSession_mem_passage (m : Machine) (actions : List HostAction) :
    (m.afterSession actions).heap ∈ m.passage actions :=
  List.mem_of_getLast? (m.getLast?_passage actions)

/-- From each heap of a session to the next there is one step, if that is so at each moment. -/
theorem isChain_passage_of_steps {S : Heap → Heap → Prop} (host : Heap.HostSteps S) (m : Machine)
    (actions : List HostAction)
    (steps : ∀ moment ∈ m.sessionHistory actions, moment.Steps Heap.collectionDue S) :
    (m.passage actions).IsChain S := by
  induction actions generalizing m with
  | nil => exact .singleton _
  | cons a later ih =>
    obtain ⟨now, next⟩ := List.forall_mem_append.mp steps
    have link := a.isChain_heaps host m now
    have rest := ih (a.perform m) next
    obtain ⟨tail, starts⟩ := List.head?_eq_some_iff.mp ((a.perform m).head?_passage later)
    simp only [passage]
    rw [starts] at rest ⊢
    exact List.isChain_split.mpr ⟨link, rest⟩

/-- The moments of a session store no Types but by definitions with parents. -/
theorem defining_of_mem_sessionHistory {m : Machine} {actions : List HostAction} {moment : Moment}
    (mem : moment ∈ m.sessionHistory actions) : moment.Defining := by
  induction actions generalizing m with
  | nil => cases mem
  | cons a later ih =>
    rcases List.mem_append.mp mem with now | mem
    · cases a with
      | request printer r => exact r.defining_computation m.globals _ _ _ moment now
      | _ => cases now
    · exact ih mem

/-- From each heap of a session to the next there is one step. -/
theorem isChain_passage (m : Machine) (actions : List HostAction) :
    (m.passage actions).IsChain Heap.Step :=
  m.isChain_passage_of_steps Heap.hostSteps_step actions fun _ mem =>
    (defining_of_mem_sessionHistory mem).steps

/-- What holds of the first item of a list and is kept from each item to the next holds of all. -/
theorem invariant_isChain {α : Type} {R : α → α → Prop} {I : α → Prop} {l : List α} (chain : l.IsChain R)
    (start : ∀ a ∈ l.head?, I a) (keeps : ∀ a ∈ l, ∀ b ∈ l, R a b → I a → I b) : ∀ a ∈ l, I a := by
  induction l with
  | nil => exact List.forall_mem_nil _
  | cons a later ih =>
    have here : I a := start a rfl
    refine List.forall_mem_cons.mpr ⟨here, ih chain.tail ?_ ?_⟩
    · intro b next
      obtain ⟨rest, rfl⟩ := List.head?_eq_some_iff.mp next
      have link : R a b := (List.isChain_cons_cons.mp chain).1
      exact keeps a List.mem_cons_self b (List.mem_cons_of_mem a List.mem_cons_self) link here
    · intro b mem c mem'
      exact keeps b (List.mem_cons_of_mem a mem) c (List.mem_cons_of_mem a mem')

/-- What holds at the start of a session and is kept by the steps between its heaps holds throughout. -/
theorem invariant_passage {I : Heap → Prop} (m : Machine) (actions : List HostAction) (start : I m.heap)
    (keeps : ∀ h ∈ m.passage actions, ∀ h' ∈ m.passage actions, Heap.Step h h' → I h → I h') :
    ∀ h ∈ m.passage actions, I h := by
  refine invariant_isChain (m.isChain_passage actions) (fun h first => ?_) keeps
  rw [head?_passage, Option.mem_some_iff] at first
  exact first ▸ start

/-- The heaps of the moments of a session are among those that the machine goes through. -/
theorem mem_passage_of_moment {m : Machine} {actions : List HostAction} {moment : Moment} {h : Heap}
    (mem : moment ∈ m.sessionHistory actions) (here : h ∈ moment.heaps Heap.collectionDue) :
    h ∈ m.passage actions := by
  induction actions generalizing m with
  | nil => cases mem
  | cons a later ih =>
    rw [passage]
    rcases List.mem_append.mp mem with now | mem
    · refine List.mem_append_left _ (List.mem_cons_of_mem _ ?_)
      cases a with
      | request printer r => exact List.mem_flatMap.mpr ⟨moment, now, here⟩
      | _ => cases now
    · exact List.mem_append_right _ (ih mem)

end Machine

end ObjectMachine
