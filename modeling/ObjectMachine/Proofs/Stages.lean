import ObjectMachine.Proofs.Anchors
import ObjectMachine.Proofs.Sessions
/-!
The stages of a computation: the computations that are parts of it, each with the machine on which it starts.
At every stage the roots of the machine at the start are still there, and so are the chains of the scopes among
them. `Engine.Secure` is the contract of a computation with the scopes: at all of its stages the heap is rooted,
and it collects garbage and keeps frames alive only while these are anchored.
-/
namespace ObjectMachine

/-- A computation and the machine on which it starts. -/
structure Stage where
  /-- What the computation gives. -/
  {α : Type}
  /-- The computation. -/
  computation : Engine α
  /-- The machine. -/
  machine : Machine

/-- The stages of what a call runs, unless the budget refuses it. -/
def Machine.stagesInside (m : Machine) (stages : Machine → List Stage) : List Stage :=
  match m.enter with
  | .error _ => []
  | .ok inner => stages inner

namespace Engine

/-- The stages of a computation: itself, and those of its parts as far as they are run. -/
def stages (due : Schedule) {α : Type} : Engine α → Machine → List Stage
  | give a, m => [⟨give a, m⟩]
  | throw e, m => [⟨(throw e : Engine α), m⟩]
  | act o, m => [⟨act o, m⟩]
  | andThen x f, m =>
    ⟨andThen x f, m⟩ ::
      (x.stages due m ++
        match x.runUnder due m with
        | .ok a m => (f a).stages due m
        | .error _ _ => [])
  | keeping nodes x, m => ⟨keeping nodes x, m⟩ :: x.stages due (m.pushRoots nodes)
  | holding nodes x, m => ⟨holding nodes x, m⟩ :: x.stages due m
  | executing site x, m => ⟨executing site x, m⟩ :: x.stages due m
  | calling name args x, m =>
    ⟨calling name args x, m⟩ :: m.stagesInside fun inner => x.stages due (inner.observe (.call name))
  | nested x, m => ⟨nested x, m⟩ :: m.stagesInside fun inner => x.stages due inner
  | inSection phase resumed x, m =>
    ⟨inSection phase resumed x, m⟩ :: m.stagesInside fun inner => x.stages due inner
  | resuming generator name x, m =>
    ⟨resuming generator name x, m⟩ :: m.stagesInside fun inner => x.stages due (inner.observe .resume)
  | catching x, m => ⟨catching x, m⟩ :: x.stages due m
  | forgiving x, m => ⟨forgiving x, m⟩ :: x.stages due m

theorem mem_stages_self (due : Schedule) {α : Type} (x : Engine α) (m : Machine) :
    ⟨x, m⟩ ∈ x.stages due m := by
  cases x <;> simp only [stages, List.mem_cons, true_or]

section
variable {due : Schedule} {α β : Type} {x : Engine α} {f : α → Engine β} {m : Machine} {stage : Stage}

theorem mem_stages_first (mem : stage ∈ x.stages due m) : stage ∈ (x >>= f).stages due m := by
  simp only [Bind.bind, stages]
  exact List.mem_cons_of_mem _ (List.mem_append_left _ mem)

theorem mem_stages_later {a : α} {m' : Machine} (ran : x.runUnder due m = .ok a m')
    (mem : stage ∈ (f a).stages due m') : stage ∈ (x >>= f).stages due m := by
  simp only [Bind.bind, stages]
  refine List.mem_cons_of_mem _ (List.mem_append_right _ ?_)
  rw [ran]
  exact mem

end

/-- The stages of a stage are stages of the whole. -/
theorem mem_stages_trans {due : Schedule} {α : Type} {x : Engine α} {m : Machine} {stage inner : Stage}
    (mem : stage ∈ x.stages due m) (later : inner ∈ stage.computation.stages due stage.machine) :
    inner ∈ x.stages due m := by
  have inside {stages : Machine → List Stage} {m : Machine} (mem : stage ∈ m.stagesInside stages)
      (goesOn : ∀ m, stage ∈ stages m → inner ∈ stages m) : inner ∈ m.stagesInside stages := by
    simp only [Machine.stagesInside] at mem ⊢
    split at mem
    · cases mem
    · exact goesOn _ mem
  induction x generalizing m with
  | give a | throw e | act o =>
    rw [List.mem_singleton.mp mem] at later
    exact later
  | andThen x f ihx ihf =>
    simp only [stages, List.mem_cons, List.mem_append] at mem ⊢
    rcases mem with rfl | mem | mem
    · simpa only [stages, List.mem_cons, List.mem_append] using later
    · exact .inr (.inl (ihx mem))
    · refine .inr (.inr ?_)
      split at mem
      · exact ihf _ mem
      · cases mem
  | keeping nodes x ih | holding nodes x ih | executing site x ih | catching x ih | forgiving x ih =>
    rcases List.mem_cons.mp mem with rfl | mem
    · exact later
    · exact List.mem_cons_of_mem _ (ih mem)
  | calling name args x ih | nested x ih | inSection phase resumed x ih | resuming generator name x ih =>
    rcases List.mem_cons.mp mem with rfl | mem
    · exact later
    · exact List.mem_cons_of_mem _ (inside mem fun _ => ih)

end Engine

/-! ### What the roots shelter -/

/-- The second machine has the roots of the first one, perhaps more, and the chains of the scopes among
them. -/
structure Machine.Shelters (m m' : Machine) : Prop where
  /-- The slots of scopes are in order. -/
  wellFormed : m'.heap.scopes.WellFormed
  /-- The outer scope is the same. -/
  globals : m'.globals = m.globals
  /-- The roots are still there. -/
  roots : ∃ more, m'.roots.toList = m.roots.toList ++ more
  /-- The chains of scopes among them are as they were. -/
  chains : ∀ s chain, .scope s ∈ m.roots.toList → m.heap.Chain s chain → m'.heap.Chain s chain

namespace Machine.Shelters

variable {m m' m'' : Machine}

theorem of_eq (w : m.heap.scopes.WellFormed) (heap : m'.heap = m.heap) (roots : m'.roots = m.roots)
    (globals : m'.globals = m.globals) : m.Shelters m' :=
  ⟨heap ▸ w, globals, ⟨[], by rw [roots, List.append_nil]⟩, fun _ _ _ c => heap ▸ c⟩

theorem refl (w : m.heap.scopes.WellFormed) : m.Shelters m := of_eq w rfl rfl rfl

theorem of_enter (w : m.heap.scopes.WellFormed) (entered : m.enter = .ok m') : m.Shelters m' := by
  simp only [enter] at entered
  split at entered <;> cases entered
  exact of_eq w rfl rfl rfl

theorem mem (shelters : m.Shelters m') {n : Node} (root : n ∈ m.roots.toList) : n ∈ m'.roots.toList := by
  obtain ⟨more, roots⟩ := shelters.roots
  rw [roots]
  exact List.mem_append_left _ root

theorem observe (shelters : m.Shelters m') (e : Nat → Event) : m.Shelters (m'.observe e) :=
  ⟨shelters.wellFormed, shelters.globals, shelters.roots, shelters.chains⟩

theorem trans (first : m.Shelters m') (later : m'.Shelters m'') : m.Shelters m'' := by
  refine ⟨later.wellFormed, later.globals.trans first.globals, ?_, fun s chain root c => ?_⟩
  · obtain ⟨more, roots⟩ := first.roots
    obtain ⟨more', roots'⟩ := later.roots
    exact ⟨more ++ more', by rw [roots', roots, List.append_assoc]⟩
  · exact later.chains s chain (first.mem root) (first.chains s chain root c)

/-- Added roots shelter more than there were before. -/
theorem of_pushRoots {nodes : List Node} (shelters : (m.pushRoots nodes).Shelters m') : m.Shelters m' := by
  refine ⟨shelters.wellFormed, shelters.globals, ?_, fun s chain root c => ?_⟩
  · obtain ⟨more, roots⟩ := shelters.roots
    exact ⟨nodes ++ more, by rw [roots, roots_pushRoots, List.append_assoc]⟩
  · refine shelters.chains s chain ?_ c
    rw [roots_pushRoots]
    exact List.mem_append_left _ root

theorem truncate {nodes : List Node} (shelters : (m.pushRoots nodes).Shelters m') :
    m.Shelters (m'.truncateRoots m.roots.size) := by
  obtain ⟨more, roots⟩ := shelters.roots
  have same : (m'.truncateRoots m.roots.size).roots = m.roots :=
    AddsRoots.truncate (r := ⟨true, true⟩) ⟨more, roots, by simp⟩
  exact ⟨shelters.wellFormed, shelters.globals, ⟨[], by rw [same, List.append_nil]⟩,
    shelters.of_pushRoots.chains⟩

end Machine.Shelters

namespace Op

variable {α : Type} {due : Schedule} {m : Machine}

theorem globals_perform (o : Op α) : (o.perform due m).machine.globals = m.globals := by
  cases o <;> simp only [perform, onHeap, printTo, Machine.collectWith] <;> (repeat' split) <;> rfl

theorem shelters_perform (o : Op α) (w : m.heap.scopes.WellFormed) :
    m.Shelters (o.perform due m).machine := by
  by_cases spares : o.SparesScopes
  · have revises := o.revises_perform due m spares
    refine ⟨revises.wellFormed w, o.globals_perform, ?_, fun s chain _ c => revises.around.keeps c⟩
    exact ⟨o.newRoots, o.roots_perform due m⟩
  · cases o with
    | openScope outer =>
      refine ⟨?_, globals_perform _, ⟨[], (Op.openScope outer).roots_perform due m⟩, fun s chain _ c => ?_⟩
      all_goals
        rw [perform, heap_onHeap]
        cases stored : m.heap.allocateScope ⟨.empty, some outer⟩ with
        | mk result h' =>
          cases result with
          | error e => exact Heap.eq_of_allocateScope_error stored ▸ ‹_›
          | ok s =>
            have stores := Heap.stores_of_allocateScope w stored
            first | exact stores.wellFormed | exact c.of_stores stores
    | collectIfDue nodes =>
      refine ⟨?_, globals_perform _, ⟨[], (Op.collectIfDue nodes).roots_perform due m⟩,
        fun s chain root c => ?_⟩
      · simp only [perform]
        split
        · exact w.release_doomed _
        · exact w
      · simp only [perform]
        split
        · exact c.collect (.root (List.mem_append_left _ root))
        · exact c
    | _ => exact (spares trivial).elim

end Op

namespace Engine

variable {α β : Type} {due : Schedule} {m m' : Machine}

/-- The roots and what they shelter are there at the end of a computation, whatever it does. -/
theorem shelters_runUnder (x : Engine α) (due : Schedule) (w : m.heap.scopes.WellFormed) :
    m.Shelters (x.runUnder due m).machine := by
  induction x generalizing m with
  | give a => exact .refl w
  | throw e => exact .refl w
  | act o => exact o.shelters_perform w
  | andThen x f ihx ihf =>
    have first := ihx w
    simp only [runUnder]
    cases ran : x.runUnder due m with
    | ok a m' =>
      rw [ran] at first
      exact first.trans (ihf a first.wellFormed)
    | error e m' =>
      rw [ran] at first
      exact first
  | keeping nodes x ih =>
    have inner := ih (m := m.pushRoots nodes) w
    simp only [runUnder]
    cases ran : x.runUnder due (m.pushRoots nodes) <;> rw [ran] at inner <;> exact inner.truncate
  | holding nodes x ih => exact ih w
  | executing site x ih =>
    have inner := ih w
    simp only [runUnder]
    cases ran : x.runUnder due m <;> rw [ran] at inner <;> exact inner
  | calling name args x ih =>
    cases entered : m.enter with
    | error e => simpa only [runUnder, entered, Outcome.machine] using .refl w
    | ok inner =>
      have begun : m.Shelters (inner.observe (.call name)) :=
        (Machine.Shelters.of_enter w entered).observe _
      have body := begun.trans (ih begun.wellFormed)
      simp only [runUnder, entered]
      cases ran : x.runUnder due (inner.observe (.call name)) <;> rw [ran] at body <;>
        exact body.trans (.of_eq body.wellFormed rfl rfl rfl)
  | nested x ih =>
    cases entered : m.enter with
    | error e => simpa only [runUnder, entered, Outcome.machine] using .refl w
    | ok inner =>
      have begun : m.Shelters inner :=
        .of_enter w entered
      have body := begun.trans (ih begun.wellFormed)
      simp only [runUnder, entered]
      cases ran : x.runUnder due inner <;> rw [ran] at body <;>
        exact body.trans (.of_eq body.wellFormed rfl rfl rfl)
  | inSection phase resumed x ih =>
    cases entered : m.enter with
    | error e => simpa only [runUnder, entered, Outcome.machine] using .refl w
    | ok inner =>
      have begun : m.Shelters inner :=
        .of_enter w entered
      have body := begun.trans (ih begun.wellFormed)
      simp only [runUnder, entered]
      cases ran : x.runUnder due inner with
      | ok a m' =>
        rw [ran] at body
        exact body.trans (.of_eq body.wellFormed rfl rfl rfl)
      | error e m' =>
        rw [ran] at body
        cases e <;> exact body.trans (.of_eq body.wellFormed rfl rfl rfl)
  | resuming generator name x ih =>
    cases entered : m.enter with
    | error e => simpa only [runUnder, entered, Outcome.machine] using .refl w
    | ok inner =>
      have begun : m.Shelters (inner.observe .resume) :=
        (Machine.Shelters.of_enter w entered).observe _
      have body := begun.trans (ih begun.wellFormed)
      simp only [runUnder, entered]
      cases ran : x.runUnder due (inner.observe .resume) with
      | ok a m' =>
        rw [ran] at body
        exact body.trans (.of_eq body.wellFormed rfl rfl rfl)
      | error e m' =>
        rw [ran] at body
        -- the end of a generator changes an object, and no scope
        have ended : m'.Shelters
            (m'.leave.withHeap fun h => h.modify generator (Change.generator .finished).apply) := by
          refine ⟨body.wellFormed, rfl, ⟨[], (List.append_nil _).symm⟩, fun s chain _ c => ?_⟩
          exact c.of_around fun _ _ => rfl
        cases e with
        | raised e => exact body.trans (.of_eq body.wellFormed rfl rfl rfl)
        | _ => exact body.trans ended
  | catching x ih =>
    have inner := ih w
    simp only [runUnder]
    cases ran : x.runUnder due m with
    | ok a m' => rw [ran] at inner; exact inner
    | error e m' => rw [ran] at inner; cases e <;> exact inner
  | forgiving x ih =>
    have inner := ih w
    simp only [runUnder]
    cases ran : x.runUnder due m with
    | ok a m' => rw [ran] at inner; exact inner
    | error e m' => rw [ran] at inner; cases e <;> exact inner

/-- The roots and what they shelter are there at every stage. -/
theorem shelters_of_mem_stages (x : Engine α) (w : m.heap.scopes.WellFormed) {stage : Stage}
    (mem : stage ∈ x.stages due m) : m.Shelters stage.machine := by
  have inside {stages : Machine → List Stage} {m : Machine} (w : m.heap.scopes.WellFormed)
      (mem : stage ∈ m.stagesInside stages)
      (later : ∀ inner, m.Shelters inner → stage ∈ stages inner → inner.Shelters stage.machine) :
      m.Shelters stage.machine := by
    simp only [Machine.stagesInside] at mem
    cases entered : m.enter with
    | error e =>
      rw [entered] at mem
      cases mem
    | ok inner =>
      rw [entered] at mem
      have begun : m.Shelters inner :=
        .of_enter w entered
      exact begun.trans (later inner begun mem)
  induction x generalizing m with
  | give a | throw e | act o => exact List.mem_singleton.mp mem ▸ .refl w
  | andThen x f ihx ihf =>
    simp only [stages, List.mem_cons, List.mem_append] at mem
    rcases mem with rfl | mem | mem
    · exact .refl w
    · exact ihx w mem
    · have first := x.shelters_runUnder due w
      cases ran : x.runUnder due m with
      | ok a m' =>
        rw [ran] at first mem
        exact first.trans (ihf a first.wellFormed mem)
      | error e m' =>
        rw [ran] at mem
        cases mem
  | keeping nodes x ih =>
    rcases List.mem_cons.mp mem with rfl | mem
    · exact .refl w
    · exact (ih (m := m.pushRoots nodes) w mem).of_pushRoots
  | holding nodes x ih | executing site x ih | catching x ih | forgiving x ih =>
    rcases List.mem_cons.mp mem with rfl | mem
    · exact .refl w
    · exact ih w mem
  | calling name args x ih =>
    rcases List.mem_cons.mp mem with rfl | mem
    · exact .refl w
    · refine inside w mem fun inner begun mem => ?_
      have told := (Machine.Shelters.refl begun.wellFormed).observe (.call name)
      exact told.trans (ih told.wellFormed mem)
  | nested x ih | inSection phase resumed x ih =>
    rcases List.mem_cons.mp mem with rfl | mem
    · exact .refl w
    · exact inside w mem fun inner begun mem => ih begun.wellFormed mem
  | resuming generator name x ih =>
    rcases List.mem_cons.mp mem with rfl | mem
    · exact .refl w
    · refine inside w mem fun inner begun mem => ?_
      have told := (Machine.Shelters.refl begun.wellFormed).observe .resume
      exact told.trans (ih told.wellFormed mem)

/-! ### Secure computations -/

/-- What a computation may do as it starts: collect garbage and keep nodes alive while frames among them are
anchored, and no scope turns out to be the outermost one as it is closed. -/
def Proper (m : Machine) : Engine α → Prop
  | throw e => e.isOutermost = false
  | act (.collectIfDue nodes) => m.heap.Paired ((nodes ()).filterMap Node.scope?)
  | keeping nodes _ => m.heap.Paired (nodes.filterMap Node.scope?)
  | _ => True

end Engine

/-- At a stage the heap is rooted, and the computation is proper. -/
structure Stage.Secure (stage : Stage) : Prop where
  /-- Every scope has a chain. -/
  rooted : stage.machine.heap.Rooted
  /-- What it does as it starts is proper. -/
  proper : stage.computation.Proper stage.machine

namespace Engine

variable {α β : Type} {due : Schedule} {m m' : Machine}

/-- All stages of a computation are secure; it leaves a rooted heap, and its value has a property there. -/
structure Secure (due : Schedule) (Q : α → Heap → Prop) (x : Engine α) (m : Machine) : Prop where
  /-- All stages are secure. -/
  stages : ∀ stage ∈ x.stages due m, stage.Secure
  /-- The heap is rooted at the end. -/
  rooted : (x.runUnder due m).machine.heap.Rooted
  /-- The value has the property. -/
  value : ∀ a m', x.runUnder due m = .ok a m' → Q a m'.heap

namespace Secure

variable {P Q : α → Heap → Prop} {R : β → Heap → Prop} {x : Engine α}

theorem start (secure : x.Secure due Q m) : m.heap.Rooted := (secure.stages _ (x.mem_stages_self due m)).rooted

theorem mono (secure : x.Secure due P m) (weaker : ∀ a h, P a h → Q a h) : x.Secure due Q m :=
  ⟨secure.stages, secure.rooted, fun a m' ran => weaker a _ (secure.value a m' ran)⟩

theorem give {a : α} (rooted : m.heap.Rooted) (holds : Q a m.heap) : (Engine.give a).Secure due Q m := by
  refine ⟨fun stage mem => ?_, rooted, ?_⟩
  · exact List.mem_singleton.mp mem ▸ ⟨rooted, trivial⟩
  · rintro _ _ ⟨⟩
    exact holds

theorem pure {a : α} (rooted : m.heap.Rooted) (holds : Q a m.heap) : (Pure.pure a : Engine α).Secure due Q m :=
  give rooted holds

theorem throw {e : Interrupt} (rooted : m.heap.Rooted) (other : e.isOutermost = false) :
    (Engine.throw e : Engine α).Secure due Q m := by
  refine ⟨fun stage mem => ?_, rooted, ?_⟩
  · exact List.mem_singleton.mp mem ▸ ⟨rooted, other⟩
  · rintro _ _ ⟨⟩

theorem act {o : Op α} (rooted : m.heap.Rooted) (anchored : o.Anchored m.heap)
    (proper : (Engine.act o).Proper m) (value : ∀ a m', o.perform due m = .ok a m' → Q a m'.heap) :
    (Engine.act o).Secure due Q m := by
  refine ⟨fun stage mem => ?_, o.rooted_perform rooted anchored, value⟩
  exact List.mem_singleton.mp mem ▸ ⟨rooted, proper⟩

theorem andThen {f : α → Engine β} (first : x.Secure due P m)
    (later : ∀ a m', m.Shelters m' → P a m'.heap → m'.heap.Rooted → (f a).Secure due R m') :
    (Engine.andThen x f).Secure due R m := by
  have next (a : α) (m' : Machine) (ran : x.runUnder due m = .ok a m') : (f a).Secure due R m' := by
    have shelters := x.shelters_runUnder due first.start.scopes
    have rooted := first.rooted
    rw [ran] at shelters rooted
    exact later a m' shelters (first.value a m' ran) rooted
  refine ⟨fun stage mem => ?_, ?_, ?_⟩
  · simp only [Engine.stages, List.mem_cons, List.mem_append] at mem
    rcases mem with rfl | mem | mem
    · exact ⟨first.start, trivial⟩
    · exact first.stages stage mem
    · cases ran : x.runUnder due m with
      | ok a m' =>
        rw [ran] at mem
        exact (next a m' ran).stages stage mem
      | error e m' =>
        rw [ran] at mem
        cases mem
  · have rooted := first.rooted
    simp only [runUnder]
    cases ran : x.runUnder due m with
    | ok a m' => exact (next a m' ran).rooted
    | error e m' =>
      rw [ran] at rooted
      exact rooted
  · simp only [runUnder]
    cases ran : x.runUnder due m with
    | ok a m' => exact (next a m' ran).value
    | error e m' => rintro _ _ ⟨⟩

theorem bind {f : α → Engine β} (first : x.Secure due P m)
    (later : ∀ a m', m.Shelters m' → P a m'.heap → m'.heap.Rooted → (f a).Secure due R m') :
    (x >>= f).Secure due R m :=
  first.andThen later

/-- What is around a computation is secure if it starts properly, and leaves the heap as the computation
does. -/
theorem around {y : Engine β} {m₁ : Machine} (inner : x.Secure due P m₁) (rooted : m.heap.Rooted)
    (proper : y.Proper m) (stages : y.stages due m = ⟨y, m⟩ :: x.stages due m₁)
    (heap : (y.runUnder due m).machine.heap = (x.runUnder due m₁).machine.heap)
    (value : ∀ b m', y.runUnder due m = .ok b m' → R b m'.heap) : y.Secure due R m := by
  refine ⟨fun stage mem => ?_, heap ▸ inner.rooted, value⟩
  rw [stages] at mem
  rcases List.mem_cons.mp mem with rfl | mem
  · exact ⟨rooted, proper⟩
  · exact inner.stages stage mem

theorem keeping (nodes : List Node) (paired : m.heap.Paired (nodes.filterMap Node.scope?))
    (inner : x.Secure due Q (m.pushRoots nodes)) : (Engine.keeping nodes x).Secure due Q m := by
  refine inner.around inner.start paired rfl (heap_runUnder_keeping due nodes x m) fun a m' ran => ?_
  obtain ⟨m₁, ran, same⟩ := ok_of_keeping ran
  exact same ▸ inner.value a m₁ ran

theorem keepingObjects (refs : List Ref) (inner : x.Secure due Q (m.pushRoots (objectNodes refs))) :
    (Engine.keepingObjects refs x).Secure due Q m := by
  refine keeping _ ?_ inner
  rw [Node.filterMap_scope?_objectNodes]
  trivial

theorem holding (nodes : List Node) (inner : x.Secure due Q m) : (Engine.holding nodes x).Secure due Q m :=
  inner.around inner.start trivial rfl rfl inner.value

theorem executing (site : Site) (inner : x.Secure due Q m) : (Engine.executing site x).Secure due Q m := by
  refine inner.around inner.start trivial rfl (heap_runUnder_executing due site x m) fun a m' ran => ?_
  exact inner.value a m' (ok_of_executing ran)

theorem catching (inner : x.Secure due Q m) : (Engine.catching x).Secure due (fun _ _ => True) m :=
  inner.around inner.start trivial rfl (heap_runUnder_catching due x m) fun _ _ _ => trivial

theorem forgiving (inner : x.Secure due Q m) : (Engine.forgiving x).Secure due (fun _ _ => True) m :=
  inner.around inner.start trivial rfl (heap_runUnder_forgiving due x m) fun _ _ _ => trivial

/-! ### Calls -/

/-- A call that the budget refuses does nothing. -/
theorem refused {y : Engine β} (rooted : m.heap.Rooted) (proper : y.Proper m)
    (stages : y.stages due m = [⟨y, m⟩]) (heap : (y.runUnder due m).machine.heap = m.heap)
    (value : ∀ b m', y.runUnder due m = .ok b m' → R b m'.heap) : y.Secure due R m := by
  refine ⟨fun stage mem => ?_, heap ▸ rooted, value⟩
  rw [stages] at mem
  exact List.mem_singleton.mp mem ▸ ⟨rooted, proper⟩

/-- A call runs on the same heap, with the same roots. -/
theorem calling (name : String) (args : List Ref) (rooted : m.heap.Rooted)
    (inner : ∀ inner : Machine, inner.heap = m.heap → inner.roots = m.roots → x.Secure due Q inner) :
    (Engine.calling name args x).Secure due Q m := by
  cases entered : m.enter with
  | error e =>
    refine .refused rooted trivial ?_ ?_ ?_ <;> simp only [Engine.stages, Machine.stagesInside, runUnder, entered]
    · rfl
    · rintro _ _ ⟨⟩
  | ok deeper =>
    have inside : x.Secure due Q (deeper.observe (.call name)) :=
      inner _ (Machine.heap_of_enter entered :) (Machine.roots_of_enter entered :)
    refine inside.around rooted trivial ?_ (heap_runUnder_calling due name args x entered) fun a m' ran => ?_
    · simp only [Engine.stages, Machine.stagesInside, entered]
    · obtain ⟨m₁, ran, same⟩ := ok_of_calling entered ran
      exact same ▸ inside.value a m₁ ran

theorem nested (rooted : m.heap.Rooted)
    (inner : ∀ inner : Machine, inner.heap = m.heap → inner.roots = m.roots → x.Secure due Q inner) :
    (Engine.nested x).Secure due Q m := by
  cases entered : m.enter with
  | error e =>
    refine .refused rooted trivial ?_ ?_ ?_ <;> simp only [Engine.stages, Machine.stagesInside, runUnder, entered]
    · rfl
    · rintro _ _ ⟨⟩
  | ok deeper =>
    have inside : x.Secure due Q deeper :=
      inner _ (Machine.heap_of_enter entered) (Machine.roots_of_enter entered)
    refine inside.around rooted trivial ?_ (heap_runUnder_nested due x entered) fun a m' ran => ?_
    · simp only [Engine.stages, Machine.stagesInside, entered]
    · obtain ⟨m₁, ran, same⟩ := ok_of_nested entered ran
      exact same ▸ inside.value a m₁ ran

theorem inSection (phase : Phase) (resumed : Bool) {Q : Completion → Heap → Prop} {x : Engine Completion}
    (rooted : m.heap.Rooted)
    (inner : ∀ inner : Machine, inner.heap = m.heap → inner.roots = m.roots → x.Secure due Q inner) :
    (Engine.inSection phase resumed x).Secure due (fun result h => ∀ c, result = .ok c → Q c h) m := by
  cases entered : m.enter with
  | error e =>
    refine .refused rooted trivial ?_ ?_ ?_ <;> simp only [Engine.stages, Machine.stagesInside, runUnder, entered]
    · rfl
    · rintro _ _ ⟨⟩
  | ok deeper =>
    have inside : x.Secure due Q deeper :=
      inner _ (Machine.heap_of_enter entered) (Machine.roots_of_enter entered)
    refine inside.around rooted trivial ?_ ?_ ?_ <;>
      simp only [Engine.stages, Machine.stagesInside, runUnder, entered]
    · cases x.runUnder due deeper with
      | ok a m' => rfl
      | error e m' => cases e <;> rfl
    · cases ran : x.runUnder due deeper with
      | ok a m' =>
        rintro _ _ ⟨⟩ _ ⟨⟩
        exact inside.value a m' ran
      | error e m' => cases e <;> rintro _ _ ⟨⟩ _ ⟨⟩

/-- A generator that cannot be resumed any deeper is left as it is. -/
theorem resuming (generator : Ref) (name : String) {Q : Completion → Heap → Prop} {x : Engine Completion}
    (rooted : m.heap.Rooted)
    (inner : ∀ inner : Machine, inner.heap = m.heap → inner.roots = m.roots → x.Secure due Q inner) :
    (Engine.resuming generator name x).Secure due
      (fun result h => (∀ e, result = .error e → h = m.heap) ∧ ∀ c, result = .ok (.ok c) → Q c h) m := by
  cases entered : m.enter with
  | error e =>
    refine .refused rooted trivial ?_ ?_ ?_ <;> simp only [Engine.stages, Machine.stagesInside, runUnder, entered]
    · rfl
    · rintro _ _ ⟨⟩
      exact ⟨fun _ _ => rfl, by simp⟩
  | ok deeper =>
    have inside : x.Secure due Q (deeper.observe .resume) :=
      inner _ (Machine.heap_of_enter entered :) (Machine.roots_of_enter entered :)
    refine ⟨fun stage mem => ?_, ?_, ?_⟩
    · simp only [Engine.stages, Machine.stagesInside, entered] at mem
      rcases List.mem_cons.mp mem with rfl | mem
      · exact ⟨rooted, trivial⟩
      · exact inside.stages stage mem
    · have after := inside.rooted
      simp only [runUnder, entered]
      cases ran : x.runUnder due (deeper.observe .resume) with
      | ok a m' =>
        rw [ran] at after
        exact after
      | error e m' =>
        rw [ran] at after
        -- what cannot be caught ends the generator
        cases e with
        | raised e => exact after
        | _ => exact after.finish generator
    · simp only [runUnder, entered]
      cases ran : x.runUnder due (deeper.observe .resume) with
      | ok a m' =>
        rintro _ _ ⟨⟩
        refine ⟨by simp, ?_⟩
        rintro _ ⟨⟩
        exact inside.value a m' ran
      | error e m' =>
        cases e <;> rintro _ _ ⟨⟩
        exact ⟨by simp, by simp⟩

end Secure

end Engine

end ObjectMachine
