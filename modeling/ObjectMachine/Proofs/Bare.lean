import ObjectMachine.Proofs.Fuel.Effects
import ObjectMachine.Proofs.Nesting
import ObjectMachine.Proofs.Sessions
/-!
What a computation cannot see. While no garbage is collected, neither the roots nor the observer nor the
count of instructions makes a difference to a computation, unless too many instructions are counted: the
bare machine, without any of them, goes through the same.
-/
namespace ObjectMachine

/-! ### Budgets -/

namespace Budget

/-- More instructions were counted than may run. -/
def Overdrawn : Budget → Prop
  | unlimited => False
  | limited a => ∃ limit, a.limits.maxOperations = some limit ∧ limit < a.operations

@[simp] theorem unmetered_unmetered (b : Budget) : b.unmetered.unmetered = b.unmetered := by
  cases b <;> rfl

theorem not_overdrawn_unmetered (b : Budget) : ¬ b.unmetered.Overdrawn := by
  cases b with
  | unlimited => exact id
  | limited a =>
    rintro ⟨limit, none, -⟩
    cases none

theorem allocate_unmetered (b : Budget) : b.unmetered.allocate = b.allocate.map unmetered := by
  cases b with
  | unlimited => rfl
  | limited a =>
    simp only [unmetered, allocate]
    split
    · split <;> rfl
    · rfl

theorem Overdrawn.allocate {b b' : Budget} (excess : b.Overdrawn) (booked : b.allocate = .ok b') :
    b'.Overdrawn := by
  cases b with
  | unlimited => exact excess.elim
  | limited a =>
    simp only [Budget.allocate] at booked
    split at booked
    · split at booked <;> cases booked
      exact excess
    · cases booked
      exact excess

theorem Overdrawn.tick {b : Budget} (excess : b.Overdrawn) : b.tick.2.Overdrawn := by
  cases b with
  | unlimited => exact excess.elim
  | limited a =>
    obtain ⟨limit, limited, more⟩ := excess
    simp only [Budget.tick, limited]
    exact ⟨limit, limited, Nat.lt_succ_of_lt more⟩

theorem tick_unmetered (b : Budget) : b.unmetered.tick = (.ok (), b.unmetered) := by
  cases b <;> rfl

/-- An instruction is counted without consequence, or it is one too many. -/
theorem tick_cases (b : Budget) :
    (b.tick.1 = .ok () ∧ b.tick.2.unmetered = b.unmetered) ∨
      (b.tick.2.Overdrawn ∧ b.unmetered ≠ b) := by
  cases b with
  | unlimited => exact .inl ⟨rfl, rfl⟩
  | limited a =>
    cases limited : a.limits.maxOperations with
    | none => exact .inl (by simp [tick, limited])
    | some limit =>
      by_cases more : limit < a.operations + 1
      · refine .inr ⟨by simpa [tick, limited, Overdrawn] using more, fun same => ?_⟩
        -- a budget without a limit is not this one
        have none := congrArg (fun a : Account => a.limits.maxOperations) (Budget.limited.inj same)
        rw [limited] at none
        cases none
      · exact .inl (by simp [tick, limited, more, unmetered])

end Budget

/-! ### Heaps -/

namespace Heap

variable {h : Heap}

@[simp] theorem unmetered_unmetered (h : Heap) : h.unmetered.unmetered = h.unmetered := by
  simp only [unmetered, Budget.unmetered_unmetered]

theorem book_unmetered (h : Heap) : h.unmetered.book = (h.book.1, h.book.2.unmetered) := by
  simp only [book, unmetered, Budget.allocate_unmetered]
  cases h.budget.allocate <;> rfl

theorem allocate_unmetered (h : Heap) (o : Object) :
    h.unmetered.allocate o = ((h.allocate o).1, (h.allocate o).2.unmetered) := by
  simp only [allocate, book_unmetered]
  obtain ⟨result, h'⟩ := h.book
  cases result <;> rfl

theorem allocateScope_unmetered (h : Heap) (s : Scope) :
    h.unmetered.allocateScope s = ((h.allocateScope s).1, (h.allocateScope s).2.unmetered) := by
  simp only [allocateScope, book_unmetered]
  obtain ⟨result, h'⟩ := h.book
  cases result <;> rfl

theorem allocateType_unmetered (h : Heap) (name : String) (parents : List Ref) :
    h.unmetered.allocateType name parents =
      ((h.allocateType name parents).1, (h.allocateType name parents).2.unmetered) := by
  simp only [allocateType, allocate_unmetered]
  obtain ⟨result, h'⟩ := h.allocate (.ofPayload (.type { name, parents := [], mro := [] }) none)
  cases result with
  | error e => rfl
  | ok type =>
    have same : h'.unmetered.mro = h'.mro := rfl
    simp only [same]
    cases Lineage.linearize type parents h'.mro <;> rfl

theorem define_unmetered (h : Heap) (s : ScopeRef) (name : String) (value : Ref) :
    h.unmetered.define s name value = (h.define s name value).unmetered := by
  simp only [define]
  split <;> rfl

theorem assign_unmetered (h : Heap) (s : ScopeRef) (name : String) (value : Ref) :
    (h.unmetered.assign? s name value).getD h.unmetered =
      ((h.assign? s name value).getD h).unmetered := by
  simp only [assign?, unmetered_binding]
  split
  · rfl
  · split <;> rfl

theorem undefine_unmetered (h : Heap) (s : ScopeRef) (name : String) :
    (h.unmetered.undefine? s name).getD h.unmetered =
      ((h.undefine? s name).getD h).unmetered := by
  have same : h.unmetered.scope? s = h.scope? s := rfl
  simp only [undefine?, same]
  split
  · rfl
  · split <;> rfl

theorem overdrawn_book (excess : h.budget.Overdrawn) : h.book.2.budget.Overdrawn := by
  simp only [book]
  split
  · exact excess.allocate ‹_›
  · exact excess

theorem overdrawn_allocate (excess : h.budget.Overdrawn) (o : Object) :
    (h.allocate o).2.budget.Overdrawn := by
  have booked := overdrawn_book excess
  simp only [allocate]
  split <;> rename_i book <;> rw [book] at booked <;> exact booked

theorem overdrawn_allocateScope (excess : h.budget.Overdrawn) (s : Scope) :
    (h.allocateScope s).2.budget.Overdrawn := by
  have booked := overdrawn_book excess
  simp only [allocateScope]
  split <;> rename_i book <;> rw [book] at booked <;> exact booked

theorem overdrawn_allocateType (excess : h.budget.Overdrawn) (name : String) (parents : List Ref) :
    (h.allocateType name parents).2.budget.Overdrawn := by
  have stored := overdrawn_allocate excess (.ofPayload (.type { name, parents := [], mro := [] }) none)
  simp only [allocateType]
  split <;> rename_i result <;> rw [result] at stored
  · exact stored
  · split <;> exact stored

theorem budget_define (h : Heap) (s : ScopeRef) (name : String) (value : Ref) :
    (h.define s name value).budget = h.budget := by
  simp only [define]
  split <;> rfl

theorem budget_assign (h : Heap) (s : ScopeRef) (name : String) (value : Ref) :
    ((h.assign? s name value).getD h).budget = h.budget := by
  simp only [assign?]
  split
  · rfl
  · split <;> rfl

theorem budget_undefine (h : Heap) (s : ScopeRef) (name : String) :
    ((h.undefine? s name).getD h).budget = h.budget := by
  simp only [undefine?]
  split
  · rfl
  · split <;> rfl

end Heap

/-! ### Machines -/

/-- Garbage is never collected. -/
def Schedule.never : Schedule := fun _ => false

namespace Machine

/-- More instructions were counted than may run. -/
def Overdrawn (m : Machine) : Prop := m.heap.budget.Overdrawn

/-- The machine without roots, without an observer and without a limit of instructions. -/
def bare (m : Machine) : Machine :=
  { m with heap := m.heap.unmetered, roots := #[], tracer := .silent }

/-- The second machine is the first one without a limit of instructions; roots and observer may
differ. -/
structure Twin (m m' : Machine) : Prop where
  /-- The heap has no limit of instructions. -/
  heap : m'.heap = m.heap.unmetered
  /-- The outermost scope is the same. -/
  builtins : m'.builtins = m.builtins
  /-- The scope of the host is the same. -/
  globals : m'.globals = m.globals
  /-- As many calls are nested. -/
  depth : m'.depth = m.depth
  /-- The printer is the same. -/
  printer : m'.printer = m.printer

variable {m m' inner : Machine}

theorem twin_bare (m : Machine) : m.Twin m.bare := ⟨rfl, rfl, rfl, rfl, rfl⟩

theorem Twin.bare_eq (twin : m.Twin m') : m'.bare = m.bare := by
  obtain ⟨heap, builtins, globals, depth, printer⟩ := twin
  simp only [bare, heap, builtins, globals, depth, printer, Heap.unmetered_unmetered]

@[simp] theorem bare_bare (m : Machine) : m.bare.bare = m.bare := m.twin_bare.bare_eq

theorem Twin.depthLimit_eq (twin : m.Twin m') :
    m'.heap.budget.depthLimit = m.heap.budget.depthLimit := by
  rw [twin.heap]
  simp only [Heap.unmetered]
  cases m.heap.budget <;> rfl

theorem nesting_bare (m : Machine) : m.bare.nesting = m.nesting :=
  Prod.ext rfl m.twin_bare.depthLimit_eq

theorem Twin.enter_ok (twin : m.Twin m') (entered : m.enter = .ok inner) :
    ∃ inner', m'.enter = .ok inner' ∧ inner.Twin inner' := by
  have limit := twin.depthLimit_eq
  obtain ⟨heap, builtins, globals, depth, printer⟩ := twin
  simp only [enter, Budget.checkDepth_eq, limit, depth] at entered ⊢
  split at entered
  · cases entered
    exact ⟨_, rfl, heap, builtins, globals, rfl, printer⟩
  · cases entered

theorem Twin.enter_error (twin : m.Twin m') {e : Exhaustion} (refused : m.enter = .error e) :
    m'.enter = .error e := by
  have limit := twin.depthLimit_eq
  obtain ⟨heap, builtins, globals, depth, printer⟩ := twin
  simp only [enter, Budget.checkDepth_eq, limit, depth] at refused ⊢
  split at refused
  · cases refused
  · cases refused
    rfl

/-- The bare machine nests the same calls. -/
theorem bare_enter (m : Machine) : m.bare.enter = m.enter.map bare := by
  cases entered : m.enter with
  | error e => exact m.twin_bare.enter_error entered
  | ok inner =>
    obtain ⟨inner', entered', twin⟩ := m.twin_bare.enter_ok entered
    rw [entered']
    have same : inner'.bare = inner.bare := twin.bare_eq
    -- to enter adds neither roots nor an observer, and the heap stays as it is
    have already : inner'.bare = inner' := by
      simp only [enter] at entered'
      split at entered' <;> cases entered'
      simp only [bare, Heap.unmetered_unmetered]
    rw [Except.map, ← same, already]

end Machine

/-- Two computations end in the same way, on twins. -/
inductive Outcome.Twins {α : Type} : Outcome α → Outcome α → Prop where
  | ok {m m' : Machine} (a : α) (twin : m.Twin m') : Twins (.ok a m) (.ok a m')
  | error {m m' : Machine} (e : Interrupt) (twin : m.Twin m') : Twins (.error e m) (.error e m')

/-- The outcome on the bare machine. -/
def Outcome.bare {α : Type} : Outcome α → Outcome α
  | .ok a m => .ok a m.bare
  | .error e m => .error e m.bare

theorem Outcome.Twins.bare_eq {α : Type} {o o' : Outcome α} (twins : o.Twins o') : o'.bare = o.bare := by
  cases twins with
  | ok a twin => simp only [Outcome.bare, twin.bare_eq]
  | error e twin => simp only [Outcome.bare, twin.bare_eq]

/-! ### Operations -/

namespace Op

variable {r : Rights} {m m' : Machine}

theorem overdrawn_onHeap {α : Type} {f : Heap → Except Exhaustion α × Heap}
    (excess : (f m.heap).2.budget.Overdrawn) : (onHeap f m).machine.Overdrawn := by
  simp only [onHeap]
  split <;> rename_i changed <;> rw [changed] at excess <;> exact excess

theorem twins_onHeap {α : Type} {f : Heap → Except Exhaustion α × Heap} (twin : m.Twin m')
    (blind : f m.heap.unmetered = ((f m.heap).1, (f m.heap).2.unmetered)) :
    (onHeap f m).Twins (onHeap f m') := by
  obtain ⟨heap, builtins, globals, depth, printer⟩ := twin
  simp only [onHeap, heap, blind]
  split <;> rename_i changed <;> simp only [changed]
  · exact .ok _ ⟨rfl, builtins, globals, depth, printer⟩
  · exact .error _ ⟨rfl, builtins, globals, depth, printer⟩

/-- An operation that may be used does the same to twins, unless too many instructions are counted. -/
theorem perform_twins {α : Type} (o : Op α) (permitted : o.Permitted r) (twin : m.Twin m') :
    ((o.perform .never m).machine.Overdrawn ∧ m.heap.unmetered ≠ m.heap) ∨
      (o.perform .never m).Twins (o.perform .never m') := by
  have withHeap {f : Heap → Heap} (blind : f m.heap.unmetered = (f m.heap).unmetered) :
      (m.withHeap f).Twin (m'.withHeap f) := by
    obtain ⟨heap, builtins, globals, depth, printer⟩ := twin
    exact ⟨by simp only [Machine.heap_withHeap, heap, blind], builtins, globals, depth, printer⟩
  have objects (r : Ref) : m'.heap.object? r = m.heap.object? r := by rw [twin.heap]; rfl
  have scopes (s : ScopeRef) : m'.heap.scope? s = m.heap.scope? s := by rw [twin.heap]; rfl
  cases o with
  | ask f =>
    refine .inr ?_
    simp only [perform, twin.heap, show f m.heap.unmetered = f m.heap from permitted m.heap]
    exact .ok _ twin
  | load r =>
    refine .inr ?_
    simp only [perform, objects]
    split
    · exact .ok _ twin
    · exact .error _ twin
  | loadScope s =>
    refine .inr ?_
    simp only [perform, scopes]
    split
    · exact .ok _ twin
    · exact .error _ twin
  | store o => exact .inr (twins_onHeap (f := fun h => h.allocate o) twin (m.heap.allocate_unmetered o))
  | storeType name parents =>
    exact .inr (twins_onHeap (f := fun h => h.allocateType name parents) twin
      (m.heap.allocateType_unmetered name parents))
  | openScope outer =>
    exact .inr (twins_onHeap (f := fun h => h.allocateScope ⟨.empty, some outer⟩) twin
      (m.heap.allocateScope_unmetered _))
  | change r c =>
    refine .inr ?_
    have occupied : m'.heap.objects.occupied r.slot = m.heap.objects.occupied r.slot := by
      rw [twin.heap]
      rfl
    simp only [perform, occupied]
    split
    · exact .ok _ (withHeap rfl)
    · exact .error _ twin
  | define s name value =>
    exact .inr (.ok _ (withHeap (f := fun h => h.define s name value)
      (m.heap.define_unmetered s name value)))
  | assign s name value => exact .inr (.ok _ (withHeap (m.heap.assign_unmetered s name value)))
  | undefine s name => exact .inr (.ok _ (withHeap (m.heap.undefine_unmetered s name)))
  | tick =>
    rcases m.heap.budget.tick_cases with ⟨counted, same⟩ | excess
    · refine .inr ?_
      obtain ⟨heap, builtins, globals, depth, printer⟩ := twin
      simp only [perform, onHeap, Heap.tick, heap, Heap.unmetered, Budget.tick_unmetered, counted]
      exact .ok _ ⟨by simp only [Heap.unmetered, same], builtins, globals, depth, printer⟩
    · refine .inl ⟨overdrawn_onHeap (f := Heap.tick) excess.1, fun same => excess.2 ?_⟩
      exact congrArg Heap.budget same
  | collectIfDue nodes => exact .inr (.ok _ twin)
  | pushRoots nodes =>
    exact .inr (.ok _ ⟨twin.heap, twin.builtins, twin.globals, twin.depth, twin.printer⟩)
  | observe e =>
    exact .inr (.ok _ ⟨twin.heap, twin.builtins, twin.globals, twin.depth, twin.printer⟩)
  | note n =>
    exact .inr (.ok _ ⟨twin.heap, twin.builtins, twin.globals, twin.depth, twin.printer⟩)
  | print s =>
    refine .inr ?_
    obtain ⟨heap, builtins, globals, depth, printer⟩ := twin
    simp only [perform, printTo, printer]
    split
    · exact .ok _ ⟨heap, builtins, globals, depth, rfl⟩
    · exact .error _ ⟨heap, builtins, globals, depth, rfl⟩
  | beginRequest => exact permitted.elim
  | raise c => exact .inr (.error _ twin)

/-- Once too many instructions were counted, that stays so. -/
theorem perform_overdrawn {α : Type} (o : Op α) (permitted : o.Permitted r) (excess : m.Overdrawn) :
    (o.perform .never m).machine.Overdrawn := by
  cases o with
  | load r => simp only [perform]; split <;> exact excess
  | loadScope s => simp only [perform]; split <;> exact excess
  | store o => exact overdrawn_onHeap (f := fun h => h.allocate o) (Heap.overdrawn_allocate excess o)
  | storeType name parents =>
    exact overdrawn_onHeap (f := fun h => h.allocateType name parents)
      (Heap.overdrawn_allocateType excess name parents)
  | openScope outer =>
    exact overdrawn_onHeap (f := fun h => h.allocateScope ⟨.empty, some outer⟩)
      (Heap.overdrawn_allocateScope excess _)
  | change r c => simp only [perform]; split <;> exact excess
  | define s name value =>
    exact show (m.heap.define s name value).budget.Overdrawn by rwa [Heap.budget_define]
  | assign s name value =>
    exact show ((m.heap.assign? s name value).getD m.heap).budget.Overdrawn by
      rwa [Heap.budget_assign]
  | undefine s name =>
    exact show ((m.heap.undefine? s name).getD m.heap).budget.Overdrawn by rwa [Heap.budget_undefine]
  | tick => exact overdrawn_onHeap (f := Heap.tick) (Budget.Overdrawn.tick excess)
  | print s => simp only [perform, printTo]; split <;> exact excess
  | beginRequest => exact permitted.elim
  | _ => exact excess

end Op

/-! ### Computations -/

namespace Engine

variable {α : Type} {kept : List Ref} {r : Rights} {x y : Engine α}

/-- Once too many instructions were counted, that stays so. -/
theorem carries_overdrawn : Rights.Carries .never fun _ m m' => m.Overdrawn → m'.Overdrawn where
  refl _ _ := id
  trans first later excess := later (first excess)
  act o permitted := o.perform_overdrawn permitted
  keeping _ inner := inner
  nested entered inner excess := by
    refine inner ?_
    simp only [Machine.Overdrawn, Machine.heap_of_enter entered]
    exact excess
  observe _ _ _ := id
  finish _ _ _ := id
  generator _ inner := inner

theorem twin_observe {m m' : Machine} (twin : m.Twin m') (e : Nat → Event) :
    (m.observe e).Twin (m'.observe e) :=
  ⟨twin.heap, twin.builtins, twin.globals, twin.depth, twin.printer⟩

theorem twin_leave {m m' : Machine} (twin : m.Twin m') : m.leave.Twin m'.leave := by
  obtain ⟨heap, builtins, globals, depth, printer⟩ := twin
  exact ⟨heap, builtins, globals, congrArg (· - 1) depth, printer⟩

theorem twin_finish {m m' : Machine} (twin : m.Twin m') (generator : Ref) :
    (m.withHeap fun h => h.modify generator (Change.generator .finished).apply).Twin
      (m'.withHeap fun h => h.modify generator (Change.generator .finished).apply) := by
  obtain ⟨heap, builtins, globals, depth, printer⟩ := twin
  exact ⟨by rw [Machine.heap_withHeap, heap]; rfl, builtins, globals, depth, printer⟩

/-- A heap without a limit of instructions has none afterwards. -/
theorem carries_unmetered : Rights.Carries .never fun _ m m' =>
    m.heap.unmetered = m.heap → m'.heap.unmetered = m'.heap where
  refl _ _ := id
  trans first later none := later (first none)
  act {_ m _} o permitted none := by
    -- the machine is its own twin
    have twin : m.Twin m := ⟨none.symm, rfl, rfl, rfl, rfl⟩
    rcases Op.perform_twins o permitted twin with ⟨-, limited⟩ | twins
    · exact (limited none).elim
    · generalize o.perform .never m = outcome at twins ⊢
      cases twins <;> exact (Machine.Twin.heap ‹_›).symm
  keeping _ inner := inner
  nested entered inner none := by
    refine inner ?_
    rwa [Machine.heap_of_enter entered]
  observe _ _ _ := id
  finish m generator _ none := by
    refine congrArg (fun h => Heap.modify h generator (Change.generator .finished).apply) none
  generator _ inner := inner

/-- On a bare machine, no limit of instructions is reached. -/
theorem BelowWith.not_overdrawn (below : BelowWith kept r x y) {m : Machine} (bare : m.bare = m) :
    ¬ (x.runUnder .never m).machine.Overdrawn := by
  have none := below.carried carries_unmetered m (congrArg Machine.heap bare)
  rw [Machine.Overdrawn, ← none]
  exact Budget.not_overdrawn_unmetered _

/-- A computation does the same to twins, unless too many instructions are counted. -/
theorem BelowWith.twins (below : BelowWith kept r x y) {m m' : Machine} (twin : m.Twin m') :
    (x.runUnder .never m).machine.Overdrawn ∨ (x.runUnder .never m).Twins (x.runUnder .never m') := by
  -- the twins pass through the same calls; what the limit refuses to one it refuses to the other
  induction below generalizing m m' with
  | outOfFuel y => exact .inr (.error _ twin)
  | give a => exact .inr (.ok a twin)
  | throw e => exact .inr (.error e twin)
  | act permitted => exact (Op.perform_twins _ permitted twin).imp_left And.left
  | @andThen _ _ _ _ x _ f _ _ _ _ later ihx ihf =>
    have first := ihx twin
    simp only [runUnder]
    generalize ran : x.runUnder .never m = o, x.runUnder .never m' = o' at first ⊢
    rcases first with excess | ⟨a, twin⟩ | ⟨e, twin⟩
    · cases o with
      | ok a m₁ => exact .inl ((later a ⟨_, _, _, ran⟩).carried carries_overdrawn m₁ excess)
      | error e m₁ => exact .inl excess
    · exact ihf a ⟨_, _, _, ran⟩ twin
    · exact .inr (.error e twin)
  | @keeping _ _ _ x _ nodes _ ih =>
    have pushed : (m.pushRoots nodes).Twin (m'.pushRoots nodes) :=
      ⟨twin.heap, twin.builtins, twin.globals, twin.depth, twin.printer⟩
    have inner := ih pushed
    -- the roots that differ are dropped again, and are not compared anyway
    simp only [runUnder]
    generalize x.runUnder .never (m.pushRoots nodes) = o,
      x.runUnder .never (m'.pushRoots nodes) = o' at inner ⊢
    rcases inner with excess | ⟨a, last⟩ | ⟨e, last⟩
    · cases o <;> exact .inl excess
    · exact .inr (.ok a ⟨last.heap, last.builtins, last.globals, last.depth, last.printer⟩)
    · exact .inr (.error e ⟨last.heap, last.builtins, last.globals, last.depth, last.printer⟩)
  | holding _ _ ih => exact ih twin
  | @executing _ _ _ x _ site _ ih =>
    have inner := ih twin
    simp only [runUnder]
    generalize x.runUnder .never m = o, x.runUnder .never m' = o' at inner ⊢
    rcases inner with excess | ⟨a, last⟩ | ⟨e, last⟩
    · cases o <;> exact .inl excess
    · exact .inr (.ok a last)
    · exact .inr (.error _ last)
  | @calling _ _ _ x _ name args _ ih =>
    simp only [runUnder]
    cases entered : m.enter with
    | error e =>
      rw [twin.enter_error entered]
      exact .inr (.error _ twin)
    | ok inner =>
      obtain ⟨inner', entered', twin'⟩ := twin.enter_ok entered
      have last := ih (twin_observe twin' (.call name))
      rw [entered']
      dsimp only
      generalize x.runUnder .never (inner.observe (.call name)) = o,
        x.runUnder .never (inner'.observe (.call name)) = o' at last ⊢
      rcases last with excess | ⟨a, last⟩ | ⟨e, last⟩
      · cases o <;> exact .inl excess
      · exact .inr (.ok a (twin_leave (twin_observe last .leave)))
      · exact .inr (.error _ (twin_leave (twin_observe last .leave)))
  | @nested _ _ _ x _ _ ih =>
    simp only [runUnder]
    cases entered : m.enter with
    | error e =>
      rw [twin.enter_error entered]
      exact .inr (.error _ twin)
    | ok inner =>
      obtain ⟨inner', entered', twin'⟩ := twin.enter_ok entered
      have last := ih twin'
      rw [entered']
      dsimp only
      generalize x.runUnder .never inner = o, x.runUnder .never inner' = o' at last ⊢
      rcases last with excess | ⟨a, last⟩ | ⟨e, last⟩
      · cases o <;> exact .inl excess
      · exact .inr (.ok a (twin_leave last))
      · exact .inr (.error e (twin_leave last))
  | @inSection _ _ x _ _ _ _ ih =>
    simp only [runUnder]
    cases entered : m.enter with
    | error e =>
      rw [twin.enter_error entered]
      exact .inr (.error _ twin)
    | ok inner =>
      obtain ⟨inner', entered', twin'⟩ := twin.enter_ok entered
      have last := ih twin'
      rw [entered']
      dsimp only
      generalize x.runUnder .never inner = o, x.runUnder .never inner' = o' at last ⊢
      rcases last with excess | ⟨a, last⟩ | ⟨e, last⟩
      · rcases o with _ | ⟨_ | _, _⟩ <;> exact .inl excess
      · exact .inr (.ok _ (twin_leave last))
      · cases e with
        | raised e => exact .inr (.ok _ (twin_leave last))
        | _ => exact .inr (.error _ (twin_observe (twin_leave last) .tryExit))
  | @resuming _ _ x _ generator name _ _ ih =>
    simp only [runUnder]
    cases entered : m.enter with
    | error e =>
      rw [twin.enter_error entered]
      exact .inr (.ok _ twin)
    | ok inner =>
      obtain ⟨inner', entered', twin'⟩ := twin.enter_ok entered
      have last := ih (twin_observe twin' .resume)
      rw [entered']
      dsimp only
      generalize x.runUnder .never (inner.observe .resume) = o,
        x.runUnder .never (inner'.observe .resume) = o' at last ⊢
      rcases last with excess | ⟨a, last⟩ | ⟨e, last⟩
      · rcases o with _ | ⟨_ | _, _⟩ <;> exact .inl excess
      · exact .inr (.ok _ (twin_leave last))
      · cases e with
        | raised e => exact .inr (.ok _ (twin_leave last))
        | _ => exact .inr (.error _ (twin_finish (twin_leave last) generator))
  | generator _ _ _ _ _ ih => exact ih twin
  | @catching _ _ _ x _ _ ih =>
    have inner := ih twin
    simp only [runUnder]
    generalize x.runUnder .never m = o, x.runUnder .never m' = o' at inner ⊢
    rcases inner with excess | ⟨a, last⟩ | ⟨e, last⟩
    · rcases o with _ | ⟨_ | _, _⟩ <;> exact .inl excess
    · exact .inr (.ok _ last)
    · cases e with
      | raised e => exact .inr (.ok _ last)
      | _ => exact .inr (.error _ last)
  | @forgiving _ _ _ x _ _ _ ih =>
    have inner := ih twin
    simp only [runUnder]
    generalize x.runUnder .never m = o, x.runUnder .never m' = o' at inner ⊢
    rcases inner with excess | ⟨a, last⟩ | ⟨e, last⟩
    · rcases o with _ | ⟨_ | _, _⟩ <;> exact .inl excess
    · exact .inr (.ok _ last)
    · dsimp only
      split
      · exact .inr (.ok _ last)
      · exact .inr (.error _ last)

/-- On the bare machine, a computation does the same, unless too many instructions are counted. -/
theorem BelowWith.bare_eq (below : BelowWith kept r x y) {m : Machine}
    (within : ¬ (x.runUnder .never m).machine.Overdrawn) :
    (x.runUnder .never m.bare).bare = (x.runUnder .never m).bare :=
  ((below.twins m.twin_bare).resolve_left within).bare_eq

end Engine

end ObjectMachine
