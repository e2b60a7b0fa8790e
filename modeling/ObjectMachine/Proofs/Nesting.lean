import ObjectMachine.Proofs.History
/-!
The nesting of calls. Every computation leaves the machine at the depth at which it found it, and
under the same limit of depth; everything it goes through happens at that depth or below.
-/
namespace ObjectMachine

/-! ### The limit of depth -/

namespace Budget

/-- The depth at which calls are refused, if there is one. -/
def depthLimit : Budget → Option Nat
  | unlimited => some Limits.defaultRecursionDepth
  | limited a => a.limits.maxRecursionDepth

theorem checkDepth_eq (b : Budget) (depth : Nat) :
    b.checkDepth depth =
      match b.depthLimit with
      | none => .ok ()
      | some limit => if limit ≤ depth then .error (.recursion limit) else .ok () := by
  cases b <;> rfl

theorem depthLimit_allocate {b b' : Budget} (h : b.allocate = .ok b') :
    b'.depthLimit = b.depthLimit := by
  simp only [allocate] at h
  grind [depthLimit]

@[simp] theorem depthLimit_free (b : Budget) (count : Nat) :
    (b.free count).depthLimit = b.depthLimit := by
  cases b <;> rfl

@[simp] theorem depthLimit_tick (b : Budget) : b.tick.2.depthLimit = b.depthLimit := by
  simp only [tick]
  grind [depthLimit]

@[simp] theorem depthLimit_beginRequest (b : Budget) :
    b.beginRequest.depthLimit = b.depthLimit := by
  cases b <;> rfl

end Budget

namespace Heap

/-- The depth at which calls are refused, if there is one. -/
def depthLimit (h : Heap) : Option Nat := h.budget.depthLimit

theorem depthLimit_book (h : Heap) : h.book.2.depthLimit = h.depthLimit := by
  simp only [book]
  split
  · exact Budget.depthLimit_allocate ‹_›
  · rfl

@[simp] theorem depthLimit_allocate (h : Heap) (o : Object) :
    (h.allocate o).2.depthLimit = h.depthLimit := by
  rw [← h.depthLimit_book]
  simp only [allocate]
  split <;> rename_i booked <;> simp only [booked] <;> rfl

@[simp] theorem depthLimit_modify (h : Heap) (r : Ref) (f : Object → Object) :
    (h.modify r f).depthLimit = h.depthLimit := rfl

@[simp] theorem depthLimit_allocateType (h : Heap) (name : String) (parents : List Ref) :
    (h.allocateType name parents).2.depthLimit = h.depthLimit := by
  have same := h.depthLimit_allocate (.ofPayload (.type { name, parents := [], mro := [] }) none)
  simp only [allocateType]
  split <;> rename_i stored <;> simp only [stored] at same
  · exact same
  · split <;> exact same

@[simp] theorem depthLimit_allocateScope (h : Heap) (s : Scope) :
    (h.allocateScope s).2.depthLimit = h.depthLimit := by
  rw [← h.depthLimit_book]
  simp only [allocateScope]
  split <;> rename_i booked <;> simp only [booked] <;> rfl

@[simp] theorem depthLimit_tick (h : Heap) : h.tick.2.depthLimit = h.depthLimit :=
  Budget.depthLimit_tick h.budget

@[simp] theorem depthLimit_beginRequest (h : Heap) : h.beginRequest.depthLimit = h.depthLimit :=
  Budget.depthLimit_beginRequest h.budget

@[simp] theorem depthLimit_modifyScope (h : Heap) (s : ScopeRef) (f : Scope → Scope) :
    (h.modifyScope s f).depthLimit = h.depthLimit := rfl

@[simp] theorem depthLimit_define (h : Heap) (s : ScopeRef) (name : String) (value : Ref) :
    (h.define s name value).depthLimit = h.depthLimit := by
  simp only [define]
  split <;> rfl

@[simp] theorem depthLimit_assign (h : Heap) (s : ScopeRef) (name : String) (value : Ref) :
    ((h.assign? s name value).getD h).depthLimit = h.depthLimit := by
  simp only [assign?]
  split
  · rfl
  · split <;> rfl

@[simp] theorem depthLimit_undefine (h : Heap) (s : ScopeRef) (name : String) :
    ((h.undefine? s name).getD h).depthLimit = h.depthLimit := by
  simp only [undefine?]
  split
  · rfl
  · split <;> rfl

@[simp] theorem depthLimit_collect (h : Heap) (roots : List Node) :
    (h.collect roots).2.depthLimit = h.depthLimit :=
  Budget.depthLimit_free h.budget _

end Heap

/-! ### The nesting of a machine -/

/-- The depth of a machine and the depth at which it refuses calls. -/
def Machine.nesting (m : Machine) : Nat × Option Nat := (m.depth, m.heap.depthLimit)

namespace Machine

theorem nesting_withHeap {m : Machine} {f : Heap → Heap}
    (hf : (f m.heap).depthLimit = m.heap.depthLimit) : (m.withHeap f).nesting = m.nesting :=
  Prod.ext rfl hf

@[simp] theorem nesting_observe (m : Machine) (e : Nat → Event) :
    (m.observe e).nesting = m.nesting := rfl

@[simp] theorem nesting_note (m : Machine) (n : Notice) : (m.note n).nesting = m.nesting := rfl

@[simp] theorem nesting_pushRoots (m : Machine) (nodes : List Node) :
    (m.pushRoots nodes).nesting = m.nesting := rfl

@[simp] theorem nesting_truncateRoots (m : Machine) (count : Nat) :
    (m.truncateRoots count).nesting = m.nesting := rfl

@[simp] theorem nesting_collectWith (m : Machine) (nodes : List Node) :
    (m.collectWith nodes).nesting = m.nesting :=
  Prod.ext rfl (m.heap.depthLimit_collect _)

/-- A call that is nested is one deeper. -/
theorem nesting_of_enter {m inner : Machine} (h : m.enter = .ok inner) :
    inner.nesting = (m.depth + 1, m.heap.depthLimit) := by
  simp only [enter] at h
  split at h
  · cases h
    rfl
  · cases h

theorem depth_lt_of_enter {m inner : Machine} (h : m.enter = .ok inner) : m.depth < inner.depth := by
  have depth : inner.depth = m.depth + 1 := (Prod.ext_iff.mp (nesting_of_enter h)).1
  omega

/-- Leaving a call that was nested leads back to where it was nested. -/
theorem nesting_leave {m inner last : Machine} (entered : m.enter = .ok inner)
    (h : last.nesting = inner.nesting) : last.leave.nesting = m.nesting := by
  rw [nesting_of_enter entered] at h
  obtain ⟨depth, limit⟩ := Prod.ext_iff.mp h
  exact Prod.ext (Nat.sub_eq_of_eq_add depth) limit

/-- Whether a call is refused depends on the nesting only. -/
theorem enter_of_nesting_eq {m m' inner : Machine} (h : m'.nesting = m.nesting)
    (entered : m.enter = .ok inner) : ∃ inner', m'.enter = .ok inner' := by
  obtain ⟨depth, limit⟩ := Prod.ext_iff.mp h
  simp only [nesting, Heap.depthLimit] at depth limit
  simp only [enter, Budget.checkDepth_eq, depth, limit] at entered ⊢
  split at entered
  · exact ⟨_, rfl⟩
  · cases entered

/-- A call that was nested can be nested again after it was left. -/
theorem enter_leave {m inner last : Machine} (entered : m.enter = .ok inner)
    (h : last.nesting = inner.nesting) : last.leave.enter = .ok last := by
  obtain ⟨deeper, entered'⟩ := enter_of_nesting_eq (nesting_leave entered h) entered
  rw [nesting_of_enter entered] at h
  have depth : last.depth = m.depth + 1 := (Prod.ext_iff.mp h).1
  rw [entered']
  obtain ⟨heap, builtins, globals, depth', roots, printer, tracer⟩ := last
  obtain rfl : depth' = m.depth + 1 := depth
  simp only [leave, enter] at entered'
  split at entered'
  · cases entered'
    rfl
  · cases entered'

end Machine

namespace Op

theorem onHeap_nesting {α : Type} {f : Heap → Except Exhaustion α × Heap} {m : Machine}
    (hf : (f m.heap).2.depthLimit = m.heap.depthLimit) :
    (onHeap f m).machine.nesting = m.nesting := by
  simp only [onHeap]
  split <;> rename_i changed <;> simp only [changed] at hf <;> exact Prod.ext rfl hf

theorem printTo_nesting (s : String) (m : Machine) :
    (printTo s m).machine.nesting = m.nesting := by
  simp only [printTo]
  split <;> rfl

/-- No operation changes the depth of the machine or its limit. -/
theorem perform_nesting (due : Schedule) {α : Type} (o : Op α) (m : Machine) :
    (o.perform due m).machine.nesting = m.nesting := by
  cases o with
  | ask f => rfl
  | load r => simp only [perform]; split <;> rfl
  | loadScope s => simp only [perform]; split <;> rfl
  | store o => exact onHeap_nesting (f := fun h => h.allocate o) (m.heap.depthLimit_allocate o)
  | storeType name parents =>
    exact onHeap_nesting (f := fun h => h.allocateType name parents)
      (m.heap.depthLimit_allocateType name parents)
  | openScope outer =>
    exact onHeap_nesting (f := fun h => h.allocateScope ⟨.empty, some outer⟩)
      (m.heap.depthLimit_allocateScope _)
  | change r c => simp only [perform]; split <;> rfl
  | define s name value =>
    exact Machine.nesting_withHeap (f := fun h => h.define s name value)
      (m.heap.depthLimit_define s name value)
  | assign s name value => exact Machine.nesting_withHeap (m.heap.depthLimit_assign s name value)
  | undefine s name => exact Machine.nesting_withHeap (m.heap.depthLimit_undefine s name)
  | tick => exact onHeap_nesting m.heap.depthLimit_tick
  | collectIfDue nodes =>
    simp only [perform, Outcome.machine]
    split
    · exact m.nesting_collectWith _
    · rfl
  | pushRoots nodes => rfl
  | observe e => rfl
  | note n => rfl
  | print s => exact printTo_nesting s m
  | beginRequest => exact Machine.nesting_withHeap m.heap.depthLimit_beginRequest
  | raise c => rfl

end Op

/-! ### Computations -/

/-- The depth of the machine at a moment. -/
def Moment.depth : Moment → Nat
  | acts _ _ m | throws _ m | enters m | refuses m => m.depth
  | opens _ _ m | bars _ _ _ m | shuts _ m _ => m.depth
  | forgiven moment => moment.depth

/-- A call that is nested goes through nothing above the depth of its caller. -/
theorem Machine.depth_le_of_mem_historyInside {m : Machine} {history : Machine → List Moment}
    (inside : ∀ inner, m.enter = .ok inner → ∀ moment ∈ history inner, m.depth ≤ moment.depth)
    (moment : Moment) (mem : moment ∈ m.historyInside history) : m.depth ≤ moment.depth := by
  simp only [historyInside] at mem
  cases entered : m.enter with
  | error e =>
    simp only [entered, List.mem_singleton] at mem
    exact mem ▸ Nat.le_refl _
  | ok inner =>
    simp only [entered, List.mem_cons] at mem
    rcases mem with rfl | mem
    · exact Nat.le_refl _
    · exact inside inner entered moment mem

namespace Engine

variable {α : Type} {due : Schedule}

/-- A computation ends at the depth at which it starts, and under the same limit. -/
theorem runUnder_nesting (due : Schedule) (x : Engine α) (m : Machine) :
    (x.runUnder due m).machine.nesting = m.nesting := by
  induction x generalizing m with
  | give a => rfl
  | throw e => rfl
  | act o => exact o.perform_nesting due m
  | andThen x f ihx ihf =>
    have hx := ihx m
    simp only [runUnder]
    cases ran : x.runUnder due m with
    | ok a m' =>
      rw [ran] at hx
      exact (ihf a m').trans hx
    | error e m' =>
      rw [ran] at hx
      exact hx
  | keeping nodes x ih =>
    have hx := ih (m.pushRoots nodes)
    simp only [runUnder]
    cases ran : x.runUnder due (m.pushRoots nodes) <;> rw [ran] at hx <;> exact hx
  | holding nodes x ih => exact ih m
  | executing site x ih =>
    have hx := ih m
    simp only [runUnder]
    cases ran : x.runUnder due m <;> rw [ran] at hx <;> exact hx
  | calling name args x ih =>
    cases entered : m.enter with
    | error e => simp only [runUnder, entered, Outcome.machine]
    | ok inner =>
      simp only [runUnder, entered]
      have hx := ih (inner.observe (.call name))
      cases ran : x.runUnder due (inner.observe (.call name)) <;> rw [ran] at hx <;>
        exact Machine.nesting_leave entered hx
  | nested x ih =>
    cases entered : m.enter with
    | error e => simp only [runUnder, entered, Outcome.machine]
    | ok inner =>
      simp only [runUnder, entered]
      have hx := ih inner
      cases ran : x.runUnder due inner <;> rw [ran] at hx <;>
        exact Machine.nesting_leave entered hx
  | inSection phase resumed x ih =>
    cases entered : m.enter with
    | error e => simp only [runUnder, entered, Outcome.machine]
    | ok inner =>
      simp only [runUnder, entered]
      have hx := ih inner
      cases ran : x.runUnder due inner with
      | ok a m' =>
        rw [ran] at hx
        exact Machine.nesting_leave entered hx
      | error e m' =>
        rw [ran] at hx
        cases e <;> exact Machine.nesting_leave entered hx
  | resuming generator name x ih =>
    cases entered : m.enter with
    | error e => simp only [runUnder, entered, Outcome.machine]
    | ok inner =>
      simp only [runUnder, entered]
      have hx := ih (inner.observe .resume)
      cases ran : x.runUnder due (inner.observe .resume) with
      | ok a m' =>
        rw [ran] at hx
        exact Machine.nesting_leave entered hx
      | error e m' =>
        rw [ran] at hx
        cases e <;> exact Machine.nesting_leave entered hx
  | catching x ih =>
    have hx := ih m
    simp only [runUnder]
    cases ran : x.runUnder due m with
    | ok a m' => rw [ran] at hx; exact hx
    | error e m' => rw [ran] at hx; cases e <;> exact hx
  | forgiving x ih =>
    have hx := ih m
    simp only [runUnder]
    cases ran : x.runUnder due m with
    | ok a m' => rw [ran] at hx; exact hx
    | error e m' => rw [ran] at hx; cases e <;> exact hx

/-- A computation goes through nothing above the depth at which it starts. -/
theorem depth_le_of_mem_history (x : Engine α) {held : List Node} {m : Machine} {moment : Moment}
    (mem : moment ∈ x.history due held m) : m.depth ≤ moment.depth := by
  induction x generalizing held m moment with
  | give a => cases mem
  | throw e => exact List.mem_singleton.mp mem ▸ Nat.le_refl _
  | act o => exact List.mem_singleton.mp mem ▸ Nat.le_refl _
  | andThen x f ihx ihf =>
    simp only [history, List.mem_append] at mem
    rcases mem with mem | mem
    · exact ihx mem
    · cases ran : x.runUnder due m with
      | error e m' => simp [ran] at mem
      | ok a m' =>
        simp only [ran] at mem
        have same := x.runUnder_nesting due m
        rw [ran] at same
        have depth : m'.depth = m.depth := (Prod.ext_iff.mp same).1
        exact depth ▸ ihf a mem
  | keeping nodes x ih => exact ih (m := m.pushRoots nodes) mem
  | holding nodes x ih => exact ih mem
  | executing site x ih => exact ih mem
  | calling name args x ih =>
    refine Machine.depth_le_of_mem_historyInside ?_ moment mem
    intro inner entered moment mem
    exact Nat.le_of_lt (Nat.lt_of_lt_of_le (Machine.depth_lt_of_enter entered)
      (ih (m := inner.observe (.call name)) mem))
  | nested x ih =>
    refine Machine.depth_le_of_mem_historyInside ?_ moment mem
    intro inner entered moment mem
    exact Nat.le_of_lt (Nat.lt_of_lt_of_le (Machine.depth_lt_of_enter entered) (ih mem))
  | inSection phase resumed x ih =>
    simp only [history] at mem
    cases entered : m.enter with
    | error e =>
      simp only [entered, List.mem_singleton] at mem
      exact mem ▸ Nat.le_refl _
    | ok inner =>
      simp only [entered, List.mem_cons, List.mem_append, List.not_mem_nil, or_false] at mem
      rcases mem with rfl | mem | rfl
      · exact Nat.le_refl _
      · exact Nat.le_of_lt (Nat.lt_of_lt_of_le (Machine.depth_lt_of_enter entered) (ih mem))
      · exact Nat.le_refl _
  | resuming generator name x ih =>
    refine Machine.depth_le_of_mem_historyInside ?_ moment mem
    intro inner entered moment mem
    exact Nat.le_of_lt (Nat.lt_of_lt_of_le (Machine.depth_lt_of_enter entered)
      (ih (m := inner.observe .resume) mem))
  | catching x ih => exact ih mem
  | forgiving x ih =>
    obtain ⟨inner, innerMem, rfl⟩ := List.mem_map.mp mem
    have depth : m.depth ≤ inner.depth := ih innerMem
    exact depth

end Engine

end ObjectMachine
