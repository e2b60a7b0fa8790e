import ObjectMachine.Assembler
import ObjectMachine.Proofs.Fuel.Effects
import ObjectMachine.Proofs.Nesting
/-!
The books of the engine. Whatever enters a call leaves it, and whatever adds roots drops them, however the
computation ends; and no call is nested below the limit of depth.
-/
namespace ObjectMachine

/-! ### Roots -/

namespace Machine

/-- The second machine has the roots of the first one, and others only if a computation may add roots. -/
def AddsRoots (r : Rights) (m m' : Machine) : Prop :=
  ∃ more : List Node, m'.roots.toList = m.roots.toList ++ more ∧ (r.roots = false → more = [])

variable {r : Rights} {m m' m'' : Machine}

theorem AddsRoots.of_eq (same : m'.roots = m.roots) : m.AddsRoots r m' :=
  ⟨[], by simp [same], fun _ => rfl⟩

theorem AddsRoots.trans (first : m.AddsRoots r m') (later : m'.AddsRoots r m'') :
    m.AddsRoots r m'' := by
  obtain ⟨more, added, none⟩ := first
  obtain ⟨more', added', none'⟩ := later
  refine ⟨more ++ more', by rw [added', added, List.append_assoc], fun right => ?_⟩
  rw [none right, none' right, List.append_nil]

theorem roots_pushRoots (m : Machine) (nodes : List Node) :
    (m.pushRoots nodes).roots.toList = m.roots.toList ++ nodes := by
  simp [pushRoots]

/-- Dropping the roots that were added leads back to those there were. -/
theorem AddsRoots.truncate {nodes : List Node} (added : (m.pushRoots nodes).AddsRoots r m') :
    (m'.truncateRoots m.roots.size).roots = m.roots := by
  obtain ⟨more, roots, -⟩ := added
  rw [roots_pushRoots, List.append_assoc] at roots
  -- the roots that were there stand in front of all that were added
  have take : m'.roots.toList.take m.roots.size = m.roots.toList := by
    rw [roots, ← Array.length_toList, List.take_left]
  refine Array.ext' ?_
  rw [← take]
  simp [truncateRoots]

theorem roots_of_enter {inner : Machine} (entered : m.enter = .ok inner) : inner.roots = m.roots := by
  simp only [enter] at entered
  split at entered <;> cases entered
  rfl

end Machine

namespace Op

theorem roots_onHeap {α : Type} (f : Heap → Except Exhaustion α × Heap) (m : Machine) :
    (onHeap f m).machine.roots = m.roots := by
  simp only [onHeap]
  split <;> rfl

theorem roots_printTo (s : String) (m : Machine) : (printTo s m).machine.roots = m.roots := by
  simp only [printTo]
  split <;> rfl

/-- The roots that an operation adds. -/
def newRoots {α : Type} : Op α → List Node
  | pushRoots nodes => nodes
  | _ => []

theorem roots_perform {α : Type} (o : Op α) (due : Schedule) (m : Machine) :
    (o.perform due m).machine.roots.toList = m.roots.toList ++ o.newRoots := by
  have still (same : (o.perform due m).machine.roots = m.roots) (none : o.newRoots = []) :
      (o.perform due m).machine.roots.toList = m.roots.toList ++ o.newRoots := by
    rw [same, none, List.append_nil]
  cases o with
  | pushRoots nodes => exact m.roots_pushRoots nodes
  | load r => exact still (by simp only [perform]; split <;> rfl) rfl
  | loadScope s => exact still (by simp only [perform]; split <;> rfl) rfl
  | store o => exact still (roots_onHeap (fun h => h.allocate o) m) rfl
  | storeType name parents => exact still (roots_onHeap (fun h => h.allocateType name parents) m) rfl
  | openScope outer => exact still (roots_onHeap (fun h => h.allocateScope ⟨.empty, some outer⟩) m) rfl
  | change r c => exact still (by simp only [perform]; split <;> rfl) rfl
  | tick => exact still (roots_onHeap Heap.tick m) rfl
  | collectIfDue nodes => exact still (by simp only [perform]; split <;> rfl) rfl
  | print s => exact still (roots_printTo s m) rfl
  | _ => exact still rfl rfl

/-- Only an operation that may do so adds roots. -/
theorem perform_addsRoots {r : Rights} (due : Schedule) {α : Type} (o : Op α) (m : Machine)
    (permitted : o.Permitted r) : m.AddsRoots r (o.perform due m).machine := by
  refine ⟨o.newRoots, o.roots_perform due m, fun none => ?_⟩
  cases o with
  | pushRoots nodes =>
    rw [show r.roots = true from permitted] at none
    cases none
  | _ => rfl

end Op

namespace Engine

/-- A computation adds roots only if it may. -/
theorem carries_addsRoots (due : Schedule) : Rights.Carries due Machine.AddsRoots where
  refl _ _ := .of_eq rfl
  trans first later := first.trans later
  act o permitted := o.perform_addsRoots due _ permitted
  keeping _ added := .of_eq added.truncate
  nested entered added :=
    (Machine.AddsRoots.of_eq (Machine.roots_of_enter entered)).trans (added.trans (.of_eq rfl))
  observe _ _ _ := .of_eq rfl
  finish _ _ _ := .of_eq rfl
  generator _ inner := inner

/-! ### Depth -/

end Engine

/-- The depth that the machine reaches at a moment: a call that is nested is one deeper. -/
def Moment.reach : Moment → Nat
  | enters m | opens _ _ m => m.depth + 1
  | acts _ _ m | throws _ m | refuses m | bars _ _ _ m | shuts _ m _ => m.depth
  | forgiven moment => moment.reach

namespace Machine

variable {m inner : Machine} {limit : Nat}

/-- No deeper call is nested at the limit. -/
theorem depth_lt_limit_of_enter (limited : m.heap.depthLimit = some limit)
    (entered : m.enter = .ok inner) : m.depth < limit := by
  simp only [Heap.depthLimit] at limited
  simp only [enter, Budget.checkDepth_eq, limited] at entered
  by_contra deep
  rw [if_pos (Nat.le_of_not_lt deep)] at entered
  cases entered

/-- A nested call keeps to the limit if what is called does. -/
theorem reach_le_of_mem_historyInside {history : Machine → List Moment}
    (limited : m.heap.depthLimit = some limit) (start : m.depth ≤ limit)
    (inside : ∀ inner, m.enter = .ok inner → ∀ moment ∈ history inner, moment.reach ≤ limit)
    (moment : Moment) (mem : moment ∈ m.historyInside history) : moment.reach ≤ limit := by
  simp only [historyInside] at mem
  cases entered : m.enter with
  | error e =>
    simp only [entered, List.mem_singleton] at mem
    exact mem ▸ start
  | ok inner =>
    simp only [entered, List.mem_cons] at mem
    rcases mem with rfl | mem
    · exact depth_lt_limit_of_enter limited entered
    · exact inside inner entered moment mem

theorem nesting_eq_iff {m m' : Machine} :
    m'.nesting = m.nesting ↔ m'.depth = m.depth ∧ m'.heap.depthLimit = m.heap.depthLimit :=
  Prod.ext_iff

end Machine

namespace Engine

variable {α : Type} {due : Schedule} {limit : Nat}

/-- No computation nests calls deeper than the limit. -/
theorem reach_le_of_mem_history (x : Engine α) {held : List Node} {m : Machine}
    (limited : m.heap.depthLimit = some limit) (start : m.depth ≤ limit) {moment : Moment}
    (mem : moment ∈ x.history due held m) : moment.reach ≤ limit := by
  -- where a call is nested, its machine is under the same limit and not below it
  have nested {m inner : Machine} (limited : m.heap.depthLimit = some limit)
      (entered : m.enter = .ok inner) : inner.heap.depthLimit = some limit ∧ inner.depth ≤ limit := by
    obtain ⟨depth, same⟩ := Prod.ext_iff.mp (Machine.nesting_of_enter entered)
    have deep : m.depth + 1 ≤ limit := Machine.depth_lt_limit_of_enter limited entered
    exact ⟨same.trans limited, Nat.le_trans (Nat.le_of_eq depth) deep⟩
  -- by induction on the computation; only a nested call makes the depth grow
  induction x generalizing held m moment with
  | give a => cases mem
  | throw e => exact List.mem_singleton.mp mem ▸ start
  | act o => exact List.mem_singleton.mp mem ▸ start
  | andThen x f ihx ihf =>
    simp only [history, List.mem_append] at mem
    rcases mem with mem | mem
    · exact ihx limited start mem
    · have same := x.runUnder_nesting due m
      cases ran : x.runUnder due m with
      | error e m' => simp [ran] at mem
      | ok a m' =>
        simp only [ran] at mem same
        obtain ⟨depth, limit⟩ := Machine.nesting_eq_iff.mp same
        exact ihf a (limit.trans limited) (Nat.le_trans (Nat.le_of_eq depth) start) mem
  | keeping nodes x ih => exact ih (m := m.pushRoots nodes) limited start mem
  | holding nodes x ih => exact ih limited start mem
  | executing site x ih => exact ih limited start mem
  | calling name args x ih =>
    refine Machine.reach_le_of_mem_historyInside limited start ?_ moment mem
    intro inner entered moment mem
    obtain ⟨limited', start'⟩ := nested limited entered
    exact ih (m := inner.observe (.call name)) limited' start' mem
  | nested x ih =>
    refine Machine.reach_le_of_mem_historyInside limited start ?_ moment mem
    intro inner entered moment mem
    obtain ⟨limited', start'⟩ := nested limited entered
    exact ih limited' start' mem
  | inSection phase resumed x ih =>
    simp only [history] at mem
    cases entered : m.enter with
    | error e =>
      simp only [entered, List.mem_singleton] at mem
      exact mem ▸ start
    | ok inner =>
      simp only [entered, List.mem_cons, List.mem_append, List.not_mem_nil, or_false] at mem
      obtain ⟨limited', start'⟩ := nested limited entered
      rcases mem with rfl | mem | rfl
      · exact Machine.depth_lt_limit_of_enter limited entered
      · exact ih limited' start' mem
      · exact start
  | resuming generator name x ih =>
    refine Machine.reach_le_of_mem_historyInside limited start ?_ moment mem
    intro inner entered moment mem
    obtain ⟨limited', start'⟩ := nested limited entered
    exact ih (m := inner.observe .resume) limited' start' mem
  | catching x ih => exact ih limited start mem
  | forgiving x ih =>
    obtain ⟨inner, innerMem, rfl⟩ := List.mem_map.mp mem
    have deep : inner.reach ≤ limit := ih limited start innerMem
    exact deep

/-! ### The books -/

/-- A computation leaves the depth and the roots as it finds them, on every machine, whenever garbage is
collected, and however it ends. -/
def Balanced (x : Engine α) : Prop :=
  ∀ (due : Schedule) (m : Machine),
    (x.runUnder due m).machine.depth = m.depth ∧ (x.runUnder due m).machine.roots = m.roots

theorem BelowWith.balanced {kept : List Ref} {r : Rights} {x y : Engine α} (below : BelowWith kept r x y)
    (none : r.roots = false) : x.Balanced := by
  intro due m
  obtain ⟨depth, -⟩ := Machine.nesting_eq_iff.mp (x.runUnder_nesting due m)
  -- the roots come back because the parts of the engine have no right to add any
  obtain ⟨more, added, nothing⟩ := below.carried (carries_addsRoots due) m
  rw [nothing none, List.append_nil] at added
  exact ⟨depth, Array.toList_inj.mp added⟩

theorem Below.balanced {r : Rights} {x y : Engine α} (below : Below r x y) (none : r.roots = false) :
    x.Balanced :=
  (below []).balanced none

/-- The engine keeps its books: every part of it leaves the depth and the roots as it finds them, and under
a limit of depth, neither a computation that starts within the limit nor any request exceeds it. -/
theorem books_balanced (fuel : Nat) :
    (∀ f, (runFrameWith fuel f).Balanced) ∧
    (∀ callee args, (callWith fuel callee args).Balanced) ∧
    (∀ name args anyValue, (callOperator (reentry fuel) name args anyValue).Balanced) ∧
    (∀ p, (invokeWith fuel p).Balanced) ∧
    (∀ type args, (instantiate (reentry fuel) type args).Balanced) ∧
    (∀ f block binding, (protect (reentry fuel) f block binding).Balanced) ∧
    (∀ f name body count, (makeClass (reentry fuel) f name body count).Balanced) ∧
    (∀ iterator, (iterateNext (reentry fuel) iterator).Balanced) ∧
    (∀ generator, (generatorNext (reentry fuel) generator).Balanced) ∧
    (∀ iterable, (collectItems (reentry fuel) iterable).Balanced) ∧
    ∀ (m : Machine) (limit : Nat), m.heap.depthLimit = some limit →
      (∀ (due : Schedule) {α : Type} (x : Engine α) (held : List Node), m.depth ≤ limit →
        ∀ moment ∈ x.history due held m, moment.reach ≤ limit) ∧
      ∀ (r : Request) (printer : Printer), ∀ moment ∈ r.history m printer, moment.reach ≤ limit := by
  have entries : (reentry fuel).Below (reentry fuel) := below_reentry fuel 0
  have none : (Rights.mk false false).roots = false := rfl
  refine ⟨fun f => (entries.runFrame _ f).balanced none,
    fun callee args => (entries.call _ callee args).balanced none,
    fun name args anyValue => (below_callOperator entries name args anyValue).balanced none,
    fun p => (entries.invoke _ p).balanced none,
    fun type args => (below_instantiate entries type args).balanced none,
    fun f block binding => (below_protect entries f block binding).balanced none,
    fun f name body count => (below_makeClass entries f name body count).balanced none,
    fun iterator => (below_iterateNext entries iterator).balanced none,
    fun generator => (below_generatorNext entries generator).balanced none,
    fun iterable => (below_collectItems entries iterable).balanced none, ?_⟩
  intro m limit limited
  constructor
  · intro due α x held start moment mem
    exact reach_le_of_mem_history x limited start mem
  · intro r printer moment mem
    -- a request starts at depth zero
    exact reach_le_of_mem_history (m := m.startRequest printer) _ limited (Nat.zero_le limit) mem

/-- A program with a function that does nothing but call itself. -/
def endlessCalls : Code := assemble
  [.function "f" [] false [.get "f", .op (.call 0)], .define "f", .get "f", .op (.call 0)]

/-- When calls may be nested four deep, calls without end reach the limit and stay within it. -/
theorem endlessCalls_within_limit :
    let m := Machine.boot (.ofLimits { Limits.standard with maxRecursionDepth := some 4 }) .silent
    let history := (Request.run endlessCalls).history m .discarding
    (m.heap.depthLimit = some 4 ∧ m.depth ≤ 4) ∧ (∀ moment ∈ history, moment.reach ≤ 4) ∧
      (∃ moment ∈ history, moment.reach = 4) ∧
      (runFrameWith 9 (Frame.start endlessCalls m.globals)).Balanced ∧
      ∀ moment ∈ (runFrameWith 9 (Frame.start endlessCalls m.globals)).history Heap.collectionDue [] m,
        moment.reach ≤ 4 := by
  intro m history
  have limited : m.heap.depthLimit = some 4 := rfl
  have start : m.depth ≤ 4 := Nat.zero_le 4
  have reached : history.any (fun moment => moment.reach == 4) = true := by decide +kernel
  obtain ⟨frames, -, -, -, -, -, -, -, -, -, depth⟩ := books_balanced 9
  obtain ⟨runs, requests⟩ := depth m 4 limited
  refine ⟨⟨limited, start⟩, requests _ _, by simpa using reached, frames _, ?_⟩
  exact runs Heap.collectionDue _ [] start

end Engine

end ObjectMachine
