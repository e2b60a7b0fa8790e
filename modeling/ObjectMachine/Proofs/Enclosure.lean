import ObjectMachine.Proofs.Dispatches
import ObjectMachine.Proofs.Routine.Run
import ObjectMachine.Proofs.Stages
/-!
The engine keeps its frames anchored. A frame whose instruction may run other code is among the roots while it
does, which shelters its scopes; all other instructions collect no garbage. So when an instruction is done, the
frame that goes on is anchored as the one before, or in a scope that was just opened or closed. By induction on
the fuel all that the engine runs is secure.
-/
namespace ObjectMachine

/-- A frame that is handed out with a value is anchored. -/
def Completion.Anchored : Completion → Heap → Prop
  | done _, _ => True
  | yielded _ f, h => f.Anchored h

/-- A section that is handed out with a value is anchored. -/
def SectionEnd.Anchored : SectionEnd → Heap → Prop
  | ended _, _ => True
  | yielded _ f, h => f.Anchored h

/-- The frame behind a step is anchored. -/
def Step.Anchored : Step → Heap → Prop
  | next f, h | jump _ f, h | yielded _ f, h | suspended _ f, h => f.Anchored h

/-- A frame that is anchored, and all of whose nodes are roots. -/
structure Frame.Pinned (f : Frame) (m : Machine) : Prop where
  /-- It is anchored. -/
  anchored : f.Anchored m.heap
  /-- What it holds is among the roots. -/
  roots : ∀ n ∈ f.links, n ∈ m.roots.toList

namespace Frame

variable {f g : Frame} {h h' : Heap} {m m' : Machine}

theorem Anchored.of_setting (anchored : f.Anchored h) (same : g.setting = f.setting) : g.Anchored h := by
  obtain ⟨scopes, parked⟩ := Prod.mk.inj same
  obtain ⟨scope, baseScope⟩ := Prod.mk.inj scopes
  refine ⟨?_, parked ▸ anchored.2⟩
  rw [Activation.Anchored, scope, baseScope]
  exact anchored.1

theorem Anchored.of_sameAround (anchored : f.Anchored h) (same : h.SameAround h') : f.Anchored h' :=
  anchored.mono fun _ _ _ c => same.keeps c

theorem Anchored.base (anchored : f.Anchored h) : f.base.Anchored h := ⟨anchored.1, List.forall_mem_nil _⟩

theorem Pinned.shelters (pinned : f.Pinned m) (shelters : m.Shelters m') : f.Pinned m' := by
  refine ⟨?_, fun n mem => shelters.mem (pinned.roots n mem)⟩
  exact pinned.anchored.mono fun s chain mem c => shelters.chains s chain (pinned.roots _ mem) c

theorem Pinned.base (pinned : f.Pinned m) : f.base.Pinned m := by
  refine ⟨pinned.anchored.base, fun n mem => pinned.roots n ?_⟩
  rw [links, List.mem_append] at mem
  exact List.mem_append_left _ (mem.resolve_right List.not_mem_nil)

/-- The current scope of an anchored frame has a chain. -/
theorem Anchored.chain (anchored : f.Anchored h) : ∃ chain, h.Chain f.scope chain := by
  obtain ⟨chain, c, -⟩ := anchored.1
  exact ⟨chain, c⟩

/-- A frame that starts in a scope with a chain is anchored. -/
theorem anchored_start (code : Code) {s : ScopeRef} (c : ∃ chain, h.Chain s chain) :
    (Frame.start code s).Anchored h := by
  obtain ⟨chain, c⟩ := c
  exact ⟨.refl c, List.forall_mem_nil _⟩

end Frame

/-- The entry points of the engine are secure, if the function that is run and the frame that is run are
anchored. -/
structure Reentry.Secure (due : Schedule) (k : Reentry) : Prop where
  /-- Calls. -/
  call : ∀ callee args (m : Machine), m.heap.Rooted → (k.call callee args).Secure due (fun _ _ => True) m
  /-- Runs of functions. -/
  invoke : ∀ (p : Prepared) (m : Machine), m.heap.Rooted → p.function.Anchored m.heap →
    (k.invoke p).Secure due (fun _ _ => True) m
  /-- Runs of frames. -/
  runFrame : ∀ (f : Frame) (m : Machine), m.heap.Rooted → f.Anchored m.heap →
    (k.runFrame f).Secure due Completion.Anchored m
  /-- Iterations. -/
  drain : ∀ iterator taken (m : Machine), m.heap.Rooted →
    (k.drain iterator taken).Secure due (fun _ _ => True) m

namespace Heap

variable {h : Heap}

theorem payload?_of_prepare {callee : Ref} {args : List Ref} {p : Prepared}
    (accepted : h.prepare callee args = .ok (some p)) : h.payload? callee = some (.function p.function) := by
  simp only [prepare] at accepted
  split at accepted
  · rename_i f found
    split at accepted <;> cases accepted
    exact found
  · cases accepted

/-- The function that an operator runs is one of the heap. -/
theorem payload?_of_choose {name : String} {args types : List Ref} {p : Prepared}
    (chosen : h.choose name args types = .ok (.invoke p)) :
    ∃ r, h.payload? r = some (.function p.function) := by
  obtain ⟨method, accepted⟩ := exists_of_choose chosen
  exact ⟨method, payload?_of_prepare accepted⟩

end Heap

theorem Function.Anchored.bind {h : Heap} {f bound : Function} {this : Ref} (anchored : f.Anchored h)
    (binds : f.bind this = .ok bound) : bound.Anchored h := by
  simp only [Function.bind] at binds
  split at binds <;> cases binds
  exact anchored

namespace Engine

variable {α β : Type} {due : Schedule} {k : Reentry} {m : Machine}

namespace Secure

theorem of_gives {P : α → Heap → Prop} {Q : α → Prop} {x : Engine α} (secure : x.Secure due P m)
    (gives : x.Gives Q) : x.Secure due (fun a h => P a h ∧ Q a) m :=
  ⟨secure.stages, secure.rooted, fun a m' ran => ⟨secure.value a m' ran, gives due m a m' ran⟩⟩

theorem raise {Q : α → Heap → Prop} (rooted : m.heap.Rooted) (c : Cause) :
    (Engine.raise c : Engine α).Secure due Q m := by
  refine .act rooted trivial trivial fun a m' ran => ?_
  simp only [Op.perform] at ran
  cases ran

theorem fail {Q : α → Heap → Prop} (rooted : m.heap.Rooted) {d : Defect} (other : d ≠ .outermostScope) :
    (Engine.fail d : Engine α).Secure due Q m := by
  refine .throw rooted ?_
  cases d <;> first | rfl | exact (other rfl).elim

/-- A question is answered by the heap as it is, and goes on being so. -/
theorem ask (rooted : m.heap.Rooted) (f : Heap → α) : (Engine.ask f).Secure due (fun a h => a = f h) m := by
  refine .act rooted trivial trivial ?_
  rintro _ _ ⟨⟩
  rfl

/-- Data that is read is in the heap. -/
theorem payload (rooted : m.heap.Rooted) (r : Ref) :
    (Engine.payload r).Secure due (fun p h => h.payload? r = some p) m := by
  have reads : (Engine.load r).Secure due (fun o h => h.object? r = some o) m := by
    refine .act rooted trivial trivial fun o m' ran => ?_
    simp only [Op.perform] at ran
    split at ran <;> cases ran
    rename_i found
    exact found
  refine .bind reads fun o m' _ found rooted => .pure rooted ?_
  rw [Heap.payload?, found, Option.map_some]

/-- An operation that spares the scopes leaves the same ones around each. -/
theorem sparing {o : Op α} (rooted : m.heap.Rooted) (anchored : o.Anchored m.heap) (spares : o.SparesScopes) :
    (Engine.act o).Secure due (fun _ h => m.heap.SameAround h) m := by
  refine .act rooted anchored ?_ fun a m' ran => ?_
  · cases o with
    | collectIfDue nodes => exact spares.elim
    | _ => trivial
  · have revises := o.revises_perform due m spares
    rw [ran] at revises
    exact revises.around

theorem newScope {outer : ScopeRef} (rooted : m.heap.Rooted) (c : ∃ chain, m.heap.Chain outer chain) :
    (Engine.newScope outer).Secure due
      (fun s h => (∀ t chain, m.heap.Chain t chain → h.Chain t chain) ∧
        ∀ chain, m.heap.Chain outer chain → h.Chain s (s :: chain)) m := by
  refine .act rooted c trivial fun s m' ran => ?_
  simp only [Op.perform, Op.onHeap] at ran
  cases stored : m.heap.allocateScope ⟨.empty, some outer⟩ with
  | mk result h' =>
    rw [stored] at ran
    cases result with
    | error e => cases ran
    | ok t =>
      cases ran
      have stores := Heap.stores_of_allocateScope rooted.scopes stored
      exact ⟨fun _ _ c => c.of_stores stores, fun _ c => c.of_new stores⟩

/-! ### Routine computations -/

/-- Binding an anchored function makes one. -/
theorem bindFunction {f : Function} (rooted : m.heap.Rooted) (anchored : f.Anchored m.heap) (this : Ref) :
    (match f.bind this with
      | .ok bound => Engine.new (.function bound)
      | .error cause => Engine.raise cause).Secure due (fun _ _ => True) m := by
  split
  · rename_i bound binds
    exact .act rooted (anchored.bind binds) trivial fun _ _ _ => trivial
  · exact .raise rooted _

/-- A generator that is resumed at an anchored frame is put back with an anchored one. -/
theorem resume (hk : k.Secure due) (rooted : m.heap.Rooted) (generator : Ref) (name : String) {frame : Frame}
    {before : GeneratorState} (anchored : frame.Anchored m.heap) (same : before.Anchored m.heap) :
    (resume k generator name frame before).Secure due (fun _ _ => True) m := by
  have put {m : Machine} {state : GeneratorState} (rooted : m.heap.Rooted) (anchored : state.Anchored m.heap) :
      (change generator (.generator state)).Secure due (fun _ h => m.heap.SameAround h) m :=
    .sparing rooted anchored trivial
  refine .bind (put rooted trivial) fun _ m₁ _ around rooted => ?_
  have runs : (Engine.resuming generator name (k.runFrame frame)).Secure due
      (fun result h => (∀ e, result = .error e → h = m₁.heap) ∧ ∀ c, result = .ok (.ok c) → c.Anchored h) m₁ := by
    refine .resuming generator name rooted fun inner heap _ => ?_
    exact hk.runFrame frame inner (heap ▸ rooted) (heap ▸ anchored.of_sameAround around)
  refine .bind runs fun result m₂ _ ended rooted => ?_
  match result with
  | .error e =>
    -- a resumption that is refused changes nothing, so the frame is anchored where it is put back
    refine .bind (put rooted ?_) fun _ _ _ _ rooted => .throw rooted rfl
    rw [ended.1 e rfl]
    cases before with
    | fresh f => exact Frame.Anchored.of_sameAround same around
    | suspended f => exact Frame.Anchored.of_sameAround same around
    | _ => trivial
  | .ok (.ok (.yielded value frame)) =>
    refine .bind (.sparing rooted trivial trivial) fun _ m₃ _ around rooted => ?_
    refine .bind (put rooted ?_) fun _ _ _ _ rooted => .pure rooted trivial
    exact Frame.Anchored.of_sameAround (ended.2 _ rfl) around
  | .ok (.ok (.done value)) =>
    exact .bind (put rooted trivial) fun _ _ _ _ rooted => .raise rooted _
  | .ok (.error e) =>
    exact .bind (put rooted trivial) fun _ _ _ _ rooted => .throw rooted rfl

theorem generatorNext (hk : k.Secure due) (rooted : m.heap.Rooted) (generator : Ref) :
    (generatorNext k generator).Secure due (fun _ _ => True) m := by
  refine .bind (.payload rooted generator) fun p m' _ found rooted => ?_
  have anchored := rooted.data generator p found
  split
  · exact .raise rooted _
  · exact .raise rooted _
  · exact resume hk rooted _ _ anchored anchored
  · exact resume hk rooted _ _ anchored anchored
  · exact .fail rooted (by simp)

/-- A routine computation is secure if the entry points are. -/
theorem of_routine (hk : k.Secure due) {x : Engine α} (routine : Routine k x) (rooted : m.heap.Rooted) :
    x.Secure due (fun _ _ => True) m := by
  induction routine generalizing m with
  | give a => exact .give rooted trivial
  | throw e other => exact .throw rooted other
  | act routine => exact (sparing rooted (.of_routine routine) (.of_routine routine)).mono fun _ _ _ => trivial
  | andThen _ _ ihx ihf => exact (ihx rooted).andThen fun a _ _ _ rooted => ihf a rooted
  | keeping refs _ ih => exact .keepingObjects refs (ih rooted)
  | holding nodes _ ih => exact .holding nodes (ih rooted)
  | catching _ ih => exact .catching (ih rooted)
  | forgiving _ ih => exact .forgiving (ih rooted)
  | bindValue value this =>
    refine .bind (.payload rooted value) fun p m' _ found rooted => ?_
    split
    · exact bindFunction rooted (rooted.data value _ found) this
    · exact .pure rooted trivial
  | bindFunction function this =>
    have reads : (functionOf function).Secure due (fun f h => f.Anchored h) m := by
      refine .bind (.payload rooted function) fun p m' _ found rooted => ?_
      split
      · exact .pure rooted (rooted.data function _ found)
      · exact .bind (.payload rooted function) fun _ _ _ _ rooted => .fail rooted (by simp)
    exact .bind reads fun f _ _ anchored rooted => bindFunction rooted anchored this
  | dispatch name args other ih =>
    refine .keepingObjects args ?_
    have kept : (m.pushRoots (objectNodes args)).heap.Rooted := rooted
    split
    · exact .raise kept _
    refine .bind (.ask kept _) fun types _ _ _ rooted => ?_
    refine .bind (.ask rooted _) fun choice _ _ chosen rooted => ?_
    split
    · obtain ⟨r, found⟩ := Heap.payload?_of_choose chosen.symm
      exact .holding _ (hk.invoke _ _ rooted (rooted.data r _ found))
    · exact hk.call _ _ _ rooted
    · split
      · exact ih _ rfl rooted
      · exact .bind (.ask rooted _) fun names _ _ _ rooted => .throw rooted rfl
  | generatorNext generator => exact generatorNext hk rooted generator
  | call callee args => exact hk.call callee args _ rooted
  | drain iterator taken => exact hk.drain iterator taken _ rooted

end Secure

/-! ### Still computations -/

/-- A computation leaves the same scopes around each, however it ends. -/
def Still (due : Schedule) (x : Engine α) : Prop :=
  ∀ m : Machine, m.heap.SameAround (x.runUnder due m).machine.heap

namespace Still

theorem give (a : α) : (Engine.give a).Still due := fun m => .refl m.heap

theorem pure (a : α) : (Pure.pure a : Engine α).Still due := give a

theorem throw (e : Interrupt) : (Engine.throw e : Engine α).Still due := fun m => .refl m.heap

theorem act {o : Op α} (spares : o.SparesScopes) : (Engine.act o).Still due :=
  fun m => (o.revises_perform due m spares).around

theorem bind {x : Engine α} {f : α → Engine β} (first : x.Still due) (later : ∀ a, (f a).Still due) :
    (x >>= f).Still due := by
  intro m
  have before := first m
  rw [runUnder_bind]
  cases ran : x.runUnder due m with
  | ok a m' =>
    rw [ran] at before
    exact before.trans (later a m')
  | error e m' =>
    rw [ran] at before
    exact before

theorem keeping {x : Engine α} (nodes : List Node) (inner : x.Still due) :
    (Engine.keeping nodes x).Still due := by
  intro m
  rw [heap_runUnder_keeping]
  exact inner (m.pushRoots nodes)

theorem holding {x : Engine α} (nodes : List Node) (inner : x.Still due) :
    (Engine.holding nodes x).Still due :=
  inner

theorem catching {x : Engine α} (inner : x.Still due) : (Engine.catching x).Still due := by
  intro m
  rw [heap_runUnder_catching]
  exact inner m

theorem forgiving {x : Engine α} (inner : x.Still due) : (Engine.forgiving x).Still due := by
  intro m
  rw [heap_runUnder_forgiving]
  exact inner m

/-- Without fuel no generator is resumed. -/
theorem resume (generator : Ref) (name : String) (frame : Frame) (before : GeneratorState) :
    (resume (reentry 0) generator name frame before).Still due := by
  refine bind (act trivial) fun _ => bind (fun m => ?_) fun result => ?_
  · simp only [runUnder]
    cases entered : m.enter with
    | error e => exact .refl m.heap
    | ok inner =>
      -- the run fails at once, and what is left of it is the end of the generator
      rw [← Machine.heap_of_enter entered]
      exact fun _ => rfl
  · split
    · exact bind (act trivial) fun _ => throw _
    · exact bind (act trivial) fun _ => bind (act trivial) fun _ => pure _
    · exact bind (act trivial) fun _ => act trivial
    · exact bind (act trivial) fun _ => throw _

/-- Without fuel a routine computation collects no garbage. -/
theorem of_routine {x : Engine α} (routine : Routine (reentry 0) x) : x.Still due := by
  have payload (r : Ref) : (Engine.payload r).Still due := bind (act trivial) fun _ => pure _
  have binds (f : Function) (this : Ref) :
      (match f.bind this with
        | .ok bound => Engine.new (.function bound)
        | .error cause => Engine.raise cause).Still due := by
    split <;> exact act trivial
  induction routine with
  | give a => exact give a
  | throw e _ => exact throw e
  | act routine => exact act (.of_routine routine)
  | andThen _ _ ihx ihf => exact bind ihx ihf
  | keeping refs _ ih => exact keeping _ ih
  | holding nodes _ ih => exact holding nodes ih
  | catching _ ih => exact catching ih
  | forgiving _ ih => exact forgiving ih
  | bindValue value this =>
    refine bind (payload value) fun p => ?_
    split
    · exact binds _ this
    · exact pure _
  | bindFunction function this =>
    refine bind (bind (payload function) fun p => ?_) fun f => binds f this
    split
    · exact pure _
    · exact bind (payload function) fun _ => throw _
  | dispatch name args other ih =>
    refine keeping _ ?_
    split
    · exact act trivial
    refine bind (act trivial) fun types => bind (act trivial) fun choice => ?_
    split
    · exact holding _ (throw .outOfFuel)
    · exact throw .outOfFuel
    · split
      · exact ih _ rfl
      · exact bind (act trivial) fun _ => throw _
  | generatorNext generator =>
    refine bind (payload generator) fun p => ?_
    split
    · exact act trivial
    · exact act trivial
    · exact resume _ _ _ _
    · exact resume _ _ _ _
    · exact throw _
  | call callee args => exact throw .outOfFuel
  | drain iterator taken => exact throw .outOfFuel

end Still

/-- The entry points without fuel are secure. -/
theorem secure_reentry_zero (due : Schedule) : (reentry 0).Secure due :=
  ⟨fun _ _ _ rooted => .throw rooted rfl, fun _ _ rooted _ => .throw rooted rfl,
    fun _ _ rooted _ => .throw rooted rfl, fun _ _ _ rooted => .throw rooted rfl⟩

namespace Secure

/-- A routine computation that uses no entry point leaves the same scopes around each. -/
theorem of_still {x : Engine α} (routine : Routine (reentry 0) x) (rooted : m.heap.Rooted) :
    x.Secure due (fun _ h => m.heap.SameAround h) m := by
  have secure := of_routine (secure_reentry_zero due) routine rooted
  refine ⟨secure.stages, secure.rooted, fun a m' ran => ?_⟩
  have still : x.Still due := .of_routine routine
  have same := still m
  rw [ran] at same
  exact same

/-- A frame that is pinned stays anchored. -/
theorem sheltering {x : Engine α} {f : Frame} (pinned : f.Pinned m) (secure : x.Secure due (fun _ _ => True) m) :
    x.Secure due (fun _ h => f.Anchored h) m := by
  refine ⟨secure.stages, secure.rooted, fun a m' ran => ?_⟩
  have shelters := x.shelters_runUnder due secure.start.scopes
  rw [ran] at shelters
  exact (pinned.shelters shelters).anchored

end Secure

end Engine

end ObjectMachine
