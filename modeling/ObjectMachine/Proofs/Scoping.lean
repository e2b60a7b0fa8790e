import ObjectMachine.Assembler
import ObjectMachine.Proofs.Enclosure.Run
import ObjectMachine.Proofs.Generators
/-!
Scopes throughout a session. A machine starts with two scopes, one within the other. What a host does moves
no scope, and each request is secure, because the outer scopes are its first roots. So the heap is rooted at
every stage of every request: searches for names and scopes end, and every frame is in the scope in which it
started or in one that is nested in it.
-/
namespace ObjectMachine

/-! ### The start of a machine -/

theorem Payload.Anchored.of_isStatic {h : Heap} {p : Payload} (static : p.isStatic) : p.Anchored h := by
  cases p with
  | function f =>
    intro code s generator body
    obtain ⟨name, signature, body', bound⟩ := f
    cases body
    cases static
  | generator name state => cases static
  | _ => trivial

namespace Heap

variable {h h' : Heap}

/-- There are two scopes at the start, the outer one in the one that holds what is built in. Neither of them
binds a discard name. -/
theorem scopes_boot : boot.scopes.size = 2 ∧
    boot.around? .builtins = some none ∧ boot.around? .globals = some (some .builtins) ∧
    ∀ x ∈ boot.scopes.slots.toList, x.all fun s => s.vars.keys.all fun name => !isDiscardName name := by
  decide +kernel

theorem chain_boot : boot.Chain .globals [.globals, .builtins] :=
  .inner scopes_boot.2.2.1 (.outermost scopes_boot.2.1)

theorem rooted_boot : boot.Rooted where
  objects := wellFormed_boot
  scopes := orderly_boot.scopes
  chain s live := by
    obtain ⟨slot⟩ := s
    obtain ⟨scope, found⟩ := Option.isSome_iff_exists.mp live
    have bound : slot < 2 := scopes_boot.1 ▸ Arena.lt_size_of_get? found
    rcases (by omega : slot = 0 ∨ slot = 1) with rfl | rfl
    · exact ⟨_, .outermost scopes_boot.2.1⟩
    · exact ⟨_, chain_boot⟩
  named s scope found name discard := by
    simp only [scope?, Arena.get?, Option.join_eq_some_iff] at found
    have mem : some scope ∈ boot.scopes.slots.toList := by
      simpa using Array.mem_of_getElem? found
    refine Table.get?_eq_none_iff.mpr fun bound => ?_
    have usable := List.all_eq_true.mp (scopes_boot.2.2.2 (some scope) mem) name bound
    rw [discard] at usable
    cases usable
  data r p found := .of_isStatic (isStatic_boot found)

/-! ### What is relied on -/

/-- What the scopes of a heap can be relied on for. -/
structure WellScoped (h : Heap) : Prop where
  /-- Around every live scope are finitely many other live ones. -/
  chain : ∀ s, (h.scope? s).isSome →
    ∃ chain, h.Chain s chain ∧ chain.Nodup ∧ ∀ t ∈ chain, (h.scope? t).isSome
  /-- A search for a name ends, and finds what is looked up. -/
  names : ∀ s name, (h.scope? s).isSome →
    h.search (findBinding name) h.scopes.size (some s) = some (h.binding? s name)
  /-- A search for a scope ends, and finds those around. -/
  scopes : ∀ s base, (h.scope? s).isSome →
    h.search (findScope base) h.scopes.size (some s) = some (if h.isWithin s base then some () else none) ∧
      (h.isWithin s base ↔ h.Within s base)
  /-- No scope binds a discard name. -/
  named : ∀ s scope, h.scope? s = some scope → ∀ name, isDiscardName name → scope.vars.contains name = false

theorem Rooted.wellScoped (rooted : h.Rooted) : h.WellScoped where
  chain s live := by
    obtain ⟨chain, c⟩ := rooted.chain s live
    exact ⟨chain, c, c.nodup, c.live⟩
  names s name live := by
    obtain ⟨chain, c⟩ := rooted.chain s live
    exact (searches_end c).1 name
  scopes s base live := by
    obtain ⟨chain, c⟩ := rooted.chain s live
    refine ⟨(searches_end c).2 base, fun found => ?_, Within.isWithin⟩
    exact ⟨chain, c, (c.search_scope base c.length_le).2.mp found⟩
  named s scope found name discard := by
    rw [Table.contains, rooted.named s scope found name discard]
    rfl

/-! ### What a host does -/

/-- A change of variables leaves the heap rooted. -/
theorem Rooted.of_vars (rooted : h.Rooted) (revises : h.Revises h') (same : h'.objects = h.objects) :
    h'.Rooted := by
  refine rooted.of_revises revises (same ▸ rooted.objects) fun r p found => rooted.data r p ?_
  rw [← found]
  simp only [payload?, object?, same]

/-- Storing data leaves the heap rooted, and all scopes where they are. -/
theorem survivesStores_rooted (s : ScopeRef) :
    SurvivesStores fun h => h.Rooted ∧ ∃ chain, h.Chain s chain := by
  rintro h p storable ⟨rooted, chain, c⟩
  have revises : h.Revises (h.allocate (.ofPayload p none)).2 := .of_scopes_eq (h.scopes_allocate _)
  refine ⟨?_, chain, revises.around.keeps c⟩
  cases stored : h.allocate (.ofPayload p none) with
  | mk result h' =>
    cases result with
    | error e => exact eq_of_allocate_error stored ▸ rooted
    | ok r =>
      have stores := stores_of_allocate rooted.objects stored
      rw [stored] at revises
      refine rooted.of_revises revises stores.wellFormed fun r' q found => ?_
      have there := stores.object? r'
      split at there
      · rw [payload?, there] at found
        cases found
        cases p <;> trivial
      · exact rooted.data r' q ((payload?_congr there).symm.trans found)

end Heap

namespace Machine

variable {m : Machine}

/-- The heap is rooted, and the outer scope has a chain. -/
structure Grounded (m : Machine) : Prop where
  /-- The heap is rooted. -/
  rooted : m.heap.Rooted
  /-- The outer scope has a chain. -/
  chain : ∃ chain, m.heap.Chain m.globals chain

theorem grounded_boot (budget : Budget) (tracer : Tracer) : (boot budget tracer).Grounded := by
  have objects : (boot budget tracer).heap.objects = Heap.boot.objects := by
    rw [heap_boot, objects_withBudget]
  have scopes : (boot budget tracer).heap.scopes = Heap.boot.scopes := by
    rw [heap_boot, Heap.withBudget]
  have revises : Heap.boot.Revises (boot budget tracer).heap := .of_scopes_eq scopes
  exact ⟨Heap.rooted_boot.of_vars revises objects, _, revises.around.keeps Heap.chain_boot⟩

/-- A change of variables keeps the outer scope. -/
theorem Grounded.of_vars (grounded : m.Grounded) {h : Heap} (revises : m.heap.Revises h)
    (same : h.objects = m.heap.objects) : ({ m with heap := h } : Machine).Grounded := by
  obtain ⟨chain, c⟩ := grounded.chain
  exact ⟨grounded.rooted.of_vars revises same, chain, revises.around.keeps c⟩

theorem globals_serve (m : Machine) (printer : Printer) (r : Request) :
    (m.serve printer r).2.globals =
      ((r.computation m.globals).run (m.startRequest printer)).machine.globals := by
  simp only [serve, request]
  cases (r.computation m.globals).run (m.startRequest printer) with
  | ok a m' => rfl
  | error e m' =>
    simp only [noteFailure]
    split <;> rfl

/-- Everything that a host does leaves the heap rooted, and keeps the outer scope. -/
theorem Grounded.perform (grounded : m.Grounded) (a : HostAction) : (a.perform m).Grounded := by
  obtain ⟨rooted, chain, c⟩ := grounded
  cases a with
  | request printer r =>
    have secure := r.secure_computation Heap.collectionDue (m := m.startRequest printer) rooted ⟨chain, c⟩
    have shelters := (r.computation m.globals).shelters_runUnder Heap.collectionDue
      (m := m.startRequest printer) rooted.scopes
    refine ⟨?_, chain, ?_⟩
    · rw [HostAction.perform, heap_serve]
      exact secure.rooted
    · rw [HostAction.perform, heap_serve, globals_serve, Engine.run, shelters.globals]
      exact shelters.chains m.globals chain (List.mem_cons_of_mem _ List.mem_cons_self) c
  | store s =>
    have stored := Snapshot.invariant_store (Heap.survivesStores_rooted m.globals) s m.heap ⟨rooted, chain, c⟩
    rw [← heap_store] at stored
    have same : (m.store s).2.globals = m.globals := by
      simp only [store]
      split <;> rfl
    exact ⟨stored.1, same ▸ stored.2⟩
  | define name value =>
    exact Grounded.of_vars ⟨rooted, chain, c⟩ (.define m.heap m.globals name value)
      (m.heap.objects_define m.globals name value)
  | assign name value =>
    simp only [HostAction.perform, setGlobal, changeNamed]
    have revises := Heap.Revises.assign m.heap m.globals name value
    have same := m.heap.objects_assign m.globals name value
    cases changed : m.heap.assign? m.globals name value with
    | none => exact ⟨rooted, chain, c⟩
    | some heap =>
      rw [changed] at revises same
      exact Grounded.of_vars ⟨rooted, chain, c⟩ revises same
  | undefine name =>
    simp only [HostAction.perform, deleteGlobal, changeNamed]
    have revises := Heap.Revises.undefine m.heap m.globals name
    have same := m.heap.objects_undefine m.globals name
    cases changed : m.heap.undefine? m.globals name with
    | none => exact ⟨rooted, chain, c⟩
    | some heap =>
      rw [changed] at revises same
      exact Grounded.of_vars ⟨rooted, chain, c⟩ revises same
  | collect extra =>
    refine ⟨rooted.collect _, chain, c.collect (.root (List.mem_append_right _ ?_))⟩
    exact List.mem_cons_of_mem _ List.mem_cons_self

theorem Grounded.afterSession (grounded : m.Grounded) (actions : List HostAction) :
    (m.afterSession actions).Grounded := by
  induction actions generalizing m with
  | nil => exact grounded
  | cons a later ih => exact ih (grounded.perform a)

end Machine

namespace Engine

variable {α : Type} {due : Schedule} {x : Engine α} {m m' : Machine} {f : Frame} {h : Heap}

/-- The frames that a computation deals with, each with a heap of the time when it does. -/
inductive Involves (due : Schedule) (x : Engine α) (m : Machine) : Frame → Heap → Prop where
  /-- A frame an instruction of which is booked. -/
  | running {k : Reentry} {f : Frame} {m' m₁ : Machine} (runs : ⟨runInstruction k f, m'⟩ ∈ x.stages due m)
    (more : (f.code.at? f.ip).isSome) (booked : tick.runUnder due m' = .ok () m₁) : Involves due x m f m'.heap
  /-- A frame that is kept while an instruction of it runs other code. -/
  | pinned {β : Type} {y : Engine β} {f : Frame} {m' : Machine} (pins : ⟨keeping f.links y, m'⟩ ∈ x.stages due m)
    {stage : Stage} (inside : stage ∈ y.stages due (m'.pushRoots f.links)) :
    Involves due x m f stage.machine.heap
  /-- A frame that a generator holds, fresh or suspended. -/
  | held {stage : Stage} (mem : stage ∈ x.stages due m) {r : Ref} {name : String} {state : GeneratorState}
    (found : stage.machine.heap.payload? r = some (.generator name state)) {f : Frame}
    (holds : state = .fresh f ∨ state = .suspended f) : Involves due x m f stage.machine.heap
  /-- The frame of a section that waits in another frame. -/
  | parked {f : Frame} {h : Heap} (around : Involves due x m f h) {p : Parked} (waits : p ∈ f.parked) :
    Involves due x m ⟨p.body, []⟩ h

/-- A frame is anchored where an instruction of it is booked. -/
theorem Secure.anchored_of_booked {Q : α → Heap → Prop} (secure : x.Secure due Q m) {k : Reentry}
    (runs : ⟨Engine.runInstruction k f, m'⟩ ∈ x.stages due m) (more : (f.code.at? f.ip).isSome)
    {m₁ : Machine} (booked : Engine.tick.runUnder due m' = .ok () m₁) : f.Anchored m'.heap := by
  obtain ⟨instruction, found⟩ := Option.isSome_iff_exists.mp more
  -- garbage is collected while the frame is kept
  have collects : ⟨collectIfDue fun _ => f.links, m₁⟩ ∈ (Engine.runInstruction k f).stages due m' := by
    simp only [Engine.runInstruction, found]
    exact mem_stages_later booked (mem_stages_first (mem_stages_self ..))
  have proper := (secure.stages _ (mem_stages_trans runs collects)).proper
  have around := (Op.tick.revises_perform due m' trivial).around
  rw [show Op.tick.perform due m' = .ok () m₁ from booked] at around
  exact (f.anchored_iff.mpr proper).of_sameAround fun s => (around s).symm

/-- All frames that a secure computation deals with are anchored. -/
theorem Secure.anchored_of_involves {Q : α → Heap → Prop} (secure : x.Secure due Q m)
    (involves : x.Involves due m f h) : f.Anchored h := by
  induction involves with
  | running runs more booked => exact secure.anchored_of_booked runs more booked
  | @pinned β y f m' pins stage inside =>
    have kept := secure.stages _ pins
    have rooted : (m'.pushRoots f.links).heap.Rooted := kept.rooted
    have start : f.Pinned (m'.pushRoots f.links) := by
      refine ⟨f.anchored_iff.mpr kept.proper, fun n mem => ?_⟩
      rw [Machine.roots_pushRoots]
      exact List.mem_append_right _ mem
    exact (start.shelters (y.shelters_of_mem_stages rooted.scopes inside)).anchored
  | @held stage mem r name state found f holds =>
    have anchored := (secure.stages _ mem).rooted.data r _ found
    rcases holds with rfl | rfl
    · exact anchored
    · exact anchored
  | parked _ waits ih => exact ⟨ih.2 _ waits, List.forall_mem_nil _⟩

end Engine

namespace Machine

/-- In every state of a session the scopes around a live scope form a finite chain of live scopes, so that
searches end, and no scope binds a discard name. Every frame is in the scope in which it started or in one
nested in it, so no scope that a frame closes turns out to be the outermost one. This holds whenever garbage is
collected. -/
theorem scopes_well_founded (budget : Budget) (tracer : Tracer) (actions : List HostAction) (printer : Printer)
    (r : Request) (due : Schedule) :
    let m := (boot budget tracer).afterSession actions
    let x := r.computation m.globals
    let start := m.startRequest printer
    m.heap.WellScoped ∧ (m.heap.scope? m.globals).isSome ∧
      (∀ stage ∈ x.stages due start, stage.machine.heap.WellScoped) ∧
      (∀ f h, x.Involves due start f h → h.Within f.scope f.baseScope) ∧
      ∀ (α : Type) (sites : List Site) (m' : Machine),
        ⟨(.throw (.defect .outermostScope sites) : Engine α), m'⟩ ∉ x.stages due start := by
  intro m x start
  have grounded : m.Grounded := (grounded_boot budget tracer).afterSession actions
  have secure : x.Secure due (fun _ _ => True) start :=
    r.secure_computation due (m := start) grounded.rooted grounded.chain
  refine ⟨grounded.rooted.wellScoped, ?_, fun stage mem => ?_, fun f h involves => ?_, fun α sites m' mem => ?_⟩
  · obtain ⟨chain, c⟩ := grounded.chain
    exact c.live _ c.mem_self
  · exact (secure.stages stage mem).rooted.wellScoped
  · exact (secure.anchored_of_involves involves).1
  · have proper : (Interrupt.defect .outermostScope sites).isOutermost = false := (secure.stages _ mem).proper
    cases proper

/-- A scope in a slot that was used before is nested in one of a later slot, whose function is called again. -/
theorem scopes_well_founded_recycled :
    let makes := assemble [.function "f" [] false [], .define "f", .get "f", .op (.call 0), .op (.pop 1),
      .function "g" [] false [.function "h" [] false [.function "i" [] false [], .op .returnValue],
        .op .returnValue],
      .define "g", .get "g", .op (.call 0), .define "h"]
    let calls := assemble [.get "h", .op (.call 0), .define "i"]
    let actions := [.request .discarding (.run makes), .collect [], .request .discarding (.run calls)]
    let h := ((boot .unlimited .silent).afterSession actions).heap
    h.around? ⟨2⟩ = some (some ⟨3⟩) ∧ ∃ chain, h.Chain ⟨2⟩ chain ∧ chain.Nodup ∧ ⟨3⟩ ∈ chain := by
  intro makes calls actions h
  have around : h.around? ⟨2⟩ = some (some ⟨3⟩) := by decide +kernel
  have inOrder : h.WellScoped :=
    (scopes_well_founded .unlimited .silent actions .discarding (.run makes) Heap.collectionDue).1
  clear_value h
  obtain ⟨scope, found, -⟩ := Heap.around?_eq_some_iff.mp around
  obtain ⟨chain, c, nodup, -⟩ := inOrder.chain ⟨2⟩ (Option.isSome_iff_exists.mpr ⟨scope, found⟩)
  refine ⟨around, chain, c, nodup, ?_⟩
  cases c with
  | outermost last => cases around.symm.trans last
  | inner next rest =>
    cases around.symm.trans next
    exact List.mem_cons_of_mem _ rest.mem_self

end Machine

end ObjectMachine
