import ObjectMachine.Proofs.Chains
import ObjectMachine.Proofs.Routine
/-!
Anchors. A run of code is anchored if its current scope is the one it started in or is nested in it. Every
operation keeps the chains of all scopes, and the data that is anchored in them, except that a collection
keeps only what it reaches; and what it reaches includes every scope that anchored data refers to. So a heap
stays rooted: each of its scopes has a chain, and all of its functions and generators are anchored.
-/
namespace ObjectMachine

/-! ### Anchored data -/

variable {h h' : Heap}

/-- The current scope of a run is the one in which the run started, or is nested in it. -/
def Activation.Anchored (h : Heap) (a : Activation) : Prop := h.Within a.scope a.baseScope

/-- The run of a frame is anchored, and so are the sections that wait in it. -/
def Frame.Anchored (h : Heap) (f : Frame) : Prop :=
  f.toActivation.Anchored h ∧ ∀ p ∈ f.parked, p.body.Anchored h

/-- The scope in which code was defined has a chain. -/
def Function.Anchored (h : Heap) (f : Function) : Prop :=
  ∀ code s generator, f.body = .code code s generator → ∃ chain, h.Chain s chain

/-- The frame that a generator holds is anchored. -/
def GeneratorState.Anchored (h : Heap) : GeneratorState → Prop
  | fresh f | suspended f => f.Anchored h
  | running | finished => True

/-- The scopes that data refers to are in order. -/
def Payload.Anchored (h : Heap) : Payload → Prop
  | function f => f.Anchored h
  | generator _ state => state.Anchored h
  | _ => True

/-- The scope that a node is, if it is one. -/
def Node.scope? : Node → Option ScopeRef
  | scope s => some s
  | object _ => none

/-- Of scopes that are listed in pairs, each first one is the second one or is nested in it. -/
def Heap.Paired (h : Heap) : List ScopeRef → Prop
  | s :: base :: later => h.Within s base ∧ h.Paired later
  | _ => True

namespace Node

theorem filterMap_scope?_objectNodes (refs : List Ref) : (objectNodes refs).filterMap scope? = [] := by
  rw [objectNodes, List.filterMap_map]
  exact List.filterMap_none _

theorem filterMap_scope?_of_objects {nodes : List Node} (objects : ∀ n ∈ nodes, ∃ r, n = .object r) :
    nodes.filterMap scope? = [] := by
  rw [List.filterMap_eq_nil_iff]
  intro n mem
  obtain ⟨r, rfl⟩ := objects n mem
  rfl

end Node

theorem ErrorBody.RefersTo.object {e : ErrorBody} {n : Node} (refers : e.RefersTo n) : ∃ r, n = .object r := by
  cases refers <;> exact ⟨_, rfl⟩

/-- What is pending refers to no scope. -/
theorem Pending.filterMap_scope?_links (p : Pending) : p.links.filterMap Node.scope? = [] := by
  refine Node.filterMap_scope?_of_objects fun n mem => ?_
  cases Pending.mem_links_iff.mp mem with
  | value r => exact ⟨r, rfl⟩
  | error refers => exact refers.object
  | cause _ refers => exact refers.object

theorem Activation.filterMap_scope?_links (a : Activation) :
    a.links.filterMap Node.scope? = [a.scope, a.baseScope] := by
  simp only [links, List.filterMap_append, Node.filterMap_scope?_objectNodes, List.nil_append]
  rfl

/-- The scopes among the nodes that a frame holds tell whether it is anchored. -/
theorem Frame.anchored_iff (f : Frame) : f.Anchored h ↔ h.Paired (f.links.filterMap Node.scope?) := by
  have waiting (parked : List Parked) :
      (∀ p ∈ parked, p.body.Anchored h) ↔
        h.Paired ((parked.flatMap fun p => p.body.links ++ p.pending.links).filterMap Node.scope?) := by
    induction parked with
    | nil => exact iff_of_true (List.forall_mem_nil _) trivial
    | cons p later ih =>
      rw [List.forall_mem_cons, ih, List.flatMap_cons, List.filterMap_append, List.filterMap_append,
        Activation.filterMap_scope?_links, Pending.filterMap_scope?_links]
      rfl
  rw [Frame.Anchored, waiting, links, List.filterMap_append, Activation.filterMap_scope?_links]
  rfl

theorem Activation.Anchored.mono {a : Activation} (anchored : a.Anchored h)
    (keeps : ∀ s chain, .scope s ∈ a.links → h.Chain s chain → h'.Chain s chain) : a.Anchored h' := by
  obtain ⟨chain, c, mem⟩ := anchored
  exact ⟨chain, keeps _ _ (Activation.mem_links_iff.mpr .scope) c, mem⟩

theorem Frame.Anchored.mono {f : Frame} (anchored : f.Anchored h)
    (keeps : ∀ s chain, .scope s ∈ f.links → h.Chain s chain → h'.Chain s chain) : f.Anchored h' := by
  have own := anchored.1.mono fun s chain mem =>
    keeps s chain (Frame.mem_links_iff.mpr (.own (Activation.mem_links_iff.mp mem)))
  refine ⟨own, fun p waits => ?_⟩
  refine (anchored.2 p waits).mono fun s chain mem => ?_
  exact keeps s chain (Frame.mem_links_iff.mpr (.waiting waits (Activation.mem_links_iff.mp mem)))

theorem Payload.Anchored.mono {p : Payload} (anchored : p.Anchored h)
    (keeps : ∀ s chain, .scope s ∈ p.links → h.Chain s chain → h'.Chain s chain) : p.Anchored h' := by
  cases p with
  | function f =>
    intro code s generator body
    obtain ⟨chain, c⟩ := anchored code s generator body
    exact ⟨chain, keeps s chain (Function.mem_links_iff.mpr (.captured body)) c⟩
  | generator name state =>
    cases state with
    | fresh f => exact Frame.Anchored.mono anchored keeps
    | suspended f => exact Frame.Anchored.mono anchored keeps
    | _ => trivial
  | _ => trivial

theorem Payload.Anchored.of_isCode {p : Payload} (plain : p.isCode = false) : p.Anchored h := by
  cases p with
  | function f => cases plain
  | generator name state => cases plain
  | _ => trivial

theorem Payload.Anchored.onPayload {p : Payload} (anchored : p.Anchored h) {c : Change}
    (state : ∀ state, c = .generator state → state.Anchored h) : (c.onPayload p).Anchored h := by
  cases c with
  | generator new =>
    cases p with
    | generator name before => exact state new rfl
    | _ => exact anchored
  | _ => cases p <;> exact anchored

/-! ### Rooted heaps -/

namespace Heap

variable {s t : ScopeRef} {chain : List ScopeRef} {roots : List Node}

/-- Every scope has a chain, no scope binds a discard name, and all data is anchored. -/
structure Rooted (h : Heap) : Prop where
  /-- The slots of objects are in order. -/
  objects : h.objects.WellFormed
  /-- The slots of scopes are in order. -/
  scopes : h.scopes.WellFormed
  /-- Every live scope has a chain. -/
  chain : ∀ s, (h.scope? s).isSome → ∃ chain, h.Chain s chain
  /-- No discard name is bound. -/
  named : ∀ s scope, h.scope? s = some scope → ∀ name, isDiscardName name → scope.vars.get? name = none
  /-- Functions and generators are anchored. -/
  data : ∀ r p, h.payload? r = some p → p.Anchored h

/-- Around all scopes are the same ones. -/
def SameAround (h h' : Heap) : Prop := ∀ s, h'.around? s = h.around? s

/-- All scopes stay where they are, and none of them binds a discard name that did not before. -/
structure Revises (h h' : Heap) : Prop where
  /-- The scopes around are the same. -/
  around : h.SameAround h'
  /-- No discard name is bound. -/
  named : ∀ s after, h'.scope? s = some after → ∃ before, h.scope? s = some before ∧
    ∀ name, isDiscardName name → before.vars.get? name = none → after.vars.get? name = none
  /-- The slots stay in order. -/
  wellFormed : h.scopes.WellFormed → h'.scopes.WellFormed

theorem scope?_modifyScope (h : Heap) (s : ScopeRef) (f : Scope → Scope) (t : ScopeRef) :
    (h.modifyScope s f).scope? t = if s = t then (h.scope? t).map f else h.scope? t := by
  obtain ⟨slot⟩ := s
  obtain ⟨slot'⟩ := t
  simp only [modifyScope, scope?, Arena.get?_modify, ScopeRef.mk.injEq]

/-- A change of variables leaves all scopes where they are. -/
theorem sameAround_modifyScope (h : Heap) (s : ScopeRef) {f : Scope → Scope}
    (outer : ∀ scope, (f scope).outer = scope.outer) : h.SameAround (h.modifyScope s f) := by
  intro t
  simp only [around?, scope?_modifyScope]
  split
  · rw [Option.map_map]
    exact congrArg (fun g => (h.scope? t).map g) (funext outer)
  · rfl

namespace Revises

theorem of_scopes_eq (same : h'.scopes = h.scopes) : h.Revises h' := by
  have scope (s : ScopeRef) : h'.scope? s = h.scope? s := by simp only [scope?, same]
  refine ⟨fun s => ?_, fun s after found => ?_, fun w => same ▸ w⟩
  · simp only [around?, scope]
  · exact ⟨after, (scope s).symm.trans found, fun _ _ unbound => unbound⟩

/-- A change of variables revises a heap, if it binds no discard name. -/
theorem modifyScope (h : Heap) (s : ScopeRef) {f : Scope → Scope} (outer : ∀ scope, (f scope).outer = scope.outer)
    (named : ∀ scope name, isDiscardName name → scope.vars.get? name = none → (f scope).vars.get? name = none) :
    h.Revises (h.modifyScope s f) := by
  refine ⟨sameAround_modifyScope h s outer, fun t after found => ?_, fun w => w.modify _ _⟩
  rw [scope?_modifyScope] at found
  split at found
  · obtain ⟨before, there, rfl⟩ := Option.map_eq_some_iff.mp found
    exact ⟨before, there, named before⟩
  · exact ⟨after, found, fun _ _ unbound => unbound⟩

theorem insert (h : Heap) (s : ScopeRef) {name : String} (value : Ref) (usable : isDiscardName name = false) :
    h.Revises (h.modifyScope s fun scope => { scope with vars := scope.vars.insert name value }) := by
  refine modifyScope h s (fun _ => rfl) fun scope other discard unbound => ?_
  rw [Table.get?_insert]
  split
  · rename_i same
    rw [same, discard] at usable
    cases usable
  · exact unbound

theorem define (h : Heap) (s : ScopeRef) (name : String) (value : Ref) : h.Revises (h.define s name value) := by
  simp only [Heap.define]
  cases usable : isDiscardName name with
  | true => exact of_scopes_eq rfl
  | false => exact insert h s value usable

theorem assign (h : Heap) (s : ScopeRef) (name : String) (value : Ref) :
    h.Revises ((h.assign? s name value).getD h) := by
  simp only [assign?]
  cases usable : isDiscardName name with
  | true => exact of_scopes_eq rfl
  | false =>
    simp only [Bool.false_eq_true, if_false]
    split
    · exact insert h _ value usable
    · exact of_scopes_eq rfl

theorem undefine (h : Heap) (s : ScopeRef) (name : String) : h.Revises ((h.undefine? s name).getD h) := by
  simp only [undefine?]
  split
  · exact of_scopes_eq rfl
  split
  · refine modifyScope h s (fun _ => rfl) fun scope other discard unbound => ?_
    rw [Table.get?_erase, unbound, ite_self]
  · exact of_scopes_eq rfl

end Revises

namespace SameAround

theorem refl (h : Heap) : h.SameAround h := fun _ => rfl

theorem trans {h'' : Heap} (first : h.SameAround h') (later : h'.SameAround h'') : h.SameAround h'' :=
  fun s => (later s).trans (first s)

theorem keeps (same : h.SameAround h') (c : h.Chain s chain) : h'.Chain s chain := c.of_around fun t _ => same t

end SameAround

/-- A new scope keeps all chains. -/
theorem Chain.of_stores {new : Scope} (stores : h.StoresScope t new h') (c : h.Chain s chain) :
    h'.Chain s chain := by
  refine c.of_around fun u mem => ?_
  have other : u ≠ t := by
    rintro rfl
    have live := c.live u mem
    rw [stores.vacant] at live
    cases live
  rw [around?, stores.scope?, if_neg other]
  rfl

/-- A new scope has the chain of the one around it. -/
theorem Chain.of_new {vars : Table String Ref} (stores : h.StoresScope t ⟨vars, some s⟩ h') (c : h.Chain s chain) :
    h'.Chain t (t :: chain) := by
  refine .inner ?_ (c.of_stores stores)
  rw [around?, stores.scope?, if_pos rfl]
  rfl

/-- A collection keeps the chains of the scopes that it reaches. -/
theorem Chain.collect (c : h.Chain s chain) (reached : h.Reaches roots (.scope s)) :
    (h.collect roots).2.Chain s chain := by
  have kept {t : ScopeRef} {scope : Scope} (reached : h.Reaches roots (.scope t)) (found : h.scope? t = some scope) :
      (h.collect roots).2.scope? t = some scope := by
    have occupied : (h.collect roots).2.Occupied (.scope t) :=
      occupied_collect_iff.mpr ⟨Option.isSome_iff_exists.mpr ⟨scope, found⟩, reached⟩
    obtain ⟨scope', left⟩ := Option.isSome_iff_exists.mp occupied
    cases found.symm.trans (scope?_of_collect left)
    exact left
  induction c with
  | outermost last =>
    obtain ⟨scope, found, outer⟩ := around?_eq_some_iff.mp last
    exact .outermost (around?_eq_some_iff.mpr ⟨scope, kept reached found, outer⟩)
  | inner next rest ih =>
    obtain ⟨scope, found, outer⟩ := around?_eq_some_iff.mp next
    refine .inner (around?_eq_some_iff.mpr ⟨scope, kept reached found, outer⟩) (ih ?_)
    exact .handle reached (.scope found (.outer outer))

/-- Where data comes from that a rooted heap holds after an operation: it is anchored. -/
theorem Rooted.anchored_of_origin {α : Type} {o : Op α} {r : Ref} {p : Payload} (rooted : h.Rooted)
    (origin : o.Origin h r p) (made : o.Makes p → p.Anchored h)
    (state : ∀ r state, o.change? = some (r, .generator state) → state.Anchored h) : p.Anchored h := by
  cases origin with
  | kept found => exact rooted.data r p found
  | changed c q changes found became =>
    subst became
    exact (rooted.data r q found).onPayload fun new same => state r new (same ▸ changes)
  | made makes => exact made makes

namespace Rooted

theorem of_revises (rooted : h.Rooted) (revises : h.Revises h') (objects : h'.objects.WellFormed)
    (data : ∀ r p, h'.payload? r = some p → p.Anchored h) : h'.Rooted := by
  refine ⟨objects, revises.wellFormed rooted.scopes, fun s live => ?_, fun s scope found name discard => ?_,
    fun r p found => ?_⟩
  · obtain ⟨after, found⟩ := Option.isSome_iff_exists.mp live
    obtain ⟨before, there, -⟩ := revises.named s after found
    obtain ⟨chain, c⟩ := rooted.chain s (Option.isSome_iff_exists.mpr ⟨before, there⟩)
    exact ⟨chain, revises.around.keeps c⟩
  · obtain ⟨before, there, unbound⟩ := revises.named s scope found
    exact unbound name discard (rooted.named s before there name discard)
  · exact (data r p found).mono fun s chain _ c => revises.around.keeps c

/-- A heap is still rooted with a new scope within one that has a chain. -/
theorem of_new (rooted : h.Rooted) (stores : h.StoresScope t ⟨.empty, some s⟩ h') (c : h.Chain s chain) :
    h'.Rooted := by
  refine ⟨stores.objects ▸ rooted.objects, stores.wellFormed, fun u live => ?_, fun u scope found name discard => ?_,
    fun r p found => ?_⟩
  · by_cases same : u = t
    · subst same
      exact ⟨_, c.of_new stores⟩
    · rw [stores.scope?, if_neg same] at live
      obtain ⟨chain, c⟩ := rooted.chain u live
      exact ⟨chain, c.of_stores stores⟩
  · rw [stores.scope?] at found
    split at found
    · cases found
      rfl
    · exact rooted.named u scope found name discard
  · have there : h.payload? r = some p := by
      rw [← found]
      simp only [payload?, object?, stores.objects]
    exact (rooted.data r p there).mono fun s chain _ c => c.of_stores stores

/-- A collection leaves a rooted heap, whatever the roots are. -/
theorem collect (rooted : h.Rooted) (roots : List Node) : (h.collect roots).2.Rooted := by
  refine ⟨wellFormed_collect rooted.objects roots, rooted.scopes.release_doomed _, fun s live => ?_,
    fun s scope found => rooted.named s scope (scope?_of_collect found), fun r p found => ?_⟩
  · obtain ⟨occupied, reached⟩ := occupied_collect_iff.mp (show (h.collect roots).2.Occupied (.scope s) from live)
    obtain ⟨chain, c⟩ := rooted.chain s occupied
    exact ⟨chain, c.collect reached⟩
  · -- what data refers to is reached from the object that holds it
    obtain ⟨o, left, rfl⟩ := Option.map_eq_some_iff.mp found
    have there := object?_of_collect left
    have reached := (occupied_collect_iff.mp
      (show (h.collect roots).2.Occupied (.object r) from Option.isSome_iff_exists.mpr ⟨o, left⟩)).2
    have anchored := rooted.data r o.payload (Option.map_eq_some_iff.mpr ⟨o, there, rfl⟩)
    refine anchored.mono fun s chain mem c => c.collect (.handle reached ?_)
    exact .object there (.payload (Payload.mem_links_iff.mp mem))

/-- The end of a generator leaves a rooted heap. -/
theorem finish (rooted : h.Rooted) (generator : Ref) :
    (h.modify generator (Change.generator .finished).apply).Rooted := by
  refine rooted.of_revises (.of_scopes_eq rfl) (rooted.objects.modify _ _) fun r p found => ?_
  rw [payload?_modify] at found
  split at found
  · obtain ⟨q, there, rfl⟩ := Option.map_eq_some_iff.mp found
    refine (rooted.data r q there).onPayload fun state same => ?_
    cases same
    trivial
  · exact rooted.data r p found

end Rooted

end Heap

/-! ### Operations -/

namespace Op

variable {α : Type} {due : Schedule} {m : Machine}

/-- An operation neither opens a scope nor collects garbage. -/
def SparesScopes : Op α → Prop
  | openScope _ | collectIfDue _ => False
  | _ => True

/-- What an operation stores is anchored, and the scope within which it opens one has a chain. -/
def Anchored (h : Heap) : Op α → Prop
  | store o => o.payload.Anchored h
  | change _ (.generator state) => state.Anchored h
  | openScope outer => ∃ chain, h.Chain outer chain
  | _ => True

theorem SparesScopes.of_routine {o : Op α} (routine : o.Routine) : o.SparesScopes := by
  cases o with
  | openScope outer => exact routine.elim
  | collectIfDue nodes => exact routine.elim
  | _ => trivial

theorem Anchored.of_routine {h : Heap} {o : Op α} (routine : o.Routine) : o.Anchored h := by
  cases o with
  | store o => exact Payload.Anchored.of_isCode routine
  | change r c =>
    cases c with
    | generator state => exact routine.elim
    | _ => trivial
  | openScope outer => exact routine.elim
  | _ => trivial

theorem revises_perform (o : Op α) (due : Schedule) (m : Machine) (spares : o.SparesScopes) :
    m.heap.Revises (o.perform due m).machine.heap := by
  cases o with
  | load r =>
    simp only [perform]
    split <;> exact .of_scopes_eq rfl
  | loadScope s =>
    simp only [perform]
    split <;> exact .of_scopes_eq rfl
  | store o =>
    rw [perform, heap_onHeap]
    exact .of_scopes_eq (m.heap.scopes_allocate o)
  | storeType name parents =>
    rw [perform, heap_onHeap]
    exact .of_scopes_eq (m.heap.scopes_allocateType name parents)
  | change r c =>
    simp only [perform]
    split <;> exact .of_scopes_eq rfl
  | define s name value => exact .define m.heap s name value
  | assign s name value => exact .assign m.heap s name value
  | undefine s name => exact .undefine m.heap s name
  | tick =>
    rw [perform, heap_onHeap]
    exact .of_scopes_eq rfl
  | print s =>
    simp only [perform, printTo]
    split <;> exact .of_scopes_eq rfl
  | openScope outer => exact spares.elim
  | collectIfDue nodes => exact spares.elim
  | _ => exact .of_scopes_eq rfl

/-- A rooted heap stays rooted. -/
theorem rooted_perform (o : Op α) (rooted : m.heap.Rooted) (anchored : o.Anchored m.heap) :
    (o.perform due m).machine.heap.Rooted := by
  obtain ⟨objects, origin⟩ := o.origin_perform due rooted.objects
  have made (p : Payload) (makes : o.Makes p) : p.Anchored m.heap := by
    cases o with
    | store o => exact (show p = o.payload from makes) ▸ anchored
    | storeType name parents => cases p <;> trivial
    | _ => exact makes.elim
  have state (r : Ref) (state : GeneratorState) (changes : o.change? = some (r, .generator state)) :
      state.Anchored m.heap := by
    cases o with
    | change r' c =>
      cases changes
      exact anchored
    | _ => cases changes
  have data (r : Ref) (p : Payload) (found : (o.perform due m).machine.heap.payload? r = some p) :
      p.Anchored m.heap :=
    rooted.anchored_of_origin (origin r p found) (made p) state
  by_cases spares : o.SparesScopes
  · exact rooted.of_revises (o.revises_perform due m spares) objects data
  · cases o with
    | openScope outer =>
      obtain ⟨chain, c⟩ := anchored
      rw [perform, heap_onHeap]
      cases stored : m.heap.allocateScope ⟨.empty, some outer⟩ with
      | mk result h' =>
        cases result with
        | error e => exact Heap.eq_of_allocateScope_error stored ▸ rooted
        | ok s => exact rooted.of_new (Heap.stores_of_allocateScope rooted.scopes stored) c
    | collectIfDue nodes =>
      simp only [perform]
      split
      · exact rooted.collect _
      · exact rooted
    | _ => exact (spares trivial).elim

end Op

end ObjectMachine
