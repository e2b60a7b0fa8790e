import ObjectMachine.Proofs.Scoping
/-!
Variables, told without handles. The scopes of a heap share a tree, so one assignment is seen from many of them.
Nested environments say which: from every scope a way leads outward, and a name is looked up along it. Whatever is
read, defined, assigned and removed on the scopes of a heap, the answers and the heap are those that the nested
environments give, and there a scope sees a change just if its own lookup led to the binding that was changed.
-/
namespace ObjectMachine

/-- Nested environments: the scopes on the way outward from each scope, itself first, and what each scope binds. -/
structure Nest where
  /-- The way outward. -/
  outward : ScopeRef → List ScopeRef
  /-- What a scope binds. -/
  binds : ScopeRef → String → Option Ref
  /-- A way starts at its scope. -/
  first : ∀ {s t rest}, outward s = t :: rest → t = s
  /-- The way from a scope on a way is the rest of it. -/
  onward : ∀ {s before t after}, outward s = before ++ t :: after → outward t = t :: after

namespace Nest

variable {N : Nest} {s t u : ScopeRef} {x y : String} {v : Ref} {before after : List ScopeRef}

/-- The innermost scope on the way outward that binds a name. -/
def owner? (N : Nest) (s : ScopeRef) (x : String) : Option ScopeRef := (N.outward s).find? fun t => (N.binds t x).isSome

/-- The value of the innermost binding on the way outward. -/
def lookup? (N : Nest) (s : ScopeRef) (x : String) : Option Ref := (N.outward s).findSome? fun t => N.binds t x

/-- What is seen of a name from behind a scope. -/
def behind? (N : Nest) (s : ScopeRef) (x : String) : Option Ref :=
  (N.outward s).tail.findSome? fun t => N.binds t x

/-- The environments when one name is bound anew in one scope, or not bound there any more. -/
def put (N : Nest) (s : ScopeRef) (x : String) (content : Option Ref) : Nest :=
  { N with binds := fun t y => if t = s ∧ y = x then content else N.binds t y }

/-- A lookup leads as far as to a scope. -/
def Leads (N : Nest) (s t : ScopeRef) (x : String) : Prop :=
  ∃ before after, N.outward s = before ++ t :: after ∧ ∀ b ∈ before, N.binds b x = none

/-- A scope is not on the way behind itself. -/
theorem not_mem_behind (way : N.outward s = before ++ t :: after) : t ∉ after := by
  intro again
  obtain ⟨between, rest, rfl⟩ := List.append_of_mem again
  have longer := N.onward way
  have further : N.outward s = (before ++ t :: between) ++ t :: rest := by rw [way]; simp
  have shorter := N.onward further
  have length := congrArg List.length (longer.symm.trans shorter)
  simp only [List.length_cons, List.length_append] at length
  omega

/-- A scope is not on the way to itself. -/
theorem not_mem_before (way : N.outward s = before ++ t :: after) : t ∉ before := by
  intro already
  obtain ⟨rest, between, rfl⟩ := List.append_of_mem already
  rw [List.append_assoc] at way
  exact N.not_mem_behind way (List.mem_append_right _ List.mem_cons_self)

theorem tail_outward (way : N.outward s = before ++ t :: after) : (N.outward t).tail = after := by
  rw [N.onward way]
  rfl

theorem owner?_eq_some_iff : N.owner? s x = some t ↔ N.Leads s t x ∧ (N.binds t x).isSome := by
  rw [owner?, List.find?_eq_some_iff_append]
  simp only [Leads, Bool.not_eq_true', Option.isSome_eq_false_iff, Option.isNone_iff_eq_none]
  constructor
  · rintro ⟨bound, before, after, way, free⟩
    exact ⟨⟨before, after, way, free⟩, bound⟩
  · rintro ⟨⟨before, after, way, free⟩, bound⟩
    exact ⟨bound, before, after, way, free⟩

/-- What is looked up is what the owner binds. -/
theorem lookup?_eq (N : Nest) (s : ScopeRef) (x : String) :
    N.lookup? s x = (N.owner? s x).bind fun t => N.binds t x := by
  rw [lookup?, owner?]
  induction N.outward s with
  | nil => rfl
  | cons t rest ih =>
    cases bound : N.binds t x with
    | none => simpa [bound] using ih
    | some v => simp [bound]

/-- Environments that bind a name alike along a way find the same there. -/
theorem findSome?_congr {M : Nest} {way : List ScopeRef} (alike : ∀ b ∈ way, M.binds b x = N.binds b x) :
    (way.findSome? fun b => M.binds b x) = way.findSome? fun b => N.binds b x := by
  induction way with
  | nil => rfl
  | cons b rest ih =>
    obtain ⟨here, there⟩ := List.forall_mem_cons.mp alike
    rw [List.findSome?_cons, List.findSome?_cons, here, ih there]

theorem findSome?_of_unbound (free : ∀ b ∈ before, N.binds b x = none) (after : List ScopeRef) :
    (before ++ after).findSome? (fun t => N.binds t x) = after.findSome? fun t => N.binds t x := by
  rw [List.findSome?_append, List.findSome?_eq_none_iff.mpr free, Option.none_or]

theorem put_of_ne (content : Option Ref) (other : ¬ (u = t ∧ y = x)) : (N.put t x content).binds u y = N.binds u y :=
  if_neg other

theorem put_self (content : Option Ref) : (N.put t x content).binds t x = content := if_pos ⟨rfl, rfl⟩

/-- A lookup that leads to the scope of a change finds what the name is bound to now, or else goes on behind it. -/
theorem lookup?_put_of_leads (leads : N.Leads s t x) (content : Option Ref) :
    (N.put t x content).lookup? s x = content.or (N.behind? t x) := by
  obtain ⟨before, after, way, free⟩ := leads
  have unchanged {b : ScopeRef} (other : b ≠ t) : (N.put t x content).binds b x = N.binds b x :=
    put_of_ne content fun same => other same.1
  have freeStill : ∀ b ∈ before, (N.put t x content).binds b x = none := fun b mem => by
    rw [unchanged (ne_of_mem_of_not_mem mem (N.not_mem_before way)), free b mem]
  have rest : after.findSome? (fun b => (N.put t x content).binds b x) = after.findSome? fun b => N.binds b x :=
    findSome?_congr fun b mem => unchanged (ne_of_mem_of_not_mem mem (N.not_mem_behind way))
  have way' : (N.put t x content).outward s = before ++ t :: after := way
  rw [lookup?, way', findSome?_of_unbound freeStill, List.findSome?_cons, put_self, behind?, tail_outward way, rest]
  cases content <;> rfl

/-- A lookup that does not lead there finds what it found before. -/
theorem lookup?_put_of_not_leads (astray : ¬ N.Leads s t x) (content : Option Ref) :
    (N.put t x content).lookup? s x = N.lookup? s x := by
  have unchanged {b : ScopeRef} (other : b ≠ t) : (N.put t x content).binds b x = N.binds b x :=
    put_of_ne content fun same => other same.1
  rw [lookup?, lookup?]
  by_cases onWay : t ∈ N.outward s
  · obtain ⟨before, after, way⟩ := List.append_of_mem onWay
    -- a binding before that scope ends the lookup, whatever the scope itself binds
    obtain ⟨b, mem, bound⟩ : ∃ b ∈ before, N.binds b x ≠ none := by
      by_contra free
      push Not at free
      exact astray ⟨before, after, way, free⟩
    have found : (before.findSome? fun b => N.binds b x).isSome :=
      List.findSome?_isSome_iff.mpr ⟨b, mem, Option.isSome_iff_ne_none.mpr bound⟩
    obtain ⟨v, found⟩ := Option.isSome_iff_exists.mp found
    have same : (before.findSome? fun b => (N.put t x content).binds b x) = before.findSome? fun b => N.binds b x :=
      findSome?_congr fun b mem => unchanged (ne_of_mem_of_not_mem mem (N.not_mem_before way))
    have way' : (N.put t x content).outward s = before ++ t :: after := way
    rw [way', way, List.findSome?_append, List.findSome?_append, same, found]
    rfl
  · exact findSome?_congr fun b mem => unchanged (ne_of_mem_of_not_mem mem onWay)

end Nest

/-! ### What is done with variables -/

/-- Something that is done with a variable from a scope. -/
inductive VarAction where
  /-- To read it. -/
  | read (s : ScopeRef) (name : String)
  /-- To define it in this scope. -/
  | define (s : ScopeRef) (name : String) (value : Ref)
  /-- To assign to it as this scope sees it. -/
  | assign (s : ScopeRef) (name : String) (value : Ref)
  /-- To remove it from this scope. -/
  | remove (s : ScopeRef) (name : String)

/-- How it ends. -/
inductive VarAnswer where
  /-- With the value that was read. -/
  | value (r : Ref)
  /-- With the change. -/
  | done
  /-- Without a change, as the name is not defined. -/
  | undefined
deriving DecidableEq

namespace VarAction

variable {N : Nest} {a : VarAction} {s t u : ScopeRef} {x y : String}

/-- The scope it is done from. -/
def scope : VarAction → ScopeRef
  | read s _ | define s _ _ | assign s _ _ | remove s _ => s

/-- The name of the variable. -/
def name : VarAction → String
  | read _ name | define _ name _ | assign _ name _ | remove _ name => name

/-- The scope in which it changes what the name is bound to: a definition does this in its own scope, an assignment
in the innermost one that binds the name, and a removal in its own one if that binds the name. -/
def target? (N : Nest) : VarAction → Option ScopeRef
  | read .. => none
  | define s _ _ => some s
  | assign s name _ => N.owner? s name
  | remove s name => if (N.binds s name).isSome then some s else none

/-- What the name is bound to there afterwards. -/
def content? : VarAction → Option Ref
  | define _ _ value | assign _ _ value => some value
  | read .. | remove .. => none

/-- The environments afterwards. -/
def after (N : Nest) (a : VarAction) : Nest :=
  match a.target? N with
  | some t => N.put t a.name a.content?
  | none => N

/-- How it ends in nested environments. -/
def answer (N : Nest) : VarAction → VarAnswer
  | read s name =>
    match N.lookup? s name with
    | some value => .value value
    | none => .undefined
  | a => if (a.target? N).isSome then .done else .undefined

/-- The computation that does it. -/
def computation : VarAction → Engine (Option Ref)
  | read s name => do return some (← Engine.readVariable s name)
  | define s name value => do
    Engine.define s name value
    return none
  | assign s name value => do
    Engine.execute.assign s name value
    return none
  | remove s name => do
    Engine.execute.undefine s name
    return none

end VarAction

/-- The outcome of a computation that ends like this on a machine. -/
def VarAnswer.outcome (name : String) (m : Machine) : VarAnswer → Outcome (Option Ref)
  | value r => .ok (some r) m
  | done => .ok none m
  | undefined => .error (.raised (.ofCause (.undefinedName name))) m

/-! ### Heaps -/

namespace Heap

variable {h h' : Heap} {N : Nest} {s t u : ScopeRef} {x y : String} {chain before rest : List ScopeRef}

/-- What a name is bound to in a scope. -/
def bound? (h : Heap) (s : ScopeRef) (x : String) : Option Ref := (h.scope? s).bind fun scope => scope.vars.get? x

/-- The scopes of a heap are these nested environments. -/
structure Nests (h : Heap) (N : Nest) : Prop where
  /-- The way from a live scope is its chain. -/
  chain : ∀ s, (h.scope? s).isSome → h.Chain s (N.outward s)
  /-- From a vacant slot there is none. -/
  vacant : ∀ s, h.scope? s = none → N.outward s = []
  /-- The names are bound alike. -/
  binds : ∀ s x, N.binds s x = h.bound? s x

theorem Chain.onward (c : h.Chain s (before ++ t :: rest)) : h.Chain t (t :: rest) := by
  induction before generalizing s with
  | nil =>
    have first : s = t := by cases c <;> rfl
    exact first ▸ c
  | cons b before ih =>
    cases hc : before ++ t :: rest with
    | nil => simp at hc
    | cons d l =>
      rw [List.cons_append, hc] at c
      cases c with
      | inner next tail => exact ih (hc ▸ tail)

/-- If all live scopes have chains, the heap has nested environments. -/
theorem exists_nests (tree : ∀ s, (h.scope? s).isSome → ∃ chain, h.Chain s chain) : ∃ N, h.Nests N := by
  choose! way chain using tree
  have chain_of {s : ScopeRef} {l : List ScopeRef} (nonempty : l ≠ [])
      (same : (if (h.scope? s).isSome then way s else []) = l) : h.Chain s l := by
    split at same
    · rename_i live
      exact same ▸ chain s live
    · exact absurd same.symm nonempty
  refine ⟨⟨fun s => if (h.scope? s).isSome then way s else [], h.bound?, ?_, ?_⟩, ⟨?_, ?_, ?_⟩⟩
  · intro s t rest same
    have c := chain_of (List.cons_ne_nil _ _) same
    cases c <;> rfl
  · intro s before t after same
    have c := (chain_of (by simp) same).onward
    have live := c.live t List.mem_cons_self
    rw [if_pos live]
    exact (chain t live).unique c
  · intro s live
    dsimp only
    rw [if_pos live]
    exact chain s live
  · intro s vacant
    exact if_neg (by rw [vacant]; exact Bool.false_ne_true)
  · exact fun s x => rfl

theorem Chain.bindingWithin? (c : h.Chain s chain) {n : Nat} (enough : chain.length ≤ n) :
    h.bindingWithin? x n s = chain.findSome? fun t => (h.bound? t x).map fun value => (t, value) := by
  induction c generalizing n with
  | outermost last =>
    obtain ⟨n, rfl⟩ : ∃ n', n = n' + 1 := ⟨n - 1, by simp only [List.length_singleton] at enough; omega⟩
    obtain ⟨scope, found, outer⟩ := around?_eq_some_iff.mp last
    simp only [Heap.bindingWithin?, found, outer, List.findSome?_cons, List.findSome?_nil, bound?, Option.bind_some]
    cases scope.vars.get? x <;> rfl
  | inner next rest ih =>
    obtain ⟨n, rfl⟩ : ∃ n', n = n' + 1 := ⟨n - 1, by simp only [List.length_cons] at enough; omega⟩
    obtain ⟨scope, found, outer⟩ := around?_eq_some_iff.mp next
    have later := ih (Nat.le_of_succ_le_succ enough)
    simp only [Heap.bindingWithin?, found, outer, List.findSome?_cons, bound?, Option.bind_some]
    cases scope.vars.get? x with
    | some value => rfl
    | none => exact later

/-- A search finds the binding of the owner. -/
theorem Nests.binding? (nests : h.Nests N) (live : (h.scope? s).isSome) (x : String) :
    h.binding? s x = (N.owner? s x).bind fun t => (N.binds t x).map fun value => (t, value) := by
  have c := nests.chain s live
  rw [Heap.binding?, c.bindingWithin? c.length_le, Nest.owner?]
  induction N.outward s with
  | nil => rfl
  | cons t rest ih =>
    rw [List.findSome?_cons, ← nests.binds]
    cases bound : N.binds t x with
    | none => simpa [bound] using ih
    | some v => simp [bound]

/-- A variable is read as it is looked up. -/
theorem Nests.resolve? (nests : h.Nests N) (live : (h.scope? s).isSome) (usable : isDiscardName x = false) :
    h.resolve? s x = N.lookup? s x := by
  rw [Heap.resolve?, usable, if_neg Bool.false_ne_true, nests.binding? live, N.lookup?_eq]
  cases N.owner? s x with
  | none => rfl
  | some t => cases bound : N.binds t x <;> simp [bound]

/-- A change of what a name is bound to in a live scope. -/
theorem Nests.put {f : Scope → Scope} {content : Option Ref} (nests : h.Nests N) (live : (h.scope? t).isSome)
    (outer : ∀ scope, (f scope).outer = scope.outer)
    (vars : ∀ scope y, (f scope).vars.get? y = if x = y then content else scope.vars.get? y) :
    (h.modifyScope t f).Nests (N.put t x content) := by
  have alive (u : ScopeRef) : ((h.modifyScope t f).scope? u).isSome = (h.scope? u).isSome := by
    rw [scope?_modifyScope]
    split
    · exact Option.isSome_map
    · rfl
  refine ⟨fun u there => ?_, fun u none => ?_, fun u y => ?_⟩
  · exact (sameAround_modifyScope h t outer).keeps (nests.chain u (alive u ▸ there))
  · refine nests.vacant u (Option.isNone_iff_eq_none.mp ?_)
    rw [← Option.not_isSome, ← alive u, none]
    rfl
  · have before : N.binds u y = h.bound? u y := nests.binds u y
    rw [Nest.put, bound?, scope?_modifyScope]
    dsimp only
    by_cases here : t = u
    · obtain ⟨scope, found⟩ := Option.isSome_iff_exists.mp live
      subst here
      rw [if_pos rfl, found, Option.map_some, Option.bind_some, vars, before, bound?, found, Option.bind_some]
      simp only [true_and, eq_comm]
    · rw [if_neg (fun same => here same.1.symm), if_neg here, before, bound?]

end Heap

/-! ### Both sides -/

namespace VarAction

variable {due : Schedule} {m : Machine} {N : Nest} {a : VarAction} {s t : ScopeRef} {x : String} {v : Ref}

/-- What is done with a variable ends on a machine as it does in nested environments, and leaves a heap that has the
environments it leaves. -/
structure Refines (due : Schedule) (m : Machine) (N : Nest) (a : VarAction) (h : Heap) : Prop where
  /-- It ends alike. -/
  ends : a.computation.runUnder due m = (a.answer N).outcome a.name (m.withHeap fun _ => h)
  /-- It leaves the environments. -/
  nests : h.Nests (a.after N)
  /-- It leaves the objects. -/
  objects : h.objects = m.heap.objects
  /-- It leaves the other scopes. -/
  others : ∀ u, a.target? N ≠ some u → h.scope? u = m.heap.scope? u
  /-- Without a target it leaves everything. -/
  same : a.target? N = none → h = m.heap

theorem withHeap_self (m : Machine) : (m.withHeap fun _ => m.heap) = m := by
  cases m
  rfl

theorem withHeap_congr {f g : Heap → Heap} (same : f m.heap = g m.heap) : m.withHeap f = m.withHeap g := by
  cases m
  exact congrArg (Machine.mk · _ _ _ _ _ _) same

/-- What is done without a target changes nothing. -/
theorem refines_of_no_target (nests : m.heap.Nests N) (none : a.target? N = none)
    (ends : a.computation.runUnder due m = (a.answer N).outcome a.name m) : a.Refines due m N m.heap where
  ends := by rw [withHeap_self, ends]
  nests := by
    rw [after, none]
    exact nests
  objects := rfl
  others _ _ := rfl
  same _ := rfl

/-- What is done with a target changes what the name is bound to there. -/
theorem refines_of_target {f : Scope → Scope} (nests : m.heap.Nests N) (target : a.target? N = some t)
    (live : (m.heap.scope? t).isSome) (outer : ∀ scope, (f scope).outer = scope.outer)
    (vars : ∀ scope y, (f scope).vars.get? y = if a.name = y then a.content? else scope.vars.get? y)
    (ends : a.computation.runUnder due m = .ok none (m.withHeap fun h => h.modifyScope t f))
    (done : a.answer N = .done) : a.Refines due m N (m.heap.modifyScope t f) where
  ends := by
    rw [ends, done]
    cases m
    rfl
  nests := by
    rw [after, target]
    exact nests.put live outer vars
  objects := rfl
  others u other := by
    have elsewhere : t ≠ u := fun same => other (target.trans (congrArg some same))
    rw [Heap.scope?_modifyScope, if_neg elsewhere]
  same none := by
    rw [target] at none
    cases none

section

variable (nests : m.heap.Nests N) (live : (m.heap.scope? s).isSome) (usable : isDiscardName x = false)
include nests live usable

theorem refines_read (due : Schedule) : (read s x).Refines due m N m.heap := by
  refine refines_of_no_target nests rfl ?_
  simp only [computation, Engine.readVariable, Engine.runUnder_bind, Engine.runUnder_ask,
    nests.resolve? live usable, answer]
  cases N.lookup? s x <;> rfl

theorem refines_define (due : Schedule) (v : Ref) : ∃ h, (define s x v).Refines due m N h := by
  refine ⟨_, refines_of_target (f := fun scope => { scope with vars := scope.vars.insert x v }) nests rfl live
    (fun _ => rfl) (fun scope y => scope.vars.get?_insert x y v) ?_ rfl⟩
  have ran : (Engine.define s x v).runUnder due m = .ok () (m.withHeap fun h => h.define s x v) := rfl
  have changed : (fun h : Heap => h.define s x v) =
      fun h => h.modifyScope s fun scope => { scope with vars := scope.vars.insert x v } :=
    funext fun h => if_neg (by rw [usable]; exact Bool.false_ne_true)
  simp only [computation, Engine.runUnder_bind, ran, changed]
  rfl

theorem refines_assign (due : Schedule) (v : Ref) : ∃ h, (assign s x v).Refines due m N h := by
  have found := nests.binding? live x
  cases owner : N.owner? s x with
  | none =>
    rw [owner] at found
    refine ⟨m.heap, refines_of_no_target nests owner ?_⟩
    simp only [computation, Engine.execute.assign, Engine.runUnder_bind, Engine.runUnder_ask, usable, found, answer,
      target?, owner]
    rfl
  | some t =>
    obtain ⟨leads, bound⟩ := Nest.owner?_eq_some_iff.mp owner
    obtain ⟨w, bound⟩ := Option.isSome_iff_exists.mp bound
    rw [owner, Option.bind_some, bound, Option.map_some] at found
    have liveThere : (m.heap.scope? t).isSome := by
      rw [nests.binds, Heap.bound?] at bound
      obtain ⟨scope, there, -⟩ := Option.bind_eq_some_iff.mp bound
      exact Option.isSome_iff_exists.mpr ⟨scope, there⟩
    have assigned : m.heap.assign? s x v =
        some (m.heap.modifyScope t fun scope => { scope with vars := scope.vars.insert x v }) := by
      rw [Heap.assign?, usable, if_neg Bool.false_ne_true, found]
    refine ⟨_, refines_of_target (f := fun scope => { scope with vars := scope.vars.insert x v }) nests owner
      liveThere (fun _ => rfl) (fun scope y => scope.vars.get?_insert x y v) ?_ ?_⟩
    · have acted : (Engine.act (.assign s x v)).runUnder due m =
          .ok () (m.withHeap fun h => (h.assign? s x v).getD h) := rfl
      have changed : (m.withHeap fun h => (h.assign? s x v).getD h) =
          m.withHeap fun h => h.modifyScope t fun scope => { scope with vars := scope.vars.insert x v } :=
        withHeap_congr (by rw [assigned]; rfl)
      simp only [computation, Engine.execute.assign, Engine.runUnder_bind, Engine.runUnder_ask, usable, found,
        Option.isSome_some, Bool.or_true, if_true, acted, changed]
      rfl
    · simp only [answer, target?, owner, Option.isSome_some, if_true]

omit usable in
theorem refines_remove (due : Schedule) : ∃ h, (remove s x).Refines due m N h := by
  obtain ⟨scope, there⟩ := Option.isSome_iff_exists.mp live
  have bound : N.binds s x = scope.vars.get? x := by
    rw [nests.binds, Heap.bound?, there, Option.bind_some]
  have loaded : (Engine.loadScope s).runUnder due m = .ok scope m := by
    simp only [Engine.loadScope, Engine.runUnder, Op.perform, there]
  cases present : (scope.vars.get? x).isSome with
  | false =>
    have none : (remove s x).target? N = none := by
      simp only [target?, bound, present, Bool.false_eq_true, if_false]
    refine ⟨m.heap, refines_of_no_target nests none ?_⟩
    simp only [computation, Engine.execute.undefine, Engine.runUnder_bind, loaded, Table.contains, present, answer, none]
    rfl
  | true =>
    have target : (remove s x).target? N = some s := by
      simp only [target?, bound, present, if_true]
    have removed : m.heap.undefine? s x =
        some (m.heap.modifyScope s fun scope => { scope with vars := scope.vars.erase x }) := by
      simp only [Heap.undefine?, there, Table.contains, present, if_true]
    refine ⟨_, refines_of_target (f := fun scope => { scope with vars := scope.vars.erase x }) nests target live
      (fun _ => rfl) (fun scope y => scope.vars.get?_erase x y) ?_ ?_⟩
    · have acted : (Engine.act (.undefine s x)).runUnder due m =
          .ok () (m.withHeap fun h => (h.undefine? s x).getD h) := rfl
      have changed : (m.withHeap fun h => (h.undefine? s x).getD h) =
          m.withHeap fun h => h.modifyScope s fun scope => { scope with vars := scope.vars.erase x } :=
        withHeap_congr (by rw [removed]; rfl)
      simp only [computation, Engine.execute.undefine, Engine.runUnder_bind, loaded, Table.contains, present, if_true,
        acted, changed]
      rfl
    · simp only [answer, target, Option.isSome_some, if_true]

end

/-- What is done from a live scope with a variable that is no discard name. -/
structure Admitted (h : Heap) (a : VarAction) : Prop where
  /-- The scope is live. -/
  live : (h.scope? a.scope).isSome
  /-- The name can be bound. -/
  usable : isDiscardName a.name = false

/-- One step: whatever is done with a variable, it is the same on a machine as in nested environments. -/
theorem exists_refines (due : Schedule) (nests : m.heap.Nests N) (admitted : Admitted m.heap a) :
    ∃ h, a.Refines due m N h := by
  obtain ⟨live, usable⟩ := admitted
  cases a with
  | read s x => exact ⟨m.heap, refines_read nests live usable due⟩
  | define s x v => exact refines_define nests live usable due v
  | assign s x v => exact refines_assign nests live usable due v
  | remove s x => exact refines_remove nests live due

/-- What each scope sees of what is done with a variable. -/
structure Seen (N : Nest) (a : VarAction) : Prop where
  /-- Every scope has the way outward that it had. -/
  outward : (a.after N).outward = N.outward
  /-- Only what the name is bound to in the target changes. -/
  binds : ∀ u y, (a.after N).binds u y = if a.target? N = some u ∧ y = a.name then a.content? else N.binds u y
  /-- A lookup finds what the innermost scope binds that binds the name. -/
  innermost : ∀ u y, N.lookup? u y = (N.owner? u y).bind fun t => N.binds t y
  /-- An assignment creates no binding. -/
  creates : ∀ s x v, a = assign s x v → ∀ u y, ((a.after N).binds u y).isSome = (N.binds u y).isSome
  /-- A scope sees it if its own lookup led to the binding: it finds what is bound now, or else what is behind. -/
  seen : ∀ u t, a.target? N = some t → N.owner? u a.name = some t →
    (a.after N).lookup? u a.name = a.content?.or (N.behind? t a.name)
  /-- A scope does not see an assignment or a removal if its own lookup led elsewhere. -/
  unseen : ∀ u t, a.target? N = some t → (N.binds t a.name).isSome → N.owner? u a.name ≠ some t →
    (a.after N).lookup? u a.name = N.lookup? u a.name
  /-- No scope sees another variable change. -/
  elsewhere : ∀ u y, y ≠ a.name → (a.after N).lookup? u y = N.lookup? u y

theorem after_of_target (target : a.target? N = some t) : a.after N = N.put t a.name a.content? := by
  rw [after, target]

theorem after_of_no_target (target : a.target? N = none) : a.after N = N := by
  rw [after, target]

theorem outward_after (a : VarAction) (N : Nest) : (a.after N).outward = N.outward := by
  rw [after]
  split <;> rfl

theorem binds_after (a : VarAction) (N : Nest) (u : ScopeRef) (y : String) :
    (a.after N).binds u y = if a.target? N = some u ∧ y = a.name then a.content? else N.binds u y := by
  cases target : a.target? N with
  | none =>
    rw [after_of_no_target target, if_neg]
    rintro ⟨some, -⟩
    cases some
  | some t =>
    rw [after_of_target target]
    simp only [Nest.put, Option.some.injEq, eq_comm]

theorem seen_all (a : VarAction) (N : Nest) : Seen N a where
  outward := a.outward_after N
  binds := a.binds_after N
  innermost := N.lookup?_eq
  creates := by
    rintro s x v rfl u y
    rw [binds_after]
    split
    · rename_i changed
      obtain ⟨owner, rfl⟩ := changed
      exact (Nest.owner?_eq_some_iff.mp owner).2.symm
    · rfl
  seen u t target owner := by
    rw [after_of_target target]
    exact Nest.lookup?_put_of_leads (Nest.owner?_eq_some_iff.mp owner).1 _
  unseen u t target bound other := by
    rw [after_of_target target]
    exact Nest.lookup?_put_of_not_leads (fun leads => other (Nest.owner?_eq_some_iff.mpr ⟨leads, bound⟩)) _
  elsewhere u y other := by
    rw [Nest.lookup?, outward_after]
    exact Nest.findSome?_congr fun b _ => by rw [binds_after, if_neg fun same => other same.2]

end VarAction

/-! ### One thing after another -/

/-- The machine after one thing was done with variables after another. What is refused is let go. -/
def Machine.afterVars (due : Schedule) (m : Machine) (actions : List VarAction) : Machine :=
  actions.foldl (fun m a => (a.computation.runUnder due m).machine) m

/-- The environments after it. -/
def Nest.afterVars (N : Nest) (actions : List VarAction) : Nest := actions.foldl (fun N a => a.after N) N

namespace Machine

variable {due : Schedule} {m : Machine} {N : Nest} {a : VarAction} {actions : List VarAction}

theorem machine_outcome (name : String) (m : Machine) (answer : VarAnswer) : (answer.outcome name m).machine = m := by
  cases answer <;> rfl

/-- Live scopes are those that a way leads from. -/
theorem isSome_scope_iff {h : Heap} (nests : h.Nests N) (s : ScopeRef) : (h.scope? s).isSome ↔ N.outward s ≠ [] := by
  constructor
  · exact fun live => List.ne_nil_of_mem (nests.chain s live).mem_self
  · intro way
    rw [Option.isSome_iff_ne_none]
    exact mt (nests.vacant s) way

theorem admitted_of_nests {h h' : Heap} {N' : Nest} (admitted : a.Admitted h) (nests : h.Nests N) (nests' : h'.Nests N')
    (same : N'.outward = N.outward) : a.Admitted h' := by
  refine ⟨(isSome_scope_iff nests' _).mpr ?_, admitted.usable⟩
  rw [same]
  exact (isSome_scope_iff nests _).mp admitted.live

/-- The machine after one thing has the environments that there are after it. -/
theorem nests_after (due : Schedule) (nests : m.heap.Nests N) (admitted : a.Admitted m.heap) :
    (a.computation.runUnder due m).machine.heap.Nests (a.after N) := by
  obtain ⟨h, refines⟩ := VarAction.exists_refines due nests admitted
  rw [refines.ends, machine_outcome, heap_withHeap]
  exact refines.nests

/-- After one thing after another the heap has the environments that there are after the same. -/
theorem nests_afterVars (due : Schedule) (nests : m.heap.Nests N) (admitted : ∀ a ∈ actions, a.Admitted m.heap) :
    (m.afterVars due actions).heap.Nests (N.afterVars actions) ∧ (N.afterVars actions).outward = N.outward := by
  induction actions generalizing m N with
  | nil => exact ⟨nests, rfl⟩
  | cons a later ih =>
    obtain ⟨here, admitted⟩ := List.forall_mem_cons.mp admitted
    have nests' := nests_after due nests here
    have still := a.outward_after N
    obtain ⟨ends, outward⟩ := ih nests' fun b mem => admitted_of_nests (admitted b mem) nests nests' still
    exact ⟨ends, outward.trans still⟩

/-- For every heap whose live scopes have chains. Its scopes are nested environments, and after any sequence of reads,
definitions, assignments and removals of variables from live scopes the heap has the environments that there are after
this sequence. Then each further one ends on the machine as it does there: a read gives what the innermost binding on
the way outward holds, or a `NameError` if there is none; an assignment changes that binding, or raises a `NameError`
and changes nothing; a definition and a removal change their own scope. Objects and all other scopes stay as they are,
an assignment creates no binding, and what a scope looks up changes just if it led to the binding that is changed. -/
theorem variables_refine_environments (due : Schedule)
    (tree : ∀ s, (m.heap.scope? s).isSome → ∃ chain, m.heap.Chain s chain) :
    ∃ N, m.heap.Nests N ∧ ∀ actions : List VarAction, (∀ a ∈ actions, a.Admitted m.heap) →
      let m' := m.afterVars due actions
      let N' := N.afterVars actions
      m'.heap.Nests N' ∧ ∀ a : VarAction, a.Admitted m.heap → (∃ h, a.Refines due m' N' h) ∧ a.Seen N' := by
  obtain ⟨N, nests⟩ := Heap.exists_nests tree
  refine ⟨N, nests, fun actions admitted => ?_⟩
  obtain ⟨nests', outward⟩ := nests_afterVars due nests admitted
  refine ⟨nests', fun a here => ⟨?_, a.seen_all _⟩⟩
  exact VarAction.exists_refines due nests' (admitted_of_nests here nests nests' outward)

/-- A program that keeps a scope in which a function was made. -/
def keepsScope : Code :=
  assemble
    [.int 1, .define "x", .function "f" [] false [.function "g" [] false [], .op .returnValue], .define "f",
      .get "f", .op (.call 0), .define "g"]

/-- In that scope a variable is shadowed, and seen again when the one that shadows it is removed. -/
theorem variables_refine_environments_shadowed :
    let m := (boot .unlimited .silent).afterSession [.request .discarding (.run keepsScope)]
    let s : ScopeRef := ⟨2⟩
    let actions : List VarAction := [.define s "x" .null, .assign s "x" .yes, .remove s "x"]
    let m' := m.afterVars Heap.collectionDue actions
    m.heap.around? s = some (some .globals) ∧ m'.heap.resolve? s "x" = some ⟨142⟩ ∧
      ∃ N, m.heap.Nests N ∧ m'.heap.Nests (N.afterVars actions) ∧
        ∃ h, (VarAction.read s "x").Refines Heap.collectionDue m' (N.afterVars actions) h := by
  intro m s actions m'
  obtain ⟨around, again⟩ : m.heap.around? s = some (some .globals) ∧ m'.heap.resolve? s "x" = some ⟨142⟩ := by
    decide +kernel
  have live : (m.heap.scope? s).isSome := by decide +kernel
  have grounded : m.Grounded := (grounded_boot .unlimited .silent).afterSession _
  have admitted : ∀ a ∈ VarAction.read s "x" :: actions, a.Admitted m.heap := by
    simp only [actions, List.forall_mem_cons]
    exact ⟨⟨live, by decide⟩, ⟨live, by decide⟩, ⟨live, by decide⟩, ⟨live, by decide⟩, List.forall_mem_nil _⟩
  obtain ⟨N, nests, later⟩ := variables_refine_environments Heap.collectionDue grounded.rooted.chain
  obtain ⟨nests', refines⟩ := later actions fun a mem => admitted a (List.mem_cons_of_mem _ mem)
  exact ⟨around, again, N, nests, nests', (refines _ (admitted _ List.mem_cons_self)).1⟩

end Machine

end ObjectMachine
