import ObjectMachine.Proofs.Members
/-!
Calls that only touch the heap. Much of what is built in does nothing but read the heap of the machine, store objects
and change one, in the same way on all machines with that heap. What a call of such a function comes to is then known
exactly: the observer sees it come and go, an error remembers it, and where calls are nested too deeply it is refused.
-/
namespace ObjectMachine

/-- Changes that come to the same for the item in a slot are the same. -/
theorem Arena.modify_congr {α : Type} {a : Arena α} {i : Nat} {f g : α → α}
    (same : ∀ x, a.get? i = some x → f x = g x) : a.modify i f = a.modify i g := by
  obtain ⟨slots, free⟩ := a
  simp only [modify, mk.injEq, and_true]
  refine Array.ext_getElem? fun j => ?_
  simp only [Array.getElem?_modify]
  split
  · rename_i here
    subst here
    simp only [get?] at same
    rcases found : slots[i]? with _ | _ | x
    · rfl
    · rfl
    · exact congrArg (fun y => some (some y)) (same x (by rw [found]; rfl))
  · rfl

/-- Stores an object of a kind of data, or refuses it. -/
def Heap.stored (h : Heap) (payload : Payload) : Except Interrupt Ref × Heap :=
  match h.allocate (.ofPayload payload none) with
  | (.ok r, h) => (.ok r, h)
  | (.error e, h) => (.error (.ofExhaustion e), h)

namespace Heap

variable {h : Heap} {r r' : Ref} {p : Payload}

/-- Exchanges the data of an object. -/
def setPayload (h : Heap) (r : Ref) (p : Payload) : Heap := h.modify r fun o => { o with payload := p }

theorem object?_setPayload (h : Heap) (r : Ref) (p : Payload) (r' : Ref) :
    (h.setPayload r p).object? r' =
      if r = r' then (h.object? r').map fun o => { o with payload := p } else h.object? r' :=
  h.object?_modify r _ r'

theorem payload?_setPayload (h : Heap) (r : Ref) (p : Payload) (r' : Ref) :
    (h.setPayload r p).payload? r' = if r = r' then (h.payload? r').map fun _ => p else h.payload? r' := by
  rw [payload?, payload?, object?_setPayload]
  split
  · cases h.object? r' <;> rfl
  · rfl

/-- A change that leaves the members alone exchanges the data. -/
theorem modify_eq_setPayload (holds : h.payload? r = some p) {c : Change} (keeps : ∀ t, c.onMembers t = t) :
    h.modify r c.apply = h.setPayload r (c.onPayload p) := by
  have same : ∀ o, h.objects.get? r.slot = some o → c.apply o = { o with payload := c.onPayload p } := by
    rintro ⟨type, members, payload⟩ live
    have data : payload = p := by
      rw [payload?, object?, live] at holds
      exact Option.some.inj holds
    rw [Change.apply, keeps, data]
  obtain ⟨objects, scopes, budget, since⟩ := h
  exact congrArg (fun objects => (⟨objects, scopes, budget, since⟩ : Heap)) (Arena.modify_congr same)

end Heap

namespace Machine

variable {α : Type} {m inner : Machine} {name : String} {args : List Ref} {h : Heap}

/-- The machine after a function was called that did nothing but answer: the observer has seen it come and go. -/
def answered (m : Machine) (name : String) : Machine :=
  match m with
  | ⟨heap, builtins, globals, depth, roots, printer, tracer⟩ =>
    ⟨heap, builtins, globals, depth, roots, printer,
      (tracer.observe (.call name (depth + 1))).observe (.leave (depth + 1))⟩

/-- How a computation ends that only touches the heap. -/
def ends (m : Machine) : Except Interrupt α × Heap → Outcome α
  | (.ok a, h) => .ok a (m.withHeap fun _ => h)
  | (.error e, h) => .error e (m.withHeap fun _ => h)

/-- How a call ends of a function that only touches the heap. -/
def called (m : Machine) (name : String) (args : List Ref) (done : Except Interrupt α × Heap) : Outcome α :=
  match m.enter with
  | .ok _ => (m.answered name).ends (done.1.mapError (·.withLayer name args), done.2)
  | .error e => .error (.ofExhaustion e) m

theorem ends_withHeap (m : Machine) (h : Heap) (done : Except Interrupt α × Heap) :
    (m.withHeap fun _ => h).ends done = m.ends done := by
  obtain ⟨result, h'⟩ := done
  cases result <;> rfl

/-- Where a call can be nested, it ends as the function does, one call deeper. -/
theorem called_of_enter (entered : m.enter = .ok inner) (done : Except Interrupt α × Heap) :
    m.called name args done = (m.answered name).ends (done.1.mapError (·.withLayer name args), done.2) := by
  rw [called, entered]

/-- A call that gives a value was nested. -/
theorem ok_of_called {done : Except Interrupt α × Heap} {a : α} {m' : Machine}
    (ran : m.called name args done = .ok a m') :
    (∃ inner, m.enter = .ok inner) ∧ done.1 = .ok a ∧ m' = (m.answered name).withHeap fun _ => done.2 := by
  obtain ⟨result, h⟩ := done
  rw [called] at ran
  cases entered : m.enter with
  | error e =>
    rw [entered] at ran
    cases ran
  | ok inner =>
    rw [entered] at ran
    cases result with
    | error e => cases ran
    | ok b =>
      cases ran
      exact ⟨⟨inner, rfl⟩, rfl, rfl⟩

/-- Back from a call, all but the heap is as before, apart from its two events. -/
theorem leave_of_enter {nodes : List Node} (entered : m.enter = .ok inner) (name : String) (h : Heap) :
    (((((inner.pushRoots nodes).observe (.call name)).withHeap fun _ => h).observe .leave).leave).truncateRoots
      m.roots.size = (m.answered name).withHeap fun _ => h := by
  have roots := congrArg Machine.roots (m.truncateRoots_pushRoots nodes)
  obtain ⟨heap, builtins, globals, depth, held, printer, tracer⟩ := m
  simp only [enter] at entered
  split at entered
  · cases entered
    exact congrArg (fun roots => (⟨h, builtins, globals, depth, roots, printer, _⟩ : Machine)) roots
  · cases entered

theorem enter_pushRoots (entered : m.enter = .ok inner) (nodes : List Node) :
    (m.pushRoots nodes).enter = .ok (inner.pushRoots nodes) := by
  obtain ⟨heap, builtins, globals, depth, held, printer, tracer⟩ := m
  simp only [enter] at entered
  split at entered
  · rename_i allowed
    cases entered
    simp only [pushRoots, enter, allowed]
  · cases entered

theorem enter_pushRoots_of_refused {e : Exhaustion} (refused : m.enter = .error e) (nodes : List Node) :
    (m.pushRoots nodes).enter = .error e := by
  obtain ⟨heap, builtins, globals, depth, held, printer, tracer⟩ := m
  simp only [enter] at refused
  split at refused
  · cases refused
  · rename_i limit
    cases refused
    simp only [pushRoots, enter, limit]

end Machine

namespace Engine

variable {α β : Type} {due : Schedule} {m : Machine} {h h' : Heap} {r : Ref} {name : String} {args : List Ref}

/-! ### What only touches the heap -/

/-- On all machines with a heap, a computation does this to the heap and nothing else. -/
def Does (due : Schedule) (x : Engine α) (h : Heap) (done : Except Interrupt α × Heap) : Prop :=
  ∀ m : Machine, m.heap = h → x.runUnder due m = m.ends done

theorem does_pure (due : Schedule) (a : α) (h : Heap) : Does due (pure a) h (.ok a, h) := by
  rintro m rfl
  rfl

theorem does_raise (due : Schedule) (c : Cause) (h : Heap) :
    Does due (raise c : Engine α) h (.error (.raised (.ofCause c)), h) := by
  rintro m rfl
  rfl

theorem does_ask (due : Schedule) (f : Heap → α) (h : Heap) : Does due (ask f) h (.ok (f h), h) := by
  rintro m rfl
  rfl

theorem does_payload {p : Payload} (due : Schedule) (holds : h.payload? r = some p) :
    Does due (payload r) h (.ok p, h) := by
  rintro m rfl
  rw [runUnder_payload, holds]
  rfl

theorem does_new (due : Schedule) (p : Payload) (h : Heap) : Does due (new p) h (h.stored p) := by
  rintro ⟨heap, builtins, globals, depth, roots, printer, tracer⟩ rfl
  rw [Heap.stored]
  cases allocated : heap.allocate (.ofPayload p none) with
  | mk result h' => cases result <;> simp only [new, runUnder, Op.perform, Op.onHeap, allocated] <;> rfl

theorem does_change {p : Payload} (due : Schedule) (holds : h.payload? r = some p) (c : Change) :
    Does due (change r c) h (.ok (), h.modify r c.apply) := by
  rintro m rfl
  obtain ⟨o, live, -⟩ := Option.map_eq_some_iff.mp holds
  have occupied : m.heap.objects.occupied r.slot = true := Option.isSome_iff_exists.mpr ⟨o, live⟩
  simp only [change, runUnder, Op.perform, occupied, if_true]
  rfl

theorem does_exchange {p : Payload} (due : Schedule) (holds : h.payload? r = some p) {c : Change}
    (keeps : ∀ t, c.onMembers t = t) : Does due (change r c) h (.ok (), h.setPayload r (c.onPayload p)) := by
  rw [← Heap.modify_eq_setPayload holds keeps]
  exact does_change due holds c

namespace Does

variable {x : Engine α} {f : α → Engine β} {a : α} {e : Interrupt} {done : Except Interrupt β × Heap}

/-- What follows starts from the heap that was left. -/
theorem bind (first : Does due x h (.ok a, h')) (later : Does due (f a) h' done) : Does due (x >>= f) h done := by
  intro m same
  have ran := first m same
  rw [Machine.ends] at ran
  rw [Engine.runUnder_bind, ran, ← m.ends_withHeap h' done]
  exact later (m.withHeap fun _ => h') rfl

/-- After what leaves the heap as it is, what follows starts from the same machine. -/
theorem runUnder_bind {m : Machine} (first : Does due x h (.ok a, h)) (same : m.heap = h) :
    (x >>= f).runUnder due m = (f a).runUnder due m := by
  subst same
  rw [Engine.runUnder_bind, first m rfl]
  rfl

/-- After an interruption nothing follows. -/
theorem bind_of_error (first : Does due x h (.error e, h')) : Does due (x >>= f) h (.error e, h') := by
  intro m same
  have ran := first m same
  rw [Machine.ends] at ran
  rw [Engine.runUnder_bind, ran]
  rfl

/-- The value may be replaced. -/
theorem map {result : Except Interrupt α × Heap} (first : Does due x h result) (g : α → β) :
    Does due (x >>= fun a => pure (g a)) h (result.1.map g, result.2) := by
  obtain ⟨value, h'⟩ := result
  cases value with
  | error e => exact first.bind_of_error
  | ok a => exact first.bind (does_pure due (g a) h')

/-! ### Calls -/

/-- A call of what only touches the heap. -/
theorem called {result : Except Interrupt α × Heap} (does : Does due x m.heap result) (nodes : List Node) :
    (keeping nodes (calling name args x)).runUnder due m = m.called name args result := by
  cases entered : m.enter with
  | error e =>
    rw [runUnder, runUnder, Machine.enter_pushRoots_of_refused entered, Machine.called, entered]
    exact congrArg (EStateM.Result.error _) (m.truncateRoots_pushRoots nodes)
  | ok inner =>
    have heap : inner.heap = m.heap := Machine.heap_of_enter entered
    have ran := does ((inner.pushRoots nodes).observe (.call name)) heap
    rw [runUnder, runUnder, Machine.enter_pushRoots entered, Machine.called_of_enter entered]
    dsimp only
    rw [ran]
    obtain ⟨value, h'⟩ := result
    cases value with
    | error e => exact congrArg (EStateM.Result.error _) (Machine.leave_of_enter entered name h')
    | ok a => exact congrArg (EStateM.Result.ok a) (Machine.leave_of_enter entered name h')

end Does

variable {callee : Ref} {f : Function} {matched : Matched} {native : Native} {n : Nat}

theorem invoke_native (body : f.body = .native native) :
    (reentry (n + 1)).invoke ⟨f, matched⟩ =
      calling f.name matched.toList (runNative (reentry n) native matched.toList) := by
  show invokeWith (n + 1) _ = _
  rw [invokeWith, invoke, body]
  rfl

/-- A value for which arguments are put in their places, or refused, is one. -/
theorem exists_object_of_prepare (prepares : h.prepare callee args ≠ .ok none) : ∃ o, h.object? callee = some o := by
  rw [Heap.prepare] at prepares
  split at prepares
  · rename_i function
    obtain ⟨o, live, -⟩ := Option.map_eq_some_iff.mp function
    exact ⟨o, live⟩
  · exact absurd rfl prepares

/-- A call with arguments that do not match raises an error, and nothing is changed. -/
theorem runUnder_call_of_refused {e : Raised} (refused : m.heap.prepare callee args = .error e) :
    ((reentry (n + 2)).call callee args).runUnder due m = .error (.raised e) m := by
  obtain ⟨o, live⟩ := exists_object_of_prepare (by rw [refused]; exact fun same => by cases same)
  have same : (m.pushRoots (objectNodes (callee :: args))).heap = m.heap := rfl
  have looked : (load callee).runUnder due (m.pushRoots (objectNodes (callee :: args))) = .ok o _ := runUnder_load live
  show (callWith (n + 2) callee args).runUnder due m = _
  rw [callWith, call, keepingObjects, runUnder, runUnder_bind, prepare, runUnder_bind, looked]
  dsimp only
  rw [runUnder_bind, runUnder_ask, same, refused]
  exact congrArg (EStateM.Result.error _) (m.truncateRoots_pushRoots _)

/-- A call of a value that is a native function, with arguments that fit. -/
theorem runUnder_call_of_prepared (body : f.body = .native native)
    (prepared : m.heap.prepare callee args = .ok (some ⟨f, matched⟩)) :
    ((reentry (n + 2)).call callee args).runUnder due m =
      (keepingObjects (callee :: args) (calling f.name matched.toList
        (runNative (reentry n) native matched.toList))).runUnder due m := by
  obtain ⟨o, live⟩ := exists_object_of_prepare (by rw [prepared]; exact fun same => by cases same)
  have same : (m.pushRoots (objectNodes (callee :: args))).heap = m.heap := rfl
  have looked : (load callee).runUnder due (m.pushRoots (objectNodes (callee :: args))) = .ok o _ := runUnder_load live
  show (callWith (n + 2) callee args).runUnder due m = _
  rw [callWith, call, keepingObjects, runUnder, keepingObjects, runUnder]
  congr 1
  rw [runUnder_bind, prepare, runUnder_bind, looked]
  dsimp only
  rw [runUnder_bind, runUnder_ask, same, prepared]
  exact congrArg (fun x : Engine Ref => x.runUnder due (m.pushRoots (objectNodes (callee :: args))))
    (invoke_native body)

/-- So it ends as the function does, if that only touches the heap. -/
theorem runUnder_call_of_does {done : Except Interrupt Ref × Heap} (body : f.body = .native native)
    (prepared : m.heap.prepare callee args = .ok (some ⟨f, matched⟩))
    (does : Does due (runNative (reentry n) native matched.toList) m.heap done) :
    ((reentry (n + 2)).call callee args).runUnder due m = m.called f.name matched.toList done :=
  (runUnder_call_of_prepared body prepared).trans (does.called (objectNodes (callee :: args)))

end Engine

/-! ### Operators on built-in data -/

namespace Heap

variable {h h' : Heap} {r : Ref} {kind : Kind} {d : Declaration} {args : List Ref}

/-- The member that the Type of an object has under the name of a declaration, be it of its own or inherited, is as it
was declared. -/
def HasDeclared (h : Heap) (r : Ref) (d : Declaration) : Prop :=
  ∃ method f, h.FoundAlong (h.typeOf r) d.name method ∧ h.payload? method = some (.function f) ∧ d.Makes f

/-- An object is an instance of the Type of a kind of data, and its Type has the members that were declared for the
kind, be it of its own or inherited. -/
structure Serves (h : Heap) (kind : Kind) (r : Ref) : Prop where
  /-- The Type is the one of the kind, or a descendant of it. -/
  isInstance : h.isInstance r kind.ref
  /-- It has the members. -/
  method : ∀ d ∈ Declaration.ofKind kind, ∃ method f, h.FoundAlong (h.typeOf r) d.name method ∧
    h.payload? method = some (.function f) ∧ d.Makes f

theorem Serves.hasDeclared (serves : h.Serves kind r) (declared : d ∈ Declaration.ofKind kind) : h.HasDeclared r d :=
  serves.method d declared

/-- So it is for data without a Type of its own, as long as the built-in Types have their members. -/
theorem Equipped.serves (equipped : h.Equipped) (typeOf : h.typeOf r = kind.ref) : h.Serves kind r where
  isInstance := by rw [Heap.isInstance, isSubtype, typeOf, beq_self_eq_true, Bool.true_or]
  method d declared := typeOf ▸ equipped.foundAlong declared

/-- The Type of the first operand is asked first. -/
theorem exists_operandTypes_cons (name : String) (r : Ref) (args : List Ref) :
    ∃ later, h.operandTypes name (r :: args) = h.typeOf r :: later := by
  rw [operandTypes]
  split
  · exact ⟨[], rfl⟩
  · rw [List.map_cons, List.eraseDups_cons]
    exact ⟨_, rfl⟩

/-- For operands that it takes, the function that was declared is the one that runs. -/
theorem HasDeclared.exists_choose (has : h.HasDeclared r d) (takes : d.Takes h (r :: args)) :
    ∃ f : Function, f.body = .native d.native ∧ f.name = d.name ∧
      h.choose d.name (r :: args) (h.operandTypes d.name (r :: args)) = .ok (.invoke ⟨f, ⟨r :: args, none⟩⟩) := by
  obtain ⟨method, f, found, function, makes⟩ := has
  obtain ⟨later, types⟩ := h.exists_operandTypes_cons d.name r args
  have implements : h.Implements d.name (r :: args) (h.typeOf r) ⟨f, ⟨r :: args, none⟩⟩ :=
    .intro method f _ found function (makes.matchArgs_of_takes takes)
  refine ⟨f, makes.body, makes.name, ?_⟩
  rw [types]
  exact choose_cons_of_implements implements later

end Heap

namespace Engine

variable {due : Schedule} {m : Machine} {kind : Kind} {d : Declaration} {r : Ref} {args : List Ref} {n : Nat}

/-- An operator runs the function that was declared for it, where that is the one that is found. -/
theorem runUnder_operator_of_hasDeclared (has : m.heap.HasDeclared r d)
    (right : Special.wrongOperands? d.name (r :: args).length = none) (takes : d.Takes m.heap (r :: args))
    (anyValue : Bool) :
    (callOperator (reentry (n + 1)) d.name (r :: args) anyValue).runUnder due m =
      (keepingObjects (r :: args) (calling d.name (r :: args) (runNative (reentry n) d.native (r :: args)))).runUnder
        due m := by
  obtain ⟨f, body, named, chosen⟩ := has.exists_choose takes
  have arguments : (⟨r :: args, none⟩ : Matched).toList = r :: args := List.append_nil _
  rw [callOperator, runUnder_dispatch_of_choose_ok right chosen, invoke_native body, arguments, named]
  rfl

/-- So does an operator on built-in data. -/
theorem runUnder_operator_of_serves (serves : m.heap.Serves kind r) (declared : d ∈ Declaration.ofKind kind)
    (right : Special.wrongOperands? d.name (r :: args).length = none) (takes : d.Takes m.heap (r :: args))
    (anyValue : Bool) :
    (callOperator (reentry (n + 1)) d.name (r :: args) anyValue).runUnder due m =
      (keepingObjects (r :: args) (calling d.name (r :: args) (runNative (reentry n) d.native (r :: args)))).runUnder
        due m :=
  runUnder_operator_of_hasDeclared (serves.hasDeclared declared) right takes anyValue

/-- An operator on built-in data that only touches the heap. -/
theorem runUnder_operator_of_does {done : Except Interrupt Ref × Heap} (serves : m.heap.Serves kind r)
    (declared : d ∈ Declaration.ofKind kind) (right : Special.wrongOperands? d.name (r :: args).length = none)
    (takes : d.Takes m.heap (r :: args)) (anyValue : Bool)
    (does : Does due (runNative (reentry n) d.native (r :: args)) m.heap done) :
    (callOperator (reentry (n + 1)) d.name (r :: args) anyValue).runUnder due m =
      m.called d.name (r :: args) done :=
  (runUnder_operator_of_serves serves declared right takes anyValue).trans (does.called (objectNodes (r :: args)))

end Engine

end ObjectMachine
