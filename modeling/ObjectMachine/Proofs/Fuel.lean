import ObjectMachine.Proofs.Caution.Run
/-!
Computations that differ in their fuel. `Engine.Below` relates two computations that are put together in
the same way, where the first may run out of fuel and the second go on. It also says which operations
they may use: the entry points of the engine leave alone the list of roots, the budget and the
generators that run, save for what they undo themselves; and they ask a generator for an item only while
the roots keep it alive. So one relation carries several inductions over all computations of the engine.
-/
namespace ObjectMachine

/-! ### Budgets without a limit of instructions -/

/-- The budget without a limit of instructions. -/
def Budget.unmetered : Budget → Budget
  | unlimited => unlimited
  | limited a => limited { a with limits := { a.limits with maxOperations := none }, operations := 0 }

namespace Heap

/-- The heap without a limit of instructions. -/
def unmetered (h : Heap) : Heap := { h with budget := h.budget.unmetered }

@[grind =] theorem unmetered_typeOf (h : Heap) (r : Ref) :
    h.unmetered.typeOf r = h.typeOf r := rfl

@[grind =] theorem unmetered_typeName (h : Heap) (r : Ref) :
    h.unmetered.typeName r = h.typeName r := rfl

@[grind =] theorem unmetered_nameOfType (h : Heap) (type : Ref) :
    h.unmetered.nameOfType type = h.nameOfType type := rfl

@[grind =] theorem unmetered_mro (h : Heap) (type : Ref) :
    h.unmetered.mro type = h.mro type := rfl

@[grind =] theorem unmetered_isType (h : Heap) (r : Ref) :
    h.unmetered.isType r = h.isType r := rfl

@[grind =] theorem unmetered_isSubtype (h : Heap) (sub sup : Ref) :
    h.unmetered.isSubtype sub sup = h.isSubtype sub sup := rfl

@[grind =] theorem unmetered_isInstance (h : Heap) (r type : Ref) :
    h.unmetered.isInstance r type = h.isInstance r type := rfl

@[grind =] theorem unmetered_str (h : Heap) (r : Ref) :
    h.unmetered.str? r = h.str? r := rfl

@[grind =] theorem unmetered_keyOf (h : Heap) (r : Ref) :
    h.unmetered.keyOf r = h.keyOf r := rfl

@[grind =] theorem unmetered_memberIn (h : Heap) (chain : List Ref) (name : String) :
    h.unmetered.memberIn? chain name = h.memberIn? chain name := rfl

@[grind =] theorem unmetered_prepare (h : Heap) (callee : Ref) (args : List Ref) :
    h.unmetered.prepare callee args = h.prepare callee args := rfl

@[grind =] theorem unmetered_errorIs (h : Heap) (e : ErrorBody) (kind : ErrorKind) :
    h.unmetered.errorIs e kind = h.errorIs e kind := rfl

@[grind =] theorem unmetered_operandTypes (h : Heap) (name : String) (args : List Ref) :
    h.unmetered.operandTypes name args = h.operandTypes name args := rfl

theorem unmetered_bindingWithin (h : Heap) (name : String) (levels : Nat) (s : ScopeRef) :
    h.unmetered.bindingWithin? name levels s = h.bindingWithin? name levels s := by
  induction levels generalizing s with
  | zero => rfl
  | succ levels ih =>
    -- the scopes are the same, level by level
    unfold bindingWithin?
    simp only [ih]
    rfl

@[grind =] theorem unmetered_binding (h : Heap) (s : ScopeRef) (name : String) :
    h.unmetered.binding? s name = h.binding? s name :=
  h.unmetered_bindingWithin name _ s

@[grind =] theorem unmetered_resolve (h : Heap) (s : ScopeRef) (name : String) :
    h.unmetered.resolve? s name = h.resolve? s name := by
  simp only [resolve?, unmetered_binding]

@[grind =] theorem unmetered_choose (h : Heap) (name : String) (args types : List Ref) :
    h.unmetered.choose name args types = h.choose name args types := by
  induction types with
  | nil => rfl
  | cons type later ih =>
    unfold choose
    simp only [ih]
    rfl

-- the functions themselves, where they are passed on without an argument
@[grind =] theorem unmetered_nameOfType' (h : Heap) : h.unmetered.nameOfType = h.nameOfType := rfl

@[grind =] theorem unmetered_str' (h : Heap) : h.unmetered.str? = h.str? := rfl

end Heap

/-! ### What a computation may use -/

/-- What a computation may use beside the objects and scopes. -/
structure Rights where
  /-- It may add roots. -/
  roots : Bool
  /-- It may put generators into a state. -/
  generators : Bool

/-- Whether a payload is that of a Type. -/
@[reducible] def Payload.isType : Payload → Bool
  | type _ => true
  | _ => false

/-- Whether a payload cannot be that of a new object: Types come from definitions, generators do not run before they
are resumed, and `null` and the truth values are there once and for all. -/
@[reducible] def Payload.isReserved : Payload → Bool
  | null | bool _ | type _ | generator _ .running => true
  | _ => false

/-- An operation that a computation with given rights may use. No question to the heap is about how many
instructions may still run, a Type is stored only with parents and with the ancestors that follow from
them, and no generator that runs is stored. -/
def Op.Permitted (rights : Rights) {α : Type} : Op α → Prop
  | ask f => ∀ h, f h.unmetered = f h
  | store o => o.payload.isReserved = false
  | storeType _ parents => parents ≠ []
  | pushRoots _ => rights.roots
  | change _ (.generator _) => rights.generators
  | beginRequest => False
  | _ => True

/-- Whether an interruption is that of an exhausted budget. -/
@[reducible] def Interrupt.isExhausted : Interrupt → Bool
  | exhausted _ => true
  | _ => false

/-! ### What the roots keep -/

namespace Node

/-- The object that a node is, if it is one. -/
def object? : Node → Option Ref
  | object r => some r
  | scope _ => none

theorem filterMap_object?_objectNodes (refs : List Ref) : (objectNodes refs).filterMap object? = refs := by
  rw [objectNodes, List.filterMap_map]
  exact List.filterMap_some

end Node

/-- The roots of a machine keep an object alive by functions alone: it is a root, or a function that is kept
alive in this way refers to it. -/
inductive Machine.Keeps (m : Machine) : Ref → Prop where
  | root {r : Ref} (mem : .object r ∈ m.roots.toList) : Keeps m r
  | function {c r : Ref} {f : Function} (kept : Keeps m c) (found : m.heap.payload? c = some (.function f))
    (link : .object r ∈ f.links) : Keeps m r

namespace Engine

/-- A value that a computation can end with. -/
def MayGive {α : Type} (x : Engine α) (a : α) : Prop := ∃ due m m', x.runUnder due m = .ok a m'

/-- What a computation gives comes with objects that the roots keep, if they kept some before. -/
def Provides {α : Type} (kept : List Ref) (x : Engine α) (more : α → List Ref) : Prop :=
  ∀ {due m a m'}, (∀ o ∈ kept, m.Keeps o) → x.runUnder due m = .ok a m' → ∀ o ∈ more a, m'.Keeps o

/-- Whether a computation books no instruction, whatever becomes of it. -/
def Untimed {α : Type} : Engine α → Prop
  | give _ | throw _ | act (.ask _) | act (.load _) | act (.store _) | act (.raise _) => True
  | andThen x f => x.Untimed ∧ ∀ a, (f a).Untimed
  | _ => False

theorem Untimed.bind {α β : Type} {x : Engine α} {f : α → Engine β} (first : x.Untimed)
    (later : ∀ a, (f a).Untimed) : (x >>= f).Untimed :=
  ⟨first, later⟩

/-- The second computation is put together as the first one, except that the first may run out of fuel.
Both use what their rights permit, and they start while the roots keep some objects. Only an operation
finds a budget exhausted, and no instruction is booked where errors are forgiven. Asking a generator for
an item takes no rights: the generator is put into a state only by the computation that found it
suspended. But it takes roots that keep the generator. -/
inductive BelowWith : List Ref → Rights → {α : Type} → Engine α → Engine α → Prop where
  | outOfFuel {kept : List Ref} {r : Rights} {α : Type} (y : Engine α) :
    BelowWith kept r (throw .outOfFuel) y
  | give {kept : List Ref} {r : Rights} {α : Type} (a : α) : BelowWith kept r (give a) (give a)
  | throw {kept : List Ref} {r : Rights} {α : Type} (e : Interrupt) (other : e.isExhausted = false) :
    BelowWith kept r (throw e : Engine α) (throw e)
  | act {kept : List Ref} {r : Rights} {α : Type} {o : Op α} (permitted : o.Permitted r) :
    BelowWith kept r (act o) (act o)
  | andThen {kept : List Ref} {r : Rights} {α β : Type} {x y : Engine α} {f g : α → Engine β}
    (more : α → List Ref) (provides : x.Provides kept more) (first : BelowWith kept r x y)
    (then_ : ∀ a, x.MayGive a → BelowWith (more a ++ kept) r (f a) (g a)) :
    BelowWith kept r (andThen x f) (andThen y g)
  | keeping {kept : List Ref} {r : Rights} {α : Type} {x y : Engine α} (nodes : List Node)
    (inner : BelowWith (nodes.filterMap Node.object? ++ kept) { r with roots := true } x y) :
    BelowWith kept r (keeping nodes x) (keeping nodes y)
  | holding {kept : List Ref} {r : Rights} {α : Type} {x y : Engine α} (nodes : List Node)
    (inner : BelowWith kept r x y) : BelowWith kept r (holding nodes x) (holding nodes y)
  | executing {kept : List Ref} {r : Rights} {α : Type} {x y : Engine α} (site : Site)
    (inner : BelowWith kept r x y) : BelowWith kept r (executing site x) (executing site y)
  | calling {kept : List Ref} {r : Rights} {α : Type} {x y : Engine α} (name : String) (args : List Ref)
    (inner : BelowWith kept r x y) : BelowWith kept r (calling name args x) (calling name args y)
  | nested {kept : List Ref} {r : Rights} {α : Type} {x y : Engine α} (inner : BelowWith kept r x y) :
    BelowWith kept r (nested x) (nested y)
  | inSection {kept : List Ref} {r : Rights} {x y : Engine Completion} (phase : Phase) (resumed : Bool)
    (inner : BelowWith kept r x y) :
    BelowWith kept r (inSection phase resumed x) (inSection phase resumed y)
  | resuming {kept : List Ref} {r : Rights} {x y : Engine Completion} (generator : Ref) (name : String)
    (right : r.generators) (inner : BelowWith kept r x y) :
    BelowWith kept r (resuming generator name x) (resuming generator name y)
  | generator {kept : List Ref} {r : Rights} {k k' : Reentry} (generator : Ref) (mem : generator ∈ kept)
    (body : ∀ f, BelowWith [] { r with generators := false } (k.runFrame f) (k'.runFrame f))
    (inner : BelowWith kept { r with generators := true } (generatorNext k generator)
      (generatorNext k' generator)) :
    BelowWith kept r (generatorNext k generator) (generatorNext k' generator)
  | catching {kept : List Ref} {r : Rights} {α : Type} {x y : Engine α} (inner : BelowWith kept r x y) :
    BelowWith kept r (catching x) (catching y)
  | forgiving {kept : List Ref} {r : Rights} {α : Type} {x y : Engine α} (untimed : x.Untimed)
    (inner : BelowWith kept r x y) : BelowWith kept r (forgiving x) (forgiving y)

/-- Two computations are related whatever the roots keep. -/
def Below (r : Rights) {α : Type} (x y : Engine α) : Prop := ∀ kept, BelowWith kept r x y

namespace BelowWith

variable {α β : Type} {kept kept' : List Ref} {r : Rights} {x y : Engine α}

/-- The roots may keep more. -/
theorem mono (below : BelowWith kept r x y) (sub : kept ⊆ kept') : BelowWith kept' r x y := by
  induction below generalizing kept' with
  | outOfFuel y => exact .outOfFuel y
  | give a => exact .give a
  | throw e other => exact .throw e other
  | act permitted => exact .act permitted
  | andThen more provides _ _ ihx ihf =>
    refine .andThen more (fun keeps => provides fun o mem => keeps o (sub mem)) (ihx sub) fun a gives => ?_
    exact ihf a gives (List.append_subset.mpr ⟨List.subset_append_left _ _, List.subset_append_of_subset_right _ sub⟩)
  | keeping nodes _ ih => exact .keeping nodes (ih (List.append_subset.mpr ⟨List.subset_append_left _ _, List.subset_append_of_subset_right _ sub⟩))
  | holding nodes _ ih => exact .holding nodes (ih sub)
  | executing site _ ih => exact .executing site (ih sub)
  | calling name args _ ih => exact .calling name args (ih sub)
  | nested _ ih => exact .nested (ih sub)
  | inSection phase resumed _ ih => exact .inSection phase resumed (ih sub)
  | resuming generator name right _ ih => exact .resuming generator name right (ih sub)
  | generator generator mem body _ _ ih => exact .generator generator (sub mem) body (ih sub)
  | catching _ ih => exact .catching (ih sub)
  | forgiving untimed _ ih => exact .forgiving untimed (ih sub)

theorem bind {f g : α → Engine β} (first : BelowWith kept r x y)
    (later : ∀ a, BelowWith kept r (f a) (g a)) : BelowWith kept r (x >>= f) (y >>= g) :=
  .andThen (fun _ => []) (fun _ _ => List.forall_mem_nil _) first fun a _ => later a

theorem keepingObjects {refs : List Ref} (inner : BelowWith (refs ++ kept) { r with roots := true } x y) :
    BelowWith kept r (Engine.keepingObjects refs x) (Engine.keepingObjects refs y) := by
  refine .keeping _ ?_
  rw [Node.filterMap_object?_objectNodes]
  exact inner

end BelowWith

namespace Below

variable {α β : Type} {r : Rights} {x y : Engine α}

theorem outOfFuel (y : Engine α) : Below r (Engine.throw .outOfFuel) y := fun _ => .outOfFuel y

theorem throw (e : Interrupt) (other : e.isExhausted = false) :
    Below r (Engine.throw e : Engine α) (Engine.throw e) :=
  fun _ => .throw e other

theorem act {o : Op α} (permitted : o.Permitted r) : Below r (Engine.act o) (Engine.act o) :=
  fun _ => .act permitted

theorem keeping (nodes : List Node) (inner : Below { r with roots := true } x y) :
    Below r (Engine.keeping nodes x) (Engine.keeping nodes y) :=
  fun _ => .keeping nodes (inner _)

theorem holding (nodes : List Node) (inner : Below r x y) :
    Below r (Engine.holding nodes x) (Engine.holding nodes y) :=
  fun kept => .holding nodes (inner kept)

theorem executing (site : Site) (inner : Below r x y) :
    Below r (Engine.executing site x) (Engine.executing site y) :=
  fun kept => .executing site (inner kept)

theorem calling (name : String) (args : List Ref) (inner : Below r x y) :
    Below r (Engine.calling name args x) (Engine.calling name args y) :=
  fun kept => .calling name args (inner kept)

theorem nested (inner : Below r x y) : Below r (Engine.nested x) (Engine.nested y) :=
  fun kept => .nested (inner kept)

theorem inSection {x y : Engine Completion} (phase : Phase) (resumed : Bool) (inner : Below r x y) :
    Below r (Engine.inSection phase resumed x) (Engine.inSection phase resumed y) :=
  fun kept => .inSection phase resumed (inner kept)

theorem catching (inner : Below r x y) : Below r (Engine.catching x) (Engine.catching y) :=
  fun kept => .catching (inner kept)

theorem forgiving (untimed : x.Untimed) (inner : Below r x y) :
    Below r (Engine.forgiving x) (Engine.forgiving y) :=
  fun kept => .forgiving untimed (inner kept)

@[grind ←] theorem pure (a : α) : Below r (Pure.pure a : Engine α) (Pure.pure a) := fun _ => .give a

@[grind ←] theorem bind {f g : α → Engine β} (first : Below r x y) (later : ∀ a, Below r (f a) (g a)) :
    Below r (x >>= f) (y >>= g) :=
  fun kept => (first kept).bind fun a => later a kept

@[grind ←] theorem keepingObjects (refs : List Ref) (inner : Below { r with roots := true } x y) :
    Below r (Engine.keepingObjects refs x) (Engine.keepingObjects refs y) :=
  inner.keeping _

@[grind ←] theorem raise (c : Cause) : Below r (Engine.raise c : Engine α) (Engine.raise c) :=
  act trivial

@[grind ←] theorem fail (d : Defect) : Below r (Engine.fail d : Engine α) (Engine.fail d) :=
  throw _ rfl

@[grind ←] theorem ask {f : Heap → α} (blind : ∀ h, f h.unmetered = f h) :
    Below r (Engine.ask f) (Engine.ask f) :=
  act blind

@[grind ←] theorem load (o : Ref) : Below r (Engine.load o) (Engine.load o) := act trivial

@[grind ←] theorem payload (o : Ref) : Below r (Engine.payload o) (Engine.payload o) :=
  (load o).bind fun o => pure o.payload

@[grind ←] theorem loadScope (s : ScopeRef) : Below r (Engine.loadScope s) (Engine.loadScope s) :=
  act trivial

@[grind ←] theorem new {p : Payload} (data : p.isReserved = false) :
    Below r (Engine.new p) (Engine.new p) :=
  act data

@[grind ←] theorem newOf (type : Ref) {p : Payload} (data : p.isReserved = false) :
    Below r (Engine.newOf type p) (Engine.newOf type p) :=
  act data

@[grind ←] theorem newScope (outer : ScopeRef) : Below r (Engine.newScope outer) (Engine.newScope outer) :=
  act trivial

@[grind ←] theorem writeMember (o : Ref) (name : String) (value : Ref) :
    Below r (Engine.writeMember o name value) (Engine.writeMember o name value) :=
  act trivial

@[grind ←] theorem define (s : ScopeRef) (name : String) (value : Ref) :
    Below r (Engine.define s name value) (Engine.define s name value) :=
  act trivial

@[grind ←] theorem tick : Below r Engine.tick Engine.tick := act trivial

@[grind ←] theorem collectIfDue (nodes : Unit → List Node) :
    Below r (Engine.collectIfDue nodes) (Engine.collectIfDue nodes) :=
  act trivial

@[grind ←] theorem observe (e : Event) : Below r (Engine.observe e) (Engine.observe e) := act trivial

@[grind ←] theorem observeAt (e : Nat → Event) : Below r (Engine.observeAt e) (Engine.observeAt e) :=
  act trivial

@[grind ←] theorem print (s : String) : Below r (Engine.print s) (Engine.print s) := act trivial

@[grind ←] theorem newInt (i : Int64) : Below r (Engine.newInt i) (Engine.newInt i) := new rfl

@[grind ←] theorem newStr (s : String) : Below r (Engine.newStr s) (Engine.newStr s) := new rfl

@[grind ←] theorem newNum (n : Binary64) : Below r (Engine.newNum n) (Engine.newNum n) := new rfl

@[grind ←] theorem newList (items : List Ref) : Below r (Engine.newList items) (Engine.newList items) :=
  new rfl

@[grind ←] theorem unexpected (expected : String) (o : Ref) :
    Below r (Engine.unexpected expected o : Engine α) (Engine.unexpected expected o) :=
  (payload o).bind fun _ => fail _

attribute [grind ←] Below.outOfFuel Below.throw Below.keeping Below.holding Below.executing
  Below.calling Below.nested Below.inSection Below.catching Below.forgiving

end Below

end Engine

/-- The argument of a call with one argument; a function that asks a generator for an item takes no other. -/
def soleArgument : List Ref → List Ref
  | [only] => [only]
  | _ => []

/-- The entry points of the engine with less fuel and with more. -/
structure Reentry.Below (k k' : Reentry) : Prop where
  /-- Calls. -/
  call : ∀ r callee args, Engine.Below r (k.call callee args) (k'.call callee args)
  /-- Runs of functions, while the roots keep the only argument, if there is but one. -/
  invoke : ∀ r p, Engine.BelowWith (soleArgument p.args.toList) r (k.invoke p) (k'.invoke p)
  /-- Runs of frames. -/
  runFrame : ∀ r f, Engine.Below r (k.runFrame f) (k'.runFrame f)
  /-- Iterations, which add the items to the roots, while these keep the iterator. -/
  drain : ∀ r : Rights, r.roots = true → ∀ iterator taken,
    Engine.BelowWith [iterator] r (k.drain iterator taken) (k'.drain iterator taken)

attribute [grind ←] Reentry.Below.call Reentry.Below.runFrame

namespace Engine

variable {k k' : Reentry} {r : Rights}

/-! ### Errors -/

@[grind ←] theorem below_newErrorObject (e : ErrorBody) (causes : List ErrorBody) :
    Below r (newErrorObject e causes) (newErrorObject e causes) := by
  unfold newErrorObject
  grind -funext

@[grind ←] theorem below_writeMembers (object : Ref) (members : List (String × Ref)) :
    Below r (writeMembers object members) (writeMembers object members) :=
  .act trivial

@[grind ←] theorem below_flight (object : Ref) (trace : List Layer) (causes : List ErrorBody) :
    Below r (change object (.flight trace causes)) (change object (.flight trace causes)) :=
  .act trivial

@[grind ←] theorem below_bodyObject (e : ErrorBody) : Below r (bodyObject e) (bodyObject e) := by
  unfold bodyObject
  grind -funext

@[grind ←] theorem below_bodyObjects (errors : List ErrorBody) :
    Below r (bodyObjects errors) (bodyObjects errors) := by
  induction errors with
  | nil => exact .pure _
  | cons e later ih =>
    unfold bodyObjects
    grind -funext

@[grind ←] theorem below_errorObject (e : Raised) : Below r (errorObject e) (errorObject e) := by
  unfold errorObject
  grind -funext

@[grind ←] theorem below_thrown (value : Ref) : Below r (thrown value) (thrown value) := by
  refine (Below.payload value).bind fun p => ?_
  dsimp only
  split
  · refine (below_errorObject _).bind fun value => ?_
    refine Below.bind (.ask fun _ => rfl) fun type => ?_
    grind -funext
  · refine Below.bind (.pure value) fun value => ?_
    refine Below.bind (.ask fun _ => rfl) fun type => ?_
    grind -funext

/-! ### Binding -/

@[grind ←] theorem below_bindValue (value this : Ref) :
    Below r (bindValue value this) (bindValue value this) := by
  unfold bindValue
  grind -funext

@[grind ←] theorem below_bindFound (found : Option Ref) (this : Ref) :
    Below r (bindFound found this) (bindFound found this) := by
  unfold bindFound
  grind -funext

@[grind ←] theorem below_prepare (callee : Ref) (args : List Ref) :
    Below r (prepare callee args) (prepare callee args) := by
  unfold prepare
  grind -funext

@[grind ←] theorem below_isStop (e : Raised) : Below r (isStop e) (isStop e) :=
  .ask fun h => h.unmetered_errorIs _ _

/-! ### Members -/

@[grind ←] theorem below_resolveHook (obj : Ref) (hook : String) :
    Below r (resolveHook obj hook) (resolveHook obj hook) := by
  unfold resolveHook
  grind -funext

@[grind ←] theorem below_lookupOnMetatype (type : Ref) (name : String) (access : Access) :
    Below r (lookupOnMetatype type name access) (lookupOnMetatype type name access) := by
  refine Below.bind (.ask fun _ => rfl) fun found => ?_
  grind -funext

theorem untimed_bindFound (found : Option Ref) (this : Ref) : (bindFound found this).Untimed := by
  cases found with
  | none => trivial
  | some value =>
    refine .bind (.bind (.bind trivial fun _ => trivial) fun payload => ?_) fun _ => trivial
    -- only a function is bound, which stores an object
    split
    · split <;> trivial
    · trivial

@[grind ←] theorem untimed_lookupOnMetatype (type : Ref) (name : String) (access : Access) :
    (lookupOnMetatype type name access).Untimed := by
  refine .bind trivial fun found => ?_
  cases access with
  | full => exact untimed_bindFound found type
  | probe => trivial

@[grind ←] theorem below_lookupInherited (obj : Ref) (o : Object) (name : String) (access : Access) :
    Below r (lookupInherited obj o name access) (lookupInherited obj o name access) := by
  unfold lookupInherited lookupInherited.inAncestors
  grind -funext

@[grind ←] theorem below_lookupMember (hk : k.Below k') (obj : Ref) (name : String)
    (access : Access) : Below r (lookupMember k obj name access) (lookupMember k' obj name access) := by
  refine (Below.load obj).bind fun o => ?_
  split
  · grind -funext
  split
  · grind -funext
  refine Below.bind (by grind -funext) fun getter => ?_
  split
  · grind -funext
  refine (below_lookupInherited obj o name access).bind fun found => ?_
  split
  · grind -funext
  refine Below.bind (by grind -funext) fun hook => ?_
  grind -funext

@[grind ←] theorem below_getMember (hk : k.Below k') (obj : Ref) (name : String) :
    Below r (getMember k obj name) (getMember k' obj name) := by
  unfold getMember
  grind -funext

@[grind ←] theorem below_checkTarget (obj : Ref) (name : String) :
    Below r (checkTarget obj name) (checkTarget obj name) := by
  unfold checkTarget
  grind -funext

@[grind ←] theorem below_runHook (hk : k.Below k') (obj : Ref) (stem name : String)
    (args : List Ref) : Below r (runHook k obj stem name args) (runHook k' obj stem name args) := by
  unfold runHook
  grind -funext

@[grind ←] theorem below_setMember (hk : k.Below k') (obj : Ref) (name : String) (value : Ref) :
    Below r (setMember k obj name value) (setMember k' obj name value) := by
  unfold setMember
  grind -funext

@[grind ←] theorem below_erase (obj : Ref) (name : String) :
    Below r (change obj (.erase name)) (change obj (.erase name)) :=
  .act trivial

@[grind ←] theorem below_deleteMember (hk : k.Below k') (obj : Ref) (name : String) :
    Below r (deleteMember k obj name) (deleteMember k' obj name) := by
  unfold deleteMember
  grind -funext

/-! ### Frames and calls -/

@[grind ←] theorem below_pop (f : Frame) : Below r (pop f) (pop f) := by
  unfold pop
  grind -funext

@[grind ←] theorem below_peek (f : Frame) : Below r (peek f) (peek f) := by
  unfold peek
  grind -funext

@[grind ←] theorem below_popMany (f : Frame) (count : Nat) :
    Below r (popMany f count) (popMany f count) := by
  unfold popMany
  grind -funext

@[grind ←] theorem below_target (f : Frame) (tag : String) : Below r (target f tag) (target f tag) := by
  unfold target
  grind -funext

@[grind ←] theorem below_defineAll (s : ScopeRef) (params : List (Param × Ref)) :
    Below r (defineAll s params) (defineAll s params) := by
  induction params with
  | nil => exact .pure _
  | cons p later ih =>
    unfold defineAll
    grind -funext

@[grind ←] theorem below_runCode (hk : k.Below k') (f : Function) (code : Code) (outer : ScopeRef)
    (generator : Bool) (args : Matched) :
    Below r (runCode k f code outer generator args) (runCode k' f code outer generator args) := by
  refine (Below.newScope outer).bind fun scope => ?_
  refine (below_defineAll scope _).bind fun _ => ?_
  dsimp only
  split
  · refine (Below.newList _).bind fun list => (Below.define _ _ _).bind fun _ => ?_
    grind -funext
  · grind -funext

theorem below_invoke (hk : k.Below k') {native native' : Native → List Ref → Engine Ref}
    (hn : ∀ n args, BelowWith (soleArgument args) r (native n args) (native' n args)) (p : Prepared) :
    BelowWith (soleArgument p.args.toList) r (invoke k native p) (invoke k' native' p) := by
  refine .calling _ _ ?_
  split
  · exact hn _ _
  · exact below_runCode hk _ _ _ _ _ _

theorem soleArgument_subset (args : List Ref) : soleArgument args ⊆ args := by
  unfold soleArgument
  split
  · exact List.Subset.refl _
  · exact List.nil_subset _

/-- Arguments that were put in their places are given, bound to the function, or default values of it. -/
theorem arguments_of_prepare {h : Heap} {callee : Ref} {args : List Ref} {p : Prepared}
    (accepted : h.prepare callee args = .ok (some p)) :
    ∃ f more, h.payload? callee = some (.function f) ∧ p.args.toList = f.bound ++ args ++ more ∧
      ∀ value ∈ more, .object value ∈ f.links := by
  simp only [Heap.prepare] at accepted
  split at accepted
  · rename_i f found
    split at accepted
    · rename_i matched fits
      cases accepted
      obtain ⟨more, all, defaults⟩ := Signature.toList_of_matchArgs fits
      refine ⟨f, more, found, all, fun value mem => ?_⟩
      obtain ⟨param, isParam, default⟩ := defaults value mem
      refine List.mem_append_left _ (List.mem_append_right _ (List.mem_flatMap.mpr ⟨param, isParam, ?_⟩))
      refine List.mem_append_right _ (List.mem_map_of_mem ?_)
      rw [default]
      exact List.mem_singleton_self value
    · cases accepted
  · cases accepted

/-- If a function and its arguments are kept alive, so are the arguments in their places. -/
theorem provides_prepare (callee : Ref) (args kept : List Ref) :
    (prepare callee args).Provides (callee :: args ++ kept) fun prepared =>
      (prepared.map fun p => p.args.toList).getD [] := by
  intro due m prepared m' keeps run value mem
  cases prepared with
  | none => cases mem
  | some p =>
    obtain ⟨o, m₁, loaded, asking⟩ := ok_of_bind run
    have same : m₁ = m := by
      simp only [Engine.load, runUnder, Op.perform] at loaded
      split at loaded <;> cases loaded
      rfl
    obtain ⟨result, m₂, asked, matching⟩ := ok_of_bind asking
    obtain ⟨rfl, rfl⟩ : m₁.heap.prepare callee args = result ∧ m₁ = m₂ := EStateM.Result.ok.inj asked
    subst same
    have accepted : m₁.heap.prepare callee args = .ok (some p) ∧ m₁ = m' := by
      split at matching
      · rename_i prepared fits
        cases matching
        exact ⟨fits, rfl⟩
      · cases matching
    obtain ⟨accepted, rfl⟩ := accepted
    obtain ⟨f, more, found, all, links⟩ := arguments_of_prepare accepted
    have callee : m₁.Keeps callee := keeps callee List.mem_cons_self
    simp only [Option.map_some, Option.getD_some, all, List.mem_append] at mem
    rcases mem with (bound | given) | default
    · refine .function callee found (List.mem_append_left _ (List.mem_append_left _ ?_))
      exact List.mem_map_of_mem bound
    · exact keeps value (List.mem_cons_of_mem _ (List.mem_append_left _ given))
    · exact .function callee found (links value default)

theorem below_call (hk : k.Below k') (callee : Ref) (args : List Ref) :
    Below r (call k callee args) (call k' callee args) := by
  intro kept
  refine .keepingObjects ?_
  refine .andThen _ (provides_prepare callee args kept) (below_prepare callee args _) fun prepared _ => ?_
  cases prepared with
  | some p =>
    refine (hk.invoke _ p).mono ?_
    exact List.subset_append_of_subset_left _ (soleArgument_subset _)
  | none =>
    refine Below.bind (.ask fun _ => rfl) (fun method => ?_) _
    grind -funext

@[grind ←] theorem below_instantiate (hk : k.Below k') (type : Ref) (args : List Ref) :
    Below r (instantiate k type args) (instantiate k' type args) := by
  refine Below.bind (.ask fun _ => rfl) fun create => ?_
  refine Below.bind (.ask fun _ => rfl) fun init => ?_
  dsimp only
  split
  · grind -funext
  · split
    · grind -funext
    · refine (Below.newOf type rfl).bind fun made => ?_
      grind -funext

/-! ### Operators -/

/-- The only argument in its place, if there is but one, is an operand. -/
theorem soleArgument_of_choose {h : Heap} {name : String} {args types : List Ref} {p : Prepared}
    (some : args ≠ []) (chosen : h.choose name args types = .ok (.invoke p)) :
    soleArgument p.args.toList ⊆ args := by
  obtain ⟨method, accepted⟩ := Heap.exists_of_choose chosen
  obtain ⟨f, more, -, all, -⟩ := arguments_of_prepare accepted
  obtain ⟨first, later, rfl⟩ := List.exists_cons_of_ne_nil some
  intro value mem
  unfold soleArgument at mem
  split at mem
  · rename_i only alone
    -- there is a first operand, so it is what stands alone
    have single : f.bound ++ (first :: later ++ more) = [only] := by
      rw [← alone, all, List.append_assoc]
    cases bound : f.bound with
    | nil =>
      rw [bound, List.nil_append, List.cons_append] at single
      rw [List.mem_singleton.mp mem, ← (List.cons.inj single).1]
      exact List.mem_cons_self
    | cons _ _ => simp [bound] at single
  · cases mem

@[grind ←] theorem below_dispatch (hk : k.Below k') (name : String) (args : List Ref)
    {fallback fallback' : Option (Engine Ref)} (same : fallback.isSome = fallback'.isSome)
    (hf : ∀ x x', fallback = some x → fallback' = some x' → Below { r with roots := true } x x') :
    Below r (dispatch k name args fallback) (dispatch k' name args fallback') := by
  intro kept
  refine .keepingObjects ?_
  split
  · exact Below.raise _ _
  refine .andThen (fun _ => []) (fun _ _ => List.forall_mem_nil _)
    (Below.ask (fun h => h.unmetered_operandTypes name args) _) fun types given => ?_
  refine .andThen (fun _ => []) (fun _ _ => List.forall_mem_nil _)
    (Below.ask (fun h => h.unmetered_choose name args types) _) fun choice chosen => ?_
  split
  · rename_i p
    obtain ⟨_, _, _, asked⟩ := chosen
    have accepted := (EStateM.Result.ok.inj asked).1
    have some : args ≠ [] := by
      rintro rfl
      -- without operands no Types are asked, so nothing is chosen
      obtain ⟨_, m, _, asked'⟩ := given
      have none : types = [] := by
        rw [← (EStateM.Result.ok.inj asked').1]
        unfold Heap.operandTypes
        split <;> rfl
      rw [none] at accepted
      cases accepted
    refine .holding _ ((hk.invoke _ p).mono ?_)
    exact List.subset_append_of_subset_right _ (List.subset_append_of_subset_right _
      (List.subset_append_of_subset_left _ (soleArgument_of_choose some accepted)))
  · exact hk.call _ _ _ _
  · cases fallback with
    | none =>
      cases fallback' with
      | none => exact (show Below _ _ _ by grind) _
      | some x' => cases same
    | some x =>
      cases fallback' with
      | none => cases same
      | some x' => exact hf x x' rfl rfl _

@[grind ←] theorem below_truthy (hk : k.Below k') (value : Ref) :
    Below r (truthy k value) (truthy k' value) := by
  refine (Below.load value).bind fun o => ?_
  split
  case h_8 =>
    refine (below_dispatch hk _ _ rfl ?_).bind fun result => by grind -funext
    rintro _ _ ⟨⟩ ⟨⟩
    exact .pure _
  all_goals exact .pure _

@[grind ←] theorem below_typeText (value : Ref) : Below r (typeText value) (typeText value) := by
  unfold typeText
  grind -funext

@[grind ←] theorem below_meaning (hk : k.Below k') (args : List Ref) (f : Special.Fallback) :
    Below r (meaning k args f) (meaning k' args f) := by
  cases f with
  | identity => unfold meaning; grind -funext
  | unequal =>
    refine (below_dispatch hk _ _ rfl ?_).bind fun equal => by grind -funext
    rintro _ _ ⟨⟩ ⟨⟩
    grind -funext
  | truth => exact .pure _
  | typeText => unfold meaning; grind -funext

@[grind ←] theorem below_callOperator (hk : k.Below k') (name : String) (args : List Ref)
    (anyValue : Bool) :
    Below r (callOperator k name args anyValue) (callOperator k' name args anyValue) := by
  refine below_dispatch hk _ _ ?_ ?_
  · cases anyValue <;> simp
  · intro x x' given given'
    cases anyValue with
    | false => cases given
    | true =>
      obtain ⟨fallback, found, rfl⟩ := Option.map_eq_some_iff.mp given
      obtain ⟨fallback', found', rfl⟩ := Option.map_eq_some_iff.mp given'
      cases found.symm.trans found'
      exact below_meaning hk args fallback

@[grind ←] theorem below_display (hk : k.Below k') (value : Ref) :
    Below r (display k value) (display k' value) := by
  refine (Below.load value).bind fun o => ?_
  split
  · exact .pure _
  · refine (below_callOperator hk "op_str" [value] true).bind fun result => ?_
    grind -funext

@[grind ←] theorem below_shown (hk : k.Below k') (value : Ref) :
    Below r (shown k value) (shown k' value) := by
  unfold shown
  grind -funext

@[grind ←] theorem below_equals (hk : k.Below k') (a b : Ref) :
    Below r (equals k a b) (equals k' a b) := by
  unfold equals
  grind -funext

end Engine

end ObjectMachine
