import ObjectMachine.Proofs.Fuel.Run
/-!
Routine computations. Almost everything that the engine does is put together from operations on data and
from the entry points of the engine: it runs no frame itself, opens no scope and is in charge of no
protected block. The exceptions are few: the start of a function, the body of a Type, a protected block,
and the resumption of a generator. `Engine.Routine` sorts this out once; what holds of the entry points and
of these few then holds of everything the engine does, by one induction.
-/
namespace ObjectMachine

/-- Whether an event opens or closes a bracket: a call or a protected block. -/
def Event.isBracket : Event → Bool
  | call .. | leave _ | tryEnter _ | tryExit _ => true
  | _ => false

/-- Whether data refers to scopes. -/
@[reducible] def Payload.isCode : Payload → Bool
  | function _ | generator .. => true
  | _ => false

/-- Whether an interruption is that of a scope without one around it. -/
@[reducible] def Interrupt.isOutermost : Interrupt → Bool
  | defect .outermostScope _ => true
  | _ => false

/-- An operation on data and variables: it opens no scope, stores no code and no Type, puts no generator into a
state, reports no bracket and neither books an instruction nor collects garbage. -/
def Op.Routine {α : Type} : Op α → Prop
  | store o => o.payload.isCode = false
  | change _ (.generator _) => False
  | observe e => ∀ depth, (e depth).isBracket = false
  | storeType .. | openScope _ | tick | collectIfDue _ | beginRequest => False
  | _ => True

namespace Engine

/-- A computation that is put together from operations on data and the entry points of the engine. It also
binds functions, applies operators and asks generators for items. -/
inductive Routine (k : Reentry) : {α : Type} → Engine α → Prop where
  | give {α : Type} (a : α) : Routine k (give a)
  | throw {α : Type} (e : Interrupt) (other : e.isOutermost = false) : Routine k (throw e : Engine α)
  | act {α : Type} {o : Op α} (routine : o.Routine) : Routine k (act o)
  | andThen {α β : Type} {x : Engine α} {f : α → Engine β} (first : Routine k x)
    (later : ∀ a, Routine k (f a)) : Routine k (andThen x f)
  | keeping {α : Type} {x : Engine α} (refs : List Ref) (inner : Routine k x) :
    Routine k (keeping (objectNodes refs) x)
  | holding {α : Type} {x : Engine α} (nodes : List Node) (inner : Routine k x) :
    Routine k (holding nodes x)
  | catching {α : Type} {x : Engine α} (inner : Routine k x) : Routine k (catching x)
  | forgiving {α : Type} {x : Engine α} (inner : Routine k x) : Routine k (forgiving x)
  | bindValue (value this : Ref) : Routine k (bindValue value this)
  | bindFunction (function this : Ref) :
    Routine k (functionOf function >>= fun f =>
      match f.bind this with
      | .ok bound => new (.function bound)
      | .error cause => raise cause)
  | dispatch (name : String) (args : List Ref) {fallback : Option (Engine Ref)}
    (other : ∀ x, fallback = some x → Routine k x) : Routine k (dispatch k name args fallback)
  | generatorNext (generator : Ref) : Routine k (generatorNext k generator)
  | call (callee : Ref) (args : List Ref) : Routine k (k.call callee args)
  | drain (iterator : Ref) (taken : List Ref) : Routine k (k.drain iterator taken)

variable {α β : Type} {k : Reentry}

/-! ### Frequent computations -/

namespace Routine

theorem pure (a : α) : Routine k (Pure.pure a) := .give a

theorem bind {x : Engine α} {f : α → Engine β} (first : Routine k x) (later : ∀ a, Routine k (f a)) :
    Routine k (x >>= f) :=
  .andThen first later

theorem keepingObjects {x : Engine α} (refs : List Ref) (inner : Routine k x) :
    Routine k (Engine.keepingObjects refs x) :=
  .keeping _ inner

theorem raise (c : Cause) : Routine k (Engine.raise c : Engine α) := .act trivial

theorem fail (d : Defect) (other : d ≠ .outermostScope) : Routine k (Engine.fail d : Engine α) := by
  refine .throw _ ?_
  cases d <;> first | rfl | exact (other rfl).elim

theorem ask (f : Heap → α) : Routine k (Engine.ask f) := .act trivial

theorem load (r : Ref) : Routine k (Engine.load r) := .act trivial

theorem payload (r : Ref) : Routine k (Engine.payload r) := (load r).bind fun o => .pure o.payload

theorem loadScope (s : ScopeRef) : Routine k (Engine.loadScope s) := .act trivial

theorem new {p : Payload} (data : p.isCode = false) : Routine k (Engine.new p) := .act data

theorem newOf (type : Ref) {p : Payload} (data : p.isCode = false) : Routine k (Engine.newOf type p) :=
  .act data

theorem writeMember (r : Ref) (name : String) (value : Ref) : Routine k (Engine.writeMember r name value) :=
  .act trivial

theorem writeMembers (r : Ref) (members : List (String × Ref)) : Routine k (Engine.writeMembers r members) :=
  .act trivial

theorem erase (r : Ref) (name : String) : Routine k (change r (.erase name)) := .act trivial

theorem flight (r : Ref) (trace : List Layer) (causes : List ErrorBody) :
    Routine k (change r (.flight trace causes)) :=
  .act trivial

theorem items (list : Ref) (f : Array Ref → Array Ref) : Routine k (change list (.items f)) := .act trivial

theorem entries (map : Ref) (f : Entries → Entries) : Routine k (change map (.entries f)) := .act trivial

theorem cursor (iterator : Ref) (cursor : Cursor) : Routine k (change iterator (.cursor cursor)) :=
  .act trivial

theorem define (s : ScopeRef) (name : String) (value : Ref) : Routine k (Engine.define s name value) :=
  .act trivial

theorem pushRoots (nodes : List Node) : Routine k (Engine.pushRoots nodes) := .act trivial

theorem print (s : String) : Routine k (Engine.print s) := .act trivial

theorem newInt (i : Int64) : Routine k (Engine.newInt i) := new rfl

theorem newNum (x : Binary64) : Routine k (Engine.newNum x) := new rfl

theorem newStr (s : String) : Routine k (Engine.newStr s) := new rfl

theorem newList (items : List Ref) : Routine k (Engine.newList items) := new rfl

theorem unexpected (expected : String) (r : Ref) : Routine k (Engine.unexpected expected r : Engine α) :=
  (payload r).bind fun _ => fail _ (by nofun)

end Routine

attribute [grind ←] Routine.throw Routine.keeping Routine.holding Routine.catching Routine.forgiving
  Routine.bindValue Routine.generatorNext Routine.call Routine.drain Routine.pure Routine.bind
  Routine.keepingObjects Routine.raise Routine.fail Routine.ask Routine.load Routine.payload
  Routine.loadScope Routine.new Routine.newOf Routine.writeMember Routine.writeMembers Routine.erase
  Routine.flight Routine.items Routine.entries Routine.cursor Routine.define Routine.pushRoots Routine.print
  Routine.newInt Routine.newNum Routine.newStr Routine.newList Routine.unexpected

/-! ### Errors -/

@[grind ←] theorem routine_bodyObject (e : ErrorBody) : Routine k (bodyObject e) := by
  unfold bodyObject newErrorObject
  grind -funext

@[grind ←] theorem routine_bodyObjects (errors : List ErrorBody) : Routine k (bodyObjects errors) := by
  induction errors with
  | nil => exact .pure _
  | cons e later ih =>
    unfold bodyObjects
    grind -funext

@[grind ←] theorem routine_errorObject (e : Raised) : Routine k (errorObject e) := by
  unfold errorObject newErrorObject
  grind -funext

@[grind ←] theorem routine_thrown (value : Ref) : Routine k (thrown value) := by
  refine (Routine.payload value).bind fun p => ?_
  dsimp only
  split
  · refine (routine_errorObject _).bind fun value => (Routine.ask _).bind fun type => ?_
    grind -funext
  · refine (Routine.pure value).bind fun value => (Routine.ask _).bind fun type => ?_
    grind -funext

/-! ### Binding and members -/

@[grind ←] theorem routine_bindFound (found : Option Ref) (this : Ref) : Routine k (bindFound found this) := by
  unfold bindFound
  grind -funext

@[grind ←] theorem routine_isStop (e : Raised) : Routine k (isStop e) := .ask _

@[grind ←] theorem routine_resolveHook (obj : Ref) (hook : String) : Routine k (resolveHook obj hook) := by
  unfold resolveHook
  grind -funext

@[grind ←] theorem routine_lookupOnMetatype (type : Ref) (name : String) (access : Access) :
    Routine k (lookupOnMetatype type name access) := by
  unfold lookupOnMetatype
  grind -funext

@[grind ←] theorem routine_lookupInherited (obj : Ref) (o : Object) (name : String) (access : Access) :
    Routine k (lookupInherited obj o name access) := by
  unfold lookupInherited lookupInherited.inAncestors
  grind -funext

@[grind ←] theorem routine_lookupMember (obj : Ref) (name : String) (access : Access) :
    Routine k (lookupMember k obj name access) := by
  refine (Routine.load obj).bind fun o => ?_
  split
  · grind -funext
  split
  · grind -funext
  refine Routine.bind (by grind -funext) fun getter => ?_
  split
  · grind -funext
  refine (routine_lookupInherited obj o name access).bind fun found => ?_
  split
  · grind -funext
  refine Routine.bind (by grind -funext) fun hook => ?_
  grind -funext

@[grind ←] theorem routine_getMember (obj : Ref) (name : String) : Routine k (getMember k obj name) := by
  unfold getMember
  grind -funext

@[grind ←] theorem routine_checkTarget (obj : Ref) (name : String) : Routine k (checkTarget obj name) := by
  unfold checkTarget
  grind -funext

@[grind ←] theorem routine_runHook (obj : Ref) (stem name : String) (args : List Ref) :
    Routine k (runHook k obj stem name args) := by
  unfold runHook
  grind -funext

@[grind ←] theorem routine_setMember (obj : Ref) (name : String) (value : Ref) :
    Routine k (setMember k obj name value) := by
  unfold setMember
  grind -funext

@[grind ←] theorem routine_deleteMember (obj : Ref) (name : String) :
    Routine k (deleteMember k obj name) := by
  unfold deleteMember
  grind -funext

/-! ### Operators -/

@[grind ←] theorem routine_truthy (value : Ref) : Routine k (truthy k value) := by
  refine (Routine.load value).bind fun o => ?_
  split
  case h_8 =>
    refine Routine.bind (.dispatch _ _ ?_) fun result => by grind -funext
    rintro _ ⟨⟩
    exact .pure _
  all_goals exact .pure _

@[grind ←] theorem routine_meaning (args : List Ref) (f : Special.Fallback) :
    Routine k (meaning k args f) := by
  cases f with
  | identity => unfold meaning; grind -funext
  | unequal =>
    refine Routine.bind (.dispatch _ _ ?_) fun equal => by grind -funext
    rintro _ ⟨⟩
    grind -funext
  | truth => exact .pure _
  | typeText => unfold meaning typeText; grind -funext

@[grind ←] theorem routine_callOperator (name : String) (args : List Ref) (anyValue : Bool) :
    Routine k (callOperator k name args anyValue) := by
  refine .dispatch _ _ ?_
  intro x given
  split at given
  · obtain ⟨fallback, -, rfl⟩ := Option.map_eq_some_iff.mp given
    exact routine_meaning args fallback
  · cases given

@[grind ←] theorem routine_display (value : Ref) : Routine k (display k value) := by
  refine (Routine.load value).bind fun o => ?_
  grind -funext

@[grind ←] theorem routine_shown (value : Ref) : Routine k (shown k value) := by
  unfold shown
  grind -funext

@[grind ←] theorem routine_equals (a b : Ref) : Routine k (equals k a b) := by
  unfold equals
  grind -funext

theorem routine_instantiate (type : Ref) (args : List Ref) : Routine k (instantiate k type args) := by
  refine (Routine.ask _).bind fun create => (Routine.ask _).bind fun init => ?_
  dsimp only
  split
  · grind -funext
  · split
    · grind -funext
    · refine (Routine.newOf type rfl).bind fun made => ?_
      grind -funext

/-! ### Iteration -/

@[grind ←] theorem routine_getIterator (value : Ref) : Routine k (getIterator k value) := by
  unfold getIterator
  grind -funext

@[grind ←] theorem routine_advance (cursor : Cursor) : Routine k (advance cursor) := by
  unfold advance
  split
  all_goals grind -funext

@[grind ←] theorem routine_iteratorNext (iterator : Ref) : Routine k (iteratorNext iterator) := by
  unfold iteratorNext
  grind -funext

@[grind ←] theorem routine_iterateNext (iterator : Ref) : Routine k (iterateNext k iterator) := by
  unfold iterateNext
  grind -funext

/-- An iteration goes on through the entry point. -/
theorem routine_drain (iterator : Ref) (taken : List Ref) :
    Routine k (Engine.drain k iterator taken) := by
  unfold Engine.drain
  grind -funext

@[grind ←] theorem routine_collectItems (iterable : Ref) : Routine k (collectItems k iterable) :=
  (routine_getIterator iterable).bind fun iterator => .keepingObjects _ (routine_drain iterator [])

end Engine

end ObjectMachine
