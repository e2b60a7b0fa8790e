import ObjectMachine.Proofs.Receivers
/-!
No computation of the machine finds data of another kind than it reads: values are checked right before
they are read, and the arguments of built-in functions hold what these read.
-/
namespace ObjectMachine

/-- The entry points of the engine honour their contracts: a function is run with arguments that hold
what it reads. -/
structure Reentry.IsCareful (k : Reentry) : Prop where
  /-- Calls. -/
  call : ∀ callee args, (k.call callee args).Careful
  /-- Runs of functions. -/
  invoke : ∀ p : Prepared, (k.invoke p).Honours (p.Supplied ·) (fun _ _ => True)
  /-- Runs of frames. -/
  runFrame : ∀ f, (k.runFrame f).Careful
  /-- Iterations. -/
  drain : ∀ iterator taken, (k.drain iterator taken).Careful

attribute [grind ←] Reentry.IsCareful.call Reentry.IsCareful.runFrame Reentry.IsCareful.drain

namespace Engine

variable {k : Reentry}

/-! ### Errors -/

@[grind ←] theorem careful_newErrorObject (e : ErrorBody) (causes : List ErrorBody) :
    (newErrorObject e causes).Careful := by
  refine Careful.bind (careful_newOf _ fun _ => ?_) fun object => ?_
  · trivial
  · grind

@[grind ←] theorem careful_writeMembers (object : Ref) (members : List (String × Ref)) :
    (writeMembers object members).Careful :=
  Careful.act fun _ => trivial

@[grind ←] theorem careful_bodyObject (e : ErrorBody) : (bodyObject e).Careful := by
  unfold bodyObject
  grind

@[grind ←] theorem careful_bodyObjects (errors : List ErrorBody) : (bodyObjects errors).Careful := by
  induction errors with
  | nil => exact .pure _
  | cons e later ih =>
    unfold bodyObjects
    grind

@[grind ←] theorem careful_errorObject (e : Raised) : (errorObject e).Careful := by
  unfold errorObject
  grind

@[grind ←] theorem careful_thrown (value : Ref) : (thrown value).Careful := by
  refine (careful_payload value).bind fun p => ?_
  dsimp only
  split
  · refine (careful_errorObject _).bind fun value => ?_
    refine (careful_ask _).bind fun type => ?_
    grind
  · refine (careful_ask _).bind fun type => ?_
    grind

/-! ### Binding -/

theorem isDeclared_of_bind {f bound : Function} {this : Ref} (h : f.bind this = .ok bound) :
    bound.isDeclared = f.isDeclared := by
  simp only [Function.bind] at h
  split at h <;> cases h
  rfl

/-- A function object is declared with what it reads. -/
theorem isDeclared_of_payload {h : Heap} (sound : h.Sound) {r : Ref} {f : Function}
    (found : h.payload? r = some (.function f)) : f.isDeclared := by
  obtain ⟨o, at_r, function⟩ := Option.map_eq_some_iff.mp found
  have relies := sound.reliable r o at_r
  rw [function] at relies
  exact relies

@[grind ←] theorem careful_bindValue (value this : Ref) : (bindValue value this).Careful := by
  refine (honours_payload value).bind fun p => ?_
  split
  · rename_i f
    split
    · rename_i bound bind
      refine (honours_new (.function bound)).weaken ?_ fun _ _ _ => id
      rintro h sound ⟨-, found⟩
      exact (isDeclared_of_bind bind).trans (isDeclared_of_payload sound found)
    · exact (careful_raise (by grind [Function.bind])).honours
  · exact (Careful.pure _).honours

@[grind ←] theorem careful_bindFound (found : Option Ref) (this : Ref) :
    (bindFound found this).Careful := by
  unfold bindFound
  grind

/-- Arguments that were put in their places hold what the function reads. -/
theorem honours_prepare (callee : Ref) (args : List Ref) :
    (prepare callee args).Honours (fun _ => True)
      (fun prepared h => ∀ p, prepared = some p → p.Supplied h) := by
  refine Honours.bind (careful_load callee) fun o => ?_
  refine (honours_ask _).bind fun result => ?_
  split
  · rename_i prepared
    refine (Honours.pure prepared).weaken ?_ fun _ _ _ => id
    rintro h sound ⟨-, accepted⟩ p rfl
    exact sound.supplied accepted.symm
  · exact (Honours.throw _ fun _ => id)

@[grind ←] theorem careful_isStop (e : Raised) : (isStop e).Careful := careful_ask _

/-! ### Members -/

@[grind ←] theorem careful_resolveHook (obj : Ref) (hook : String) : (resolveHook obj hook).Careful := by
  unfold resolveHook
  grind

@[grind ←] theorem careful_lookupOnMetatype (type : Ref) (name : String) (access : Access) :
    (lookupOnMetatype type name access).Careful := by
  unfold lookupOnMetatype
  grind

@[grind ←] theorem careful_lookupInherited (obj : Ref) (o : Object) (name : String) (access : Access) :
    (lookupInherited obj o name access).Careful := by
  unfold lookupInherited lookupInherited.inAncestors
  grind

@[grind ←] theorem careful_lookupMember (hk : k.IsCareful) (obj : Ref) (name : String)
    (access : Access) : (lookupMember k obj name access).Careful := by
  refine (careful_load obj).bind fun o => ?_
  split
  · grind
  split
  · grind
  refine Careful.bind (by grind) fun getter => ?_
  split
  · grind
  refine (careful_lookupInherited obj o name access).bind fun found => ?_
  split
  · grind
  refine Careful.bind (by grind) fun hook => ?_
  grind

@[grind ←] theorem careful_getMember (hk : k.IsCareful) (obj : Ref) (name : String) :
    (getMember k obj name).Careful := by
  unfold getMember
  grind

@[grind ←] theorem careful_checkTarget (obj : Ref) (name : String) : (checkTarget obj name).Careful := by
  unfold checkTarget
  grind

@[grind ←] theorem careful_runHook (hk : k.IsCareful) (obj : Ref) (stem name : String)
    (args : List Ref) : (runHook k obj stem name args).Careful := by
  unfold runHook
  grind

@[grind ←] theorem careful_setMember (hk : k.IsCareful) (obj : Ref) (name : String) (value : Ref) :
    (setMember k obj name value).Careful := by
  unfold setMember
  grind

@[grind ←] theorem careful_deleteMember (hk : k.IsCareful) (obj : Ref) (name : String) :
    (deleteMember k obj name).Careful := by
  unfold deleteMember
  grind

/-! ### Frames and calls -/

@[grind ←] theorem careful_pop (f : Frame) : (pop f).Careful := by
  unfold pop
  grind

@[grind ←] theorem careful_peek (f : Frame) : (peek f).Careful := by
  unfold peek
  grind

@[grind ←] theorem careful_popMany (f : Frame) (count : Nat) : (popMany f count).Careful := by
  unfold popMany
  grind

@[grind ←] theorem careful_target (f : Frame) (tag : String) : (target f tag).Careful := by
  unfold target
  grind

@[grind ←] theorem careful_defineAll (s : ScopeRef) (params : List (Param × Ref)) :
    (defineAll s params).Careful := by
  induction params with
  | nil => exact .pure _
  | cons p later ih =>
    unfold defineAll
    grind

theorem careful_runCode (hk : k.IsCareful) (f : Function) (code : Code) (outer : ScopeRef)
    (generator : Bool) (args : Matched) : (runCode k f code outer generator args).Careful := by
  refine (careful_newScope outer).bind fun scope => ?_
  refine (careful_defineAll scope _).bind fun _ => ?_
  dsimp only
  split
  · refine (careful_newList _).bind fun list => (careful_define _ _ _).bind fun _ => ?_
    split
    · exact careful_new fun _ => trivial
    · grind
  · split
    · exact careful_new fun _ => trivial
    · grind

/-- A function is run with arguments that hold what it reads. -/
theorem honours_invoke (hk : k.IsCareful) {native : Native → List Ref → Engine Ref}
    (hn : ∀ n args, (native n args).Honours (·.Supplies n.needs args) (fun _ _ => True))
    (p : Prepared) : (invoke k native p).Honours (p.Supplied ·) (fun _ _ => True) := by
  refine Honours.calling _ _ ?_
  split
  · rename_i n body
    refine (hn n p.args.toList).weaken ?_ fun _ _ _ => id
    intro h _ supplied
    simpa only [Prepared.Supplied, body] using supplied
  · exact (careful_runCode hk _ _ _ _ _).honours

theorem careful_call (hk : k.IsCareful) (callee : Ref) (args : List Ref) :
    (call k callee args).Careful := by
  refine Careful.keeping _ ?_
  refine Honours.bind (honours_prepare callee args) fun prepared => ?_
  split
  · rename_i p
    refine (hk.invoke p).weaken ?_ fun _ _ _ => id
    exact fun h _ supplied => supplied p rfl
  · refine Careful.honours ?_
    grind

theorem careful_instantiate (hk : k.IsCareful) (type : Ref) (args : List Ref) :
    (instantiate k type args).Careful := by
  refine (careful_ask _).bind fun create => ?_
  refine (careful_ask _).bind fun init => ?_
  dsimp only
  split
  · grind
  · split
    · grind
    · refine Careful.bind (careful_newOf type fun _ => ?_) fun made => ?_
      · trivial
      · grind

/-! ### Operators -/

@[grind ←] theorem careful_dispatch (hk : k.IsCareful) (name : String) (args : List Ref)
    {fallback : Option (Engine Ref)} (hf : ∀ x, fallback = some x → x.Careful) :
    (dispatch k name args fallback).Careful := by
  refine Careful.keeping _ ?_
  split
  · grind
  refine (careful_ask _).bind fun types => ?_
  refine Honours.bind (honours_ask _) fun choice => ?_
  split
  · rename_i p
    refine Honours.holding _ ((hk.invoke p).weaken ?_ fun _ _ _ => id)
    rintro h sound ⟨-, chosen⟩
    exact sound.supplied_of_choose chosen.symm
  · exact (hk.call _ _).honours
  · split
    · exact (hf _ rfl).honours
    · refine Careful.honours ?_
      grind

@[grind ←] theorem careful_truthy (hk : k.IsCareful) (value : Ref) : (truthy k value).Careful := by
  refine (careful_load value).bind fun o => ?_
  split
  case h_8 =>
    refine Careful.bind (careful_dispatch hk _ _ ?_) fun result => by grind
    rintro _ ⟨⟩
    exact .pure _
  all_goals exact .pure _

@[grind ←] theorem careful_typeText (value : Ref) : (typeText value).Careful := by
  unfold typeText
  grind

@[grind ←] theorem careful_meaning (hk : k.IsCareful) (args : List Ref) (f : Special.Fallback) :
    (meaning k args f).Careful := by
  cases f with
  | identity => unfold meaning; grind
  | unequal =>
    refine Careful.bind (careful_dispatch hk _ _ ?_) fun equal => by grind
    rintro _ ⟨⟩
    grind
  | truth => exact .pure _
  | typeText => unfold meaning; grind

@[grind ←] theorem careful_callOperator (hk : k.IsCareful) (name : String) (args : List Ref)
    (anyValue : Bool) : (callOperator k name args anyValue).Careful := by
  refine careful_dispatch hk _ _ ?_
  intro x given
  split at given
  · obtain ⟨fallback, -, rfl⟩ := Option.map_eq_some_iff.mp given
    exact careful_meaning hk args fallback
  · cases given

@[grind ←] theorem careful_display (hk : k.IsCareful) (value : Ref) : (display k value).Careful := by
  refine (careful_load value).bind fun o => ?_
  grind

@[grind ←] theorem careful_shown (hk : k.IsCareful) (value : Ref) : (shown k value).Careful := by
  unfold shown
  grind

@[grind ←] theorem careful_equals (hk : k.IsCareful) (a b : Ref) : (equals k a b).Careful := by
  unfold equals
  grind

end Engine

end ObjectMachine
