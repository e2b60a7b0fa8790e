import ObjectMachine.Proofs.Caution.Natives
/-!
Instructions, frames and requests find the data that they read.
-/
namespace ObjectMachine

namespace Engine

variable {k : Reentry}

/-! ### Protected blocks -/

@[grind ←] theorem careful_runSection (hk : k.IsCareful) (phase : Phase) (resumed : Bool)
    (pending : Pending) (body : Frame) : (runSection k phase resumed pending body).Careful := by
  unfold runSection
  grind

@[grind ←] theorem careful_finishBlock (f : Frame) (next : Nat) (pending : Pending) :
    (finishBlock f next pending).Careful := by
  unfold finishBlock
  grind

@[grind ←] theorem careful_runCleanup (hk : k.IsCareful) (f : Frame) (next : Nat) (resumed : Bool)
    (pending : Pending) (body : Frame) : (runCleanup k f next resumed pending body).Careful := by
  unfold runCleanup
  grind

@[grind ←] theorem careful_startCleanup (hk : k.IsCareful) (f : Frame) (sections : Sections)
    (pending : Pending) : (startCleanup k f sections pending).Careful := by
  unfold startCleanup
  grind

@[grind ←] theorem careful_runHandler (hk : k.IsCareful) (f : Frame) (sections : Sections)
    (resumed : Bool) (body : Frame) : (runHandler k f sections resumed body).Careful := by
  unfold runHandler
  grind

@[grind ←] theorem careful_startHandler (hk : k.IsCareful) (f : Frame) (sections : Sections)
    (binding : Option String) (code : Code) (e : Raised) :
    (startHandler k f sections binding code e).Careful := by
  unfold startHandler
  grind

@[grind ←] theorem careful_runGuarded (hk : k.IsCareful) (f : Frame) (sections : Sections)
    (binding : Option String) (resumed : Bool) (body : Frame) :
    (runGuarded k f sections binding resumed body).Careful := by
  unfold runGuarded
  grind

@[grind ←] theorem careful_protect (hk : k.IsCareful) (f : Frame) (block : String)
    (binding : Option String) : (protect k f block binding).Careful := by
  unfold protect
  grind

/-! ### Definitions -/

@[grind ←] theorem careful_readVariable (s : ScopeRef) (name : String) : (readVariable s name).Careful := by
  unfold readVariable
  grind

@[grind ←] theorem careful_declaredType (s : ScopeRef) (spec : ParamSpec) :
    (declaredType s spec).Careful := by
  unfold declaredType
  grind

@[grind ←] theorem careful_parameters (s : ScopeRef) (specs : List ParamSpec) (defaults : List Ref) :
    (parameters s specs defaults).Careful := by
  induction specs generalizing defaults with
  | nil => exact .pure _
  | cons spec later ih =>
    refine (careful_declaredType s spec).bind fun type => ?_
    grind

@[grind ←] theorem careful_makeFunction (f : Frame) (name body : String) (specs : List ParamSpec)
    (generator : Bool) : (makeFunction f name body specs generator).Careful := by
  refine (careful_popMany f _).bind fun popped => ?_
  refine (careful_parameters _ specs _).bind fun params => ?_
  split
  · grind
  · split
    · grind
    · refine (careful_observe _).bind fun _ => ?_
      exact Careful.bind (careful_new fun _ => rfl) fun function => .pure _

@[grind ←] theorem careful_checkParents (name : String) (seen parents : List Ref) :
    (checkParents name seen parents).Careful := by
  induction parents generalizing seen with
  | nil => exact .pure _
  | cons parent later ih =>
    unfold checkParents
    grind

@[grind ←] theorem careful_newType (name : String) (parents : List Ref) :
    (newType name parents).Careful := by
  refine Careful.bind (Careful.act fun _ => trivial) fun result => ?_
  split
  · grind
  · refine (careful_ask _).bind fun names => careful_raise ?_
    rename_i fault
    cases fault <;> rfl

@[grind ←] theorem careful_addMembers (type : Ref) (name : String) (members : List (String × Ref)) :
    (addMembers type name members).Careful := by
  induction members with
  | nil => exact .pure _
  | cons member later ih =>
    unfold addMembers
    grind

@[grind ←] theorem careful_makeClass (hk : k.IsCareful) (f : Frame) (name body : String) (count : Nat) :
    (makeClass k f name body count).Careful := by
  refine (careful_popMany f count).bind fun popped => ?_
  refine (careful_checkParents name [] _).bind fun _ => ?_
  refine (careful_newType name _).bind fun type => ?_
  split
  · grind
  refine (careful_newScope _).bind fun scope => ?_
  refine Careful.bind (Careful.nested (careful_keepingObjects _ (hk.runFrame _))) fun ended => ?_
  grind

/-! ### Instructions -/

theorem careful_replaceTop (f : Frame) {x : Ref → Engine Ref} (hx : ∀ operand, (x operand).Careful) :
    (replaceTop f x).Careful := by
  unfold replaceTop
  grind

@[grind ←] theorem careful_branch (f : Frame) (tag : String) (taken : Bool) :
    (branch f tag taken).Careful := by
  unfold branch
  grind

@[grind ←] theorem careful_assign (s : ScopeRef) (name : String) (value : Ref) :
    (execute.assign s name value).Careful := by
  refine (careful_ask _).bind fun known => ?_
  split
  · exact Careful.act fun _ => trivial
  · exact careful_raise rfl

@[grind ←] theorem careful_undefine (s : ScopeRef) (name : String) :
    (execute.undefine s name).Careful := by
  refine (careful_loadScope s).bind fun scope => ?_
  split
  · exact Careful.act fun _ => trivial
  · exact careful_raise rfl

/-- An instruction finds the data that it reads. -/
theorem careful_execute (hk : k.IsCareful) (f : Frame) (op : Opcode) : (execute k f op).Careful := by
  cases op
  all_goals unfold execute
  case call argc =>
    refine (careful_popMany f argc).bind fun popped => ?_
    exact careful_replaceTop _ fun callee => hk.call callee _
  case getMember name => exact careful_replaceTop f fun obj => careful_getMember hk obj name
  case negate =>
    exact careful_replaceTop f fun value => (careful_truthy hk value).bind fun b => .pure _
  case same =>
    exact (careful_pop f).bind fun popped => careful_replaceTop _ fun a => .pure _
  case iterNext tag =>
    refine (careful_peek f).bind fun iterator => ?_
    refine (Careful.catching (careful_iterateNext hk iterator)).bind fun result => ?_
    grind
  case callSpread =>
    refine (careful_pop f).bind fun popped => ?_
    refine (careful_pop _).bind fun popped' => ?_
    grind
  case typeTest tag =>
    refine (careful_pop f).bind fun popped => ?_
    refine (careful_peek _).bind fun value => ?_
    grind
  all_goals grind

@[grind ←] theorem careful_runInstruction (hk : k.IsCareful) (f : Frame) :
    (runInstruction k f).Careful := by
  unfold runInstruction
  split
  · exact .pure _
  · rename_i instruction
    refine careful_tick.bind fun _ => ?_
    refine (careful_collectIfDue _).bind fun _ => ?_
    refine (careful_observeAt _).bind fun _ => ?_
    refine Careful.bind ?_ fun step => .pure _
    exact Careful.executing _ (Careful.keeping _ (careful_execute hk f _))

/-! ### Runs -/

/-- The entry points of the engine honour their contracts, whatever the fuel. -/
theorem careful_reentry (fuel : Nat) : (reentry fuel).IsCareful := by
  induction fuel with
  | zero =>
    exact ⟨fun _ _ => careful_outOfFuel, fun _ => careful_outOfFuel.honours,
      fun _ => careful_outOfFuel, fun _ _ => careful_outOfFuel⟩
  | succ n ih =>
    refine ⟨careful_call ih, honours_invoke ih (honours_runNative ih), ?_, careful_drain ih⟩
    intro f
    refine (careful_runInstruction ih f).bind fun progress => ?_
    split
    · exact ih.runFrame _
    · exact .pure _

end Engine

/-- A request finds the data that it reads. -/
theorem Request.careful_computation (globals : ScopeRef) (r : Request) :
    (r.computation globals).Careful := by
  have entries := Engine.careful_reentry Machine.fuel
  cases r with
  | run code =>
    refine Engine.Careful.bind (Engine.Careful.act fun _ => trivial) fun _ => ?_
    refine (Engine.careful_note _).bind fun _ => ?_
    refine (Engine.Careful.nested (entries.runFrame _)).bind fun ended => ?_
    split
    · exact .pure _
    · exact Engine.careful_raise rfl
  | call callee args => exact entries.call callee args
  | operator name args => exact Engine.careful_callOperator entries name args true
  | getMember obj name => exact Engine.careful_getMember entries obj name
  | setMember obj name value =>
    exact (Engine.careful_setMember entries obj name value).bind fun _ => .pure _

end ObjectMachine
