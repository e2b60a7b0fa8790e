import ObjectMachine.Proofs.Fuel.Natives
/-!
Instructions and frames with less fuel and with more.
-/
namespace ObjectMachine.Engine

variable {k k' : Reentry} {r : Rights}

/-! ### Protected blocks -/

@[grind ←] theorem below_runSection (hk : k.Below k') (phase : Phase) (resumed : Bool)
    (pending : Pending) (body : Frame) :
    Below r (runSection k phase resumed pending body) (runSection k' phase resumed pending body) := by
  unfold runSection
  grind -funext

@[grind ←] theorem below_finishBlock (f : Frame) (next : Nat) (pending : Pending) :
    Below r (finishBlock f next pending) (finishBlock f next pending) := by
  unfold finishBlock
  grind -funext

@[grind ←] theorem below_runCleanup (hk : k.Below k') (f : Frame) (next : Nat) (resumed : Bool)
    (pending : Pending) (body : Frame) :
    Below r (runCleanup k f next resumed pending body) (runCleanup k' f next resumed pending body) := by
  unfold runCleanup
  grind -funext

@[grind ←] theorem below_startCleanup (hk : k.Below k') (f : Frame) (sections : Sections)
    (pending : Pending) : Below r (startCleanup k f sections pending) (startCleanup k' f sections pending) := by
  unfold startCleanup
  grind -funext

@[grind ←] theorem below_runHandler (hk : k.Below k') (f : Frame) (sections : Sections)
    (resumed : Bool) (body : Frame) :
    Below r (runHandler k f sections resumed body) (runHandler k' f sections resumed body) := by
  unfold runHandler
  grind -funext

@[grind ←] theorem below_startHandler (hk : k.Below k') (f : Frame) (sections : Sections)
    (binding : Option String) (code : Code) (e : Raised) :
    Below r (startHandler k f sections binding code e) (startHandler k' f sections binding code e) := by
  unfold startHandler
  grind -funext

@[grind ←] theorem below_runGuarded (hk : k.Below k') (f : Frame) (sections : Sections)
    (binding : Option String) (resumed : Bool) (body : Frame) :
    Below r (runGuarded k f sections binding resumed body)
      (runGuarded k' f sections binding resumed body) := by
  unfold runGuarded
  grind -funext

@[grind ←] theorem below_protect (hk : k.Below k') (f : Frame) (block : String)
    (binding : Option String) : Below r (protect k f block binding) (protect k' f block binding) := by
  unfold protect
  grind -funext

/-! ### Definitions -/

@[grind ←] theorem below_readVariable (s : ScopeRef) (name : String) :
    Below r (readVariable s name) (readVariable s name) := by
  unfold readVariable
  grind -funext

@[grind ←] theorem below_declaredType (s : ScopeRef) (spec : ParamSpec) :
    Below r (declaredType s spec) (declaredType s spec) := by
  unfold declaredType
  grind -funext

@[grind ←] theorem below_parameters (s : ScopeRef) (specs : List ParamSpec) (defaults : List Ref) :
    Below r (parameters s specs defaults) (parameters s specs defaults) := by
  induction specs generalizing defaults with
  | nil => exact .pure _
  | cons spec later ih =>
    refine (below_declaredType s spec).bind fun type => ?_
    grind -funext

@[grind ←] theorem below_makeFunction (f : Frame) (name body : String) (specs : List ParamSpec)
    (generator : Bool) :
    Below r (makeFunction f name body specs generator) (makeFunction f name body specs generator) := by
  refine (below_popMany f _).bind fun popped => ?_
  refine (below_parameters _ specs _).bind fun params => ?_
  grind -funext

@[grind ←] theorem below_checkParents (name : String) (seen parents : List Ref) :
    Below r (checkParents name seen parents) (checkParents name seen parents) := by
  induction parents generalizing seen with
  | nil => exact .pure _
  | cons parent later ih =>
    unfold checkParents
    grind -funext

theorem below_newType (name : String) {parents : List Ref} (some : parents ≠ []) :
    Below r (newType name parents) (newType name parents) := by
  refine Below.bind (.act some) fun result => ?_
  grind -funext

@[grind ←] theorem below_addMembers (type : Ref) (name : String) (members : List (String × Ref)) :
    Below r (addMembers type name members) (addMembers type name members) := by
  induction members with
  | nil => exact .pure _
  | cons member later ih =>
    unfold addMembers
    grind -funext

@[grind ←] theorem below_makeClass (hk : k.Below k') (f : Frame) (name body : String) (count : Nat) :
    Below r (makeClass k f name body count) (makeClass k' f name body count) := by
  refine (below_popMany f count).bind fun popped => ?_
  refine (below_checkParents name [] _).bind fun _ => ?_
  -- a Type that names no parents gets the root of all Types
  have some : (if popped.1.isEmpty then [Kind.object.ref] else popped.1) ≠ [] := by
    split
    · exact List.cons_ne_nil _ _
    · rename_i given
      exact fun none => given (List.isEmpty_iff.mpr none)
  refine (below_newType name some).bind fun type => ?_
  split
  · exact .fail _
  refine (Below.newScope _).bind fun scope => ?_
  refine Below.bind (.nested (.keepingObjects _ (hk.runFrame _ _))) fun ended => ?_
  grind -funext

/-! ### Instructions -/

theorem below_replaceTop (f : Frame) {x x' : Ref → Engine Ref}
    (hx : ∀ operand, Below r (x operand) (x' operand)) :
    Below r (replaceTop f x) (replaceTop f x') := by
  unfold replaceTop
  grind -funext

@[grind ←] theorem below_branch (f : Frame) (tag : String) (taken : Bool) :
    Below r (branch f tag taken) (branch f tag taken) := by
  unfold branch
  grind -funext

@[grind ←] theorem below_assign (s : ScopeRef) (name : String) (value : Ref) :
    Below r (execute.assign s name value) (execute.assign s name value) := by
  refine Below.bind (.ask fun h => by simp only [h.unmetered_binding]) fun known => ?_
  split
  · exact .act trivial
  · exact .raise _

@[grind ←] theorem below_undefine (s : ScopeRef) (name : String) :
    Below r (execute.undefine s name) (execute.undefine s name) := by
  refine (Below.loadScope s).bind fun scope => ?_
  split
  · exact .act trivial
  · exact .raise _

/-- An iterator that is asked for an item stands on the stack, which is kept meanwhile. -/
theorem below_execute (hk : k.Below k') (f : Frame) (op : Opcode) :
    BelowWith (if op.runsCode then f.stack else []) r (execute k f op) (execute k' f op) := by
  cases op
  all_goals unfold execute
  case call argc =>
    refine Below.bind (below_popMany f argc) (fun popped => ?_) _
    exact below_replaceTop _ fun callee => hk.call _ callee _
  case getMember name => exact below_replaceTop f (fun obj => below_getMember hk obj name) _
  case negate =>
    exact below_replaceTop f (fun value => (below_truthy hk value).bind fun b => .pure _) _
  case same =>
    exact Below.bind (below_pop f) (fun popped => below_replaceTop _ fun a => .pure _) _
  case iterNext tag =>
    show BelowWith f.stack r _ _
    refine .andThen (fun _ => []) (fun _ _ => List.forall_mem_nil _) (below_peek f _) fun iterator top => ?_
    have onStack : iterator ∈ f.stack := by
      obtain ⟨due, m, m', peeked⟩ := top
      unfold peek at peeked
      split at peeked
      · rename_i value stack whole
        cases peeked
        rw [whole]
        exact List.mem_cons_self
      · cases peeked
    refine (BelowWith.catching ((below_iterateNext hk iterator).mono ?_)).bind fun result => ?_
    · exact List.cons_subset.mpr ⟨onStack, List.nil_subset _⟩
    · exact (show Below r _ _ by grind -funext) _
  case callSpread =>
    refine Below.bind (below_pop f) (fun popped => ?_) _
    refine (below_pop _).bind fun popped' => ?_
    grind -funext
  case typeTest tag =>
    refine Below.bind (below_pop f) (fun popped => ?_) _
    refine (below_peek _).bind fun value => ?_
    grind -funext
  all_goals exact (show Below r _ _ by grind -funext) _

theorem below_runInstruction (hk : k.Below k') (f : Frame) :
    Below r (runInstruction k f) (runInstruction k' f) := by
  unfold runInstruction
  split
  · exact .pure _
  · rename_i instruction
    refine Below.tick.bind fun _ => ?_
    refine (Below.collectIfDue _).bind fun _ => ?_
    refine (Below.observeAt _).bind fun _ => ?_
    refine Below.bind (fun kept => .executing _ (.keeping _ ?_)) fun step => .pure _
    refine (below_execute hk f _).mono (List.subset_append_of_subset_left _ ?_)
    split
    · intro value onStack
      refine List.mem_filterMap.mpr ⟨.object value, ?_, rfl⟩
      refine List.mem_append_left _ (List.mem_append_left _ (List.mem_append_left _ ?_))
      exact List.mem_map_of_mem onStack
    · exact List.nil_subset _

/-! ### Runs -/

/-- With more fuel, the entry points of the engine do the same, and go on where they ran out of it. -/
theorem below_reentry (n more : Nat) : (reentry n).Below (reentry (n + more)) := by
  induction n with
  | zero =>
    exact ⟨fun _ _ _ => .outOfFuel _, fun _ _ => .outOfFuel _, fun _ _ => .outOfFuel _,
      fun _ _ _ _ => .outOfFuel _⟩
  | succ n ih =>
    rw [Nat.add_right_comm]
    refine ⟨fun r => below_call ih, fun r => below_invoke ih (below_runNative ih), fun r f => ?_,
      fun r right => below_drain ih right⟩
    refine (below_runInstruction ih f).bind fun progress => ?_
    split
    · exact ih.runFrame r _
    · exact .pure _

end ObjectMachine.Engine
