import ObjectMachine.Proofs.Routine
/-!
The built-in functions are routine, and so are all instructions but those that make functions and Types,
those that open and close scopes, and protected blocks.
-/
namespace ObjectMachine

/-- Whether an instruction deals with scopes: it opens or closes one, makes something that runs in a scope,
or runs the sections of a block. -/
def Opcode.isScoped : Opcode → Bool
  | enterScope | exitScope | makeFunction .. | makeClass .. | tryBlock .. => true
  | _ => false

namespace Engine

variable {k : Reentry}

/-! ### Numbers and texts -/

@[grind ←] theorem routine_numeric (r : Ref) : Routine k (numeric r) := by
  unfold numeric
  grind -funext

@[grind ←] theorem routine_newNumeric (n : Numeric) : Routine k (newNumeric n) := by
  cases n with
  | int i => exact .newInt i
  | num x => exact .newNum x

@[grind ←] theorem routine_newResult (result : Except Cause Numeric) : Routine k (newResult result) := by
  unfold newResult
  grind -funext

@[grind ←] theorem routine_onNumbers {α : Type} (a b : Ref) (f : Numeric → Numeric → α) :
    Routine k (onNumbers a b f) := by
  unfold onNumbers
  grind -funext

@[grind ←] theorem routine_newFor (cls : Ref) {p : Payload} (data : p.isCode = false) :
    Routine k (newFor cls p) := by
  unfold newFor
  grind -funext

@[grind ←] theorem routine_toInteger (value : Ref) : Routine k (toInteger value) := by
  refine (Routine.payload value).bind fun p => ?_
  grind -funext

@[grind ←] theorem routine_toNumber (value : Ref) : Routine k (toNumber value) := by
  refine (Routine.payload value).bind fun p => ?_
  grind -funext

theorem routine_runNumber (f : NumberFunction) (args : List Ref) : Routine k (runNumber f args) := by
  unfold runNumber
  split
  all_goals grind -funext

theorem routine_runTruth (f : TruthFunction) (args : List Ref) : Routine k (runTruth k f args) := by
  unfold runTruth
  split
  all_goals grind -funext

@[grind ←] theorem routine_textOf (r : Ref) : Routine k (textOf r) := by
  unfold textOf
  grind -funext

@[grind ←] theorem routine_onTexts {α : Type} (a b : Ref) (f : String → String → α) :
    Routine k (onTexts a b f) := by
  unfold onTexts
  grind -funext

@[grind ←] theorem routine_indexOf (r : Ref) : Routine k (indexOf r) := by
  unfold indexOf
  grind -funext

@[grind ←] theorem routine_sameText (a b : Ref) : Routine k (sameText a b) := by
  unfold sameText
  grind -funext

@[grind ←] theorem routine_newStrs (texts : List String) : Routine k (newStrs texts) := by
  induction texts with
  | nil => exact .pure _
  | cons s later ih =>
    unfold newStrs
    grind -funext

@[grind ←] theorem routine_joinParts (i : Nat) (items : List Ref) : Routine k (joinParts i items) := by
  induction items generalizing i with
  | nil => exact .pure _
  | cons item later ih =>
    unfold joinParts
    grind -funext

@[grind ←] theorem routine_split (s : String) (separator : Ref) : Routine k (split s separator) := by
  unfold split
  grind -funext

theorem routine_runText (f : TextFunction) (args : List Ref) : Routine k (runText k f args) := by
  unfold runText
  split
  all_goals grind -funext

/-! ### Lists, maps and ranges -/

@[grind ←] theorem routine_itemsOf (list : Ref) : Routine k (itemsOf list) := by
  unfold itemsOf
  grind -funext

@[grind ←] theorem routine_modifyItems (list : Ref) (f : Array Ref → Array Ref) :
    Routine k (modifyItems list f) := by
  unfold modifyItems
  grind -funext

@[grind ←] theorem routine_listPosition (index : Ref) (length : Nat) :
    Routine k (listPosition index length) := by
  unfold listPosition
  grind -funext

@[grind ←] theorem routine_containsItem (value : Ref) (items : List Ref) :
    Routine k (containsItem k value items) := by
  induction items with
  | nil => exact .pure _
  | cons item later ih =>
    unfold containsItem
    grind -funext

@[grind ←] theorem routine_equalItems (pairs : List (Ref × Ref)) : Routine k (equalItems k pairs) := by
  induction pairs with
  | nil => exact .pure _
  | cons pair later ih =>
    unfold equalItems
    grind -funext

@[grind ←] theorem routine_shownItems (list : Ref) (items : List Ref) :
    Routine k (shownItems k list items) := by
  induction items with
  | nil => exact .pure _
  | cons item later ih =>
    unfold shownItems
    grind -funext

theorem routine_runList (f : ListFunction) (args : List Ref) : Routine k (runList k f args) := by
  unfold runList
  split
  all_goals grind -funext

@[grind ←] theorem routine_entriesOf (map : Ref) : Routine k (entriesOf map) := by
  unfold entriesOf
  grind -funext

@[grind ←] theorem routine_modifyEntries (map : Ref) (f : Entries → Entries) :
    Routine k (modifyEntries map f) := by
  unfold modifyEntries
  grind -funext

@[grind ←] theorem routine_newMap (operands : List Ref) : Routine k (newMap operands) := by
  unfold newMap
  grind -funext

@[grind ←] theorem routine_shownEntries (map : Ref) (pairs : List (Ref × Ref)) :
    Routine k (shownEntries k map pairs) := by
  induction pairs with
  | nil => exact .pure _
  | cons pair later ih =>
    unfold shownEntries
    grind -funext

@[grind ←] theorem routine_missingKey {α : Type} (key : Ref) : Routine k (missingKey k key : Engine α) := by
  unfold missingKey
  grind -funext

theorem routine_runMap (f : MapFunction) (args : List Ref) : Routine k (runMap k f args) := by
  unfold runMap
  split
  all_goals grind -funext

@[grind ←] theorem routine_rangeOf (r : Ref) : Routine k (rangeOf r) := by
  unfold rangeOf
  grind -funext

@[grind ←] theorem routine_rangeBounds (first stop : Ref) : Routine k (rangeBounds first stop) := by
  unfold rangeBounds
  grind -funext

@[grind ←] theorem routine_rangeItem (range : Range) (index : Int64) : Routine k (rangeItem range index) := by
  unfold rangeItem
  grind -funext

theorem routine_runRange (f : RangeFunction) (args : List Ref) : Routine k (runRange f args) := by
  unfold runRange
  split
  all_goals grind -funext

/-! ### Other objects -/

@[grind ←] theorem routine_functionOf (r : Ref) : Routine k (functionOf r) := by
  unfold functionOf
  grind -funext

@[grind ←] theorem routine_errorText (error : Ref) : Routine k (errorText k error) := by
  refine (Routine.load error).bind fun o => ?_
  grind -funext

theorem routine_runObject (f : ObjectFunction) (args : List Ref) : Routine k (runObject k f args) := by
  unfold runObject
  split
  case h_1 => exact routine_instantiate _ _
  case h_3 function this => exact .bindFunction function this
  all_goals grind -funext

@[grind ←] theorem routine_printAll (first : Bool) (values : List Ref) : Routine k (printAll k first values) := by
  induction values generalizing first with
  | nil => exact .pure _
  | cons value later ih =>
    unfold printAll
    grind -funext

@[grind ←] theorem routine_nameOf (r : Ref) : Routine k (nameOf r) := by
  unfold nameOf
  grind -funext

@[grind ←] theorem routine_lengthOf (value : Ref) : Routine k (lengthOf k value) := by
  unfold lengthOf
  grind -funext

@[grind ←] theorem routine_viewOf (type value : Ref) : Routine k (viewOf type value) := by
  refine (Routine.payload value).bind fun p => ?_
  dsimp only
  split
  all_goals
    refine (Routine.pure _).bind fun target => (Routine.ask _).bind fun is => ?_
    grind -funext

@[grind ←] theorem routine_memberName (r : Ref) : Routine k (memberName r) := by
  unfold memberName
  grind -funext

theorem routine_runGlobal (f : GlobalFunction) (args : List Ref) : Routine k (runGlobal k f args) := by
  unfold runGlobal
  split
  all_goals grind -funext

theorem routine_runNative (n : Native) (args : List Ref) : Routine k (runNative k n args) := by
  cases n with
  | number f => exact routine_runNumber f args
  | truth f => exact routine_runTruth f args
  | text f => exact routine_runText f args
  | list f => exact routine_runList f args
  | map f => exact routine_runMap f args
  | range f => exact routine_runRange f args
  | object f => exact routine_runObject f args
  | global f => exact routine_runGlobal f args

/-! ### Instructions -/

@[grind ←] theorem routine_pop (f : Frame) : Routine k (pop f) := by
  unfold pop
  grind -funext

@[grind ←] theorem routine_peek (f : Frame) : Routine k (peek f) := by
  unfold peek
  grind -funext

@[grind ←] theorem routine_popMany (f : Frame) (count : Nat) : Routine k (popMany f count) := by
  unfold popMany
  grind -funext

theorem routine_replaceTop (f : Frame) {x : Ref → Engine Ref} (hx : ∀ operand, Routine k (x operand)) :
    Routine k (replaceTop f x) := by
  unfold replaceTop
  grind -funext

@[grind ←] theorem routine_branch (f : Frame) (tag : String) (taken : Bool) :
    Routine k (branch f tag taken) := by
  unfold branch target
  grind -funext

@[grind ←] theorem routine_readVariable (s : ScopeRef) (name : String) : Routine k (readVariable s name) := by
  unfold readVariable
  grind -funext

@[grind ←] theorem routine_assign (s : ScopeRef) (name : String) (value : Ref) :
    Routine k (execute.assign s name value) := by
  refine (Routine.ask _).bind fun known => ?_
  split
  · exact .act trivial
  · exact .raise _

@[grind ←] theorem routine_undefine (s : ScopeRef) (name : String) :
    Routine k (execute.undefine s name) := by
  refine (Routine.loadScope s).bind fun scope => ?_
  split
  · exact .act trivial
  · exact .raise _

@[grind ←] theorem routine_declaredType (s : ScopeRef) (spec : ParamSpec) :
    Routine k (declaredType s spec) := by
  unfold declaredType
  grind -funext

@[grind ←] theorem routine_parameters (s : ScopeRef) (specs : List ParamSpec) (defaults : List Ref) :
    Routine k (parameters s specs defaults) := by
  induction specs generalizing defaults with
  | nil => exact .pure _
  | cons spec later ih =>
    refine (routine_declaredType s spec).bind fun type => ?_
    grind -funext

@[grind ←] theorem routine_checkParents (name : String) (seen parents : List Ref) :
    Routine k (checkParents name seen parents) := by
  induction parents generalizing seen with
  | nil => exact .pure _
  | cons parent later ih =>
    unfold checkParents
    grind -funext

@[grind ←] theorem routine_addMembers (type : Ref) (name : String) (members : List (String × Ref)) :
    Routine k (addMembers type name members) := by
  induction members with
  | nil => exact .pure _
  | cons member later ih =>
    unfold addMembers
    grind -funext

@[grind ←] theorem routine_defineAll (s : ScopeRef) (params : List (Param × Ref)) :
    Routine k (defineAll s params) := by
  induction params with
  | nil => exact .pure _
  | cons p later ih =>
    unfold defineAll
    grind -funext

@[grind ←] theorem routine_prepare (callee : Ref) (args : List Ref) : Routine k (prepare callee args) := by
  unfold prepare
  grind -funext

/-- An instruction that does not deal with scopes is routine. -/
theorem routine_execute (f : Frame) (op : Opcode) (plain : op.isScoped = false) :
    Routine k (execute k f op) := by
  cases op
  all_goals first | cases plain; done | unfold execute
  case call argc =>
    exact (routine_popMany f argc).bind fun popped => routine_replaceTop _ fun callee => .call callee _
  case getMember name => exact routine_replaceTop f fun obj => routine_getMember obj name
  case negate =>
    exact routine_replaceTop f fun value => (routine_truthy value).bind fun b => .pure _
  case same => exact (routine_pop f).bind fun popped => routine_replaceTop _ fun a => .pure _
  case iterNext tag =>
    refine (routine_peek f).bind fun iterator => ?_
    refine (Routine.catching (routine_iterateNext iterator)).bind fun result => ?_
    grind -funext
  case callSpread =>
    refine (routine_pop f).bind fun popped => (routine_pop _).bind fun popped' => ?_
    grind -funext
  case typeTest tag =>
    refine (routine_pop f).bind fun popped => (routine_peek _).bind fun value => ?_
    grind -funext
  all_goals grind -funext

/-- What a call gives when the frame of the function has come to an end. -/
def returned (name : String) : Completion → Engine Ref
  | .done value => pure (value.getD .null)
  | .yielded .. => raise (.functionYielded name)

end Engine

end ObjectMachine
