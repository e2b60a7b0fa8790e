import ObjectMachine.Proofs.Fuel
/-!
Iteration and the built-in functions with less fuel and with more.
-/
namespace ObjectMachine.Engine

variable {k k' : Reentry} {r : Rights}

theorem entriesFrom_unmetered (h : Heap) (entries : Entries) (operands : List Ref) :
    entriesFrom h.unmetered entries operands = entriesFrom h entries operands := by
  induction entries, operands using entriesFrom.induct h with
  | case1 entries key value later ih =>
    simp only [entriesFrom, h.unmetered_keyOf]
    exact ih
  | case2 entries operands short =>
    unfold entriesFrom
    split
    · exact (short _ _ _ rfl).elim
    · rfl

/-! ### Numbers -/

@[grind ←] theorem below_numeric (o : Ref) : Below r (numeric o) (numeric o) := by
  unfold numeric
  grind -funext

@[grind ←] theorem below_newNumeric (n : Numeric) : Below r (newNumeric n) (newNumeric n) := by
  cases n with
  | int i => exact .new rfl
  | num x => exact .new rfl

@[grind ←] theorem below_newResult (result : Except Cause Numeric) :
    Below r (newResult result) (newResult result) := by
  unfold newResult
  grind -funext

@[grind ←] theorem below_onNumbers {α : Type} (a b : Ref) (f : Numeric → Numeric → α) :
    Below r (onNumbers a b f) (onNumbers a b f) := by
  unfold onNumbers
  grind -funext

@[grind ←] theorem below_newFor (cls : Ref) {p : Payload} (data : p.isReserved = false) :
    Below r (newFor cls p) (newFor cls p) := by
  unfold newFor
  grind -funext

@[grind ←] theorem below_toInteger (value : Ref) : Below r (toInteger value) (toInteger value) := by
  refine (Below.payload value).bind fun p => ?_
  grind -funext

@[grind ←] theorem below_toNumber (value : Ref) : Below r (toNumber value) (toNumber value) := by
  refine (Below.payload value).bind fun p => ?_
  grind -funext

theorem below_runNumber (f : NumberFunction) (args : List Ref) :
    Below r (runNumber f args) (runNumber f args) := by
  unfold runNumber
  split
  all_goals grind -funext

theorem below_runTruth (hk : k.Below k') (f : TruthFunction) (args : List Ref) :
    Below r (runTruth k f args) (runTruth k' f args) := by
  unfold runTruth
  split
  all_goals grind -funext

/-! ### Texts -/

@[grind ←] theorem below_textOf (o : Ref) : Below r (textOf o) (textOf o) := by
  unfold textOf
  grind -funext

@[grind ←] theorem below_onTexts {α : Type} (a b : Ref) (f : String → String → α) :
    Below r (onTexts a b f) (onTexts a b f) := by
  unfold onTexts
  grind -funext

@[grind ←] theorem below_indexOf (o : Ref) : Below r (indexOf o) (indexOf o) := by
  unfold indexOf
  grind -funext

@[grind ←] theorem below_sameText (a b : Ref) : Below r (sameText a b) (sameText a b) := by
  unfold sameText
  grind -funext

@[grind ←] theorem below_newStrs (texts : List String) : Below r (newStrs texts) (newStrs texts) := by
  induction texts with
  | nil => exact .pure _
  | cons s later ih =>
    unfold newStrs
    grind -funext

@[grind ←] theorem below_joinParts (i : Nat) (items : List Ref) :
    Below r (joinParts i items) (joinParts i items) := by
  induction items generalizing i with
  | nil => exact .pure _
  | cons item later ih =>
    unfold joinParts
    grind -funext

@[grind ←] theorem below_split (s : String) (separator : Ref) :
    Below r (split s separator) (split s separator) := by
  unfold split
  grind -funext

theorem below_runText (hk : k.Below k') (f : TextFunction) (args : List Ref) :
    Below r (runText k f args) (runText k' f args) := by
  unfold runText
  split
  all_goals grind -funext

/-! ### Iteration -/

@[grind ←] theorem below_getIterator (hk : k.Below k') (value : Ref) :
    Below r (getIterator k value) (getIterator k' value) := by
  unfold getIterator
  grind -funext

@[grind ←] theorem below_advance (cursor : Cursor) : Below r (advance cursor) (advance cursor) := by
  unfold advance
  split
  all_goals grind -funext

@[grind ←] theorem below_move (iterator : Ref) (cursor : Cursor) :
    Below r (change iterator (.cursor cursor)) (change iterator (.cursor cursor)) :=
  .act trivial

@[grind ←] theorem below_iteratorNext (iterator : Ref) :
    Below r (iteratorNext iterator) (iteratorNext iterator) := by
  unfold iteratorNext
  grind -funext

theorem below_putState (right : r.generators) (generator : Ref) (state : GeneratorState) :
    Below r (change generator (.generator state)) (change generator (.generator state)) :=
  .act right

theorem below_resume (hk : k.Below k') (right : r.generators) (generator : Ref) (name : String)
    (frame : Frame) (before : GeneratorState) :
    Below r (resume k generator name frame before) (resume k' generator name frame before) := by
  refine (below_putState right generator .running).bind fun _ => ?_
  refine Below.bind (fun kept => .resuming generator name right (hk.runFrame r frame kept)) fun ended => ?_
  have put (state : GeneratorState) := below_putState right generator state
  grind -funext

/-- A generator is asked for an item while the roots keep it. -/
theorem below_generatorNext (hk : k.Below k') (generator : Ref) :
    BelowWith [generator] r (generatorNext k generator) (generatorNext k' generator) := by
  refine .generator generator List.mem_cons_self (fun f => hk.runFrame _ f []) ?_
  refine Below.bind (Below.payload generator) (fun p => ?_) _
  split
  · exact .raise _
  · exact .raise _
  · exact below_resume hk rfl _ _ _ _
  · exact below_resume hk rfl _ _ _ _
  · exact .fail _

theorem below_iterateNext (hk : k.Below k') (iterator : Ref) :
    BelowWith [iterator] r (iterateNext k iterator) (iterateNext k' iterator) := by
  refine (Below.payload iterator _).bind fun p => ?_
  split
  · exact below_iteratorNext iterator _
  · exact below_generatorNext hk iterator
  · refine Below.bind (below_getMember hk iterator "next") (fun next => ?_) _
    exact hk.call _ next []

theorem below_drain (hk : k.Below k') (right : r.roots = true) (iterator : Ref) (taken : List Ref) :
    BelowWith [iterator] r (drain k iterator taken) (drain k' iterator taken) := by
  refine (BelowWith.catching (below_iterateNext hk iterator)).bind fun result => ?_
  split
  · rename_i item
    refine BelowWith.bind (.act right) fun _ => ?_
    exact hk.drain r right iterator (item :: taken)
  · exact (show Below r _ _ by grind -funext) _

@[grind ←] theorem below_collectItems (hk : k.Below k') (iterable : Ref) :
    Below r (collectItems k iterable) (collectItems k' iterable) := by
  intro kept
  refine (below_getIterator hk iterable _).bind fun iterator => .keepingObjects ?_
  exact (below_drain hk rfl iterator []).mono (List.subset_append_left _ _)

/-! ### Lists, maps and ranges -/

@[grind ←] theorem below_itemsOf (list : Ref) : Below r (itemsOf list) (itemsOf list) := by
  unfold itemsOf
  grind -funext

@[grind ←] theorem below_modifyItems (list : Ref) (f : Array Ref → Array Ref) :
    Below r (modifyItems list f) (modifyItems list f) :=
  (below_itemsOf list).bind fun _ => .act trivial

@[grind ←] theorem below_listPosition (index : Ref) (length : Nat) :
    Below r (listPosition index length) (listPosition index length) := by
  unfold listPosition
  grind -funext

@[grind ←] theorem below_containsItem (hk : k.Below k') (value : Ref) (items : List Ref) :
    Below r (containsItem k value items) (containsItem k' value items) := by
  induction items with
  | nil => exact .pure _
  | cons item later ih =>
    unfold containsItem
    grind -funext

@[grind ←] theorem below_equalItems (hk : k.Below k') (pairs : List (Ref × Ref)) :
    Below r (equalItems k pairs) (equalItems k' pairs) := by
  induction pairs with
  | nil => exact .pure _
  | cons pair later ih =>
    unfold equalItems
    grind -funext

@[grind ←] theorem below_shownItems (hk : k.Below k') (list : Ref) (items : List Ref) :
    Below r (shownItems k list items) (shownItems k' list items) := by
  induction items with
  | nil => exact .pure _
  | cons item later ih =>
    unfold shownItems
    grind -funext

theorem below_runList (hk : k.Below k') (f : ListFunction) (args : List Ref) :
    Below r (runList k f args) (runList k' f args) := by
  unfold runList
  split
  all_goals grind -funext

@[grind ←] theorem below_entriesOf (map : Ref) : Below r (entriesOf map) (entriesOf map) := by
  unfold entriesOf
  grind -funext

@[grind ←] theorem below_modifyEntries (map : Ref) (f : Entries → Entries) :
    Below r (modifyEntries map f) (modifyEntries map f) :=
  (below_entriesOf map).bind fun _ => .act trivial

@[grind ←] theorem below_newMap (operands : List Ref) : Below r (newMap operands) (newMap operands) :=
  Below.bind (.ask fun h => entriesFrom_unmetered h .empty operands) fun _ => .new rfl

@[grind ←] theorem below_shownEntries (hk : k.Below k') (map : Ref) (pairs : List (Ref × Ref)) :
    Below r (shownEntries k map pairs) (shownEntries k' map pairs) := by
  induction pairs with
  | nil => exact .pure _
  | cons pair later ih =>
    unfold shownEntries
    grind -funext

@[grind ←] theorem below_missingKey {α : Type} (hk : k.Below k') (key : Ref) :
    Below r (missingKey k key : Engine α) (missingKey k' key) := by
  unfold missingKey
  grind -funext

theorem below_runMap (hk : k.Below k') (f : MapFunction) (args : List Ref) :
    Below r (runMap k f args) (runMap k' f args) := by
  unfold runMap
  split
  all_goals grind -funext

@[grind ←] theorem below_rangeOf (o : Ref) : Below r (rangeOf o) (rangeOf o) := by
  unfold rangeOf
  grind -funext

@[grind ←] theorem below_rangeBounds (first stop : Ref) :
    Below r (rangeBounds first stop) (rangeBounds first stop) := by
  unfold rangeBounds
  grind -funext

@[grind ←] theorem below_rangeItem (range : Range) (index : Int64) :
    Below r (rangeItem range index) (rangeItem range index) := by
  unfold rangeItem
  grind -funext

theorem below_runRange (f : RangeFunction) (args : List Ref) :
    Below r (runRange f args) (runRange f args) := by
  unfold runRange
  split
  all_goals grind -funext

/-! ### Other objects -/

@[grind ←] theorem below_functionOf (o : Ref) : Below r (functionOf o) (functionOf o) := by
  unfold functionOf
  grind -funext

@[grind ←] theorem below_errorText (hk : k.Below k') (error : Ref) :
    Below r (errorText k error) (errorText k' error) := by
  refine (Below.load error).bind fun o => ?_
  grind -funext

/-- A generator that is asked for an item is the only argument. -/
theorem below_runObject (hk : k.Below k') (f : ObjectFunction) (args : List Ref) :
    BelowWith (soleArgument args) r (runObject k f args) (runObject k' f args) := by
  unfold runObject
  split
  case h_7 generator => exact below_generatorNext hk generator
  all_goals exact (show Below r _ _ by grind -funext) _

@[grind ←] theorem below_printAll (hk : k.Below k') (first : Bool) (values : List Ref) :
    Below r (printAll k first values) (printAll k' first values) := by
  induction values generalizing first with
  | nil => exact .pure _
  | cons value later ih =>
    unfold printAll
    grind -funext

@[grind ←] theorem below_nameOf (o : Ref) : Below r (nameOf o) (nameOf o) := by
  unfold nameOf
  grind -funext

@[grind ←] theorem below_lengthOf (hk : k.Below k') (value : Ref) :
    Below r (lengthOf k value) (lengthOf k' value) := by
  unfold lengthOf
  grind -funext

@[grind ←] theorem below_viewOf (type value : Ref) : Below r (viewOf type value) (viewOf type value) := by
  refine (Below.payload value).bind fun p => ?_
  dsimp only
  split
  all_goals
    refine (Below.pure _).bind fun target => ?_
    refine Below.bind (.ask fun _ => rfl) fun is => ?_
    grind -funext

@[grind ←] theorem below_memberName (o : Ref) : Below r (memberName o) (memberName o) := by
  unfold memberName
  grind -funext

/-- An iterator that is asked for an item is the only argument. -/
theorem below_runGlobal (hk : k.Below k') (f : GlobalFunction) (args : List Ref) :
    BelowWith (soleArgument args) r (runGlobal k f args) (runGlobal k' f args) := by
  unfold runGlobal
  split
  case h_8 iterator => exact below_iterateNext hk iterator
  all_goals exact (show Below r _ _ by grind -funext) _

theorem below_runNative (hk : k.Below k') (n : Native) (args : List Ref) :
    BelowWith (soleArgument args) r (runNative k n args) (runNative k' n args) := by
  cases n with
  | number f => exact below_runNumber f args _
  | truth f => exact below_runTruth hk f args _
  | text f => exact below_runText hk f args _
  | list f => exact below_runList hk f args _
  | map f => exact below_runMap hk f args _
  | range f => exact below_runRange f args _
  | object f => exact below_runObject hk f args
  | global f => exact below_runGlobal hk f args

end ObjectMachine.Engine
