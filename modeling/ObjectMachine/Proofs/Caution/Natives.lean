import ObjectMachine.Proofs.Caution
/-!
Iteration and the built-in functions find the data that they read: an iterator runs over data that
stays of its kind, and the arguments of a built-in function hold what it needs.
-/
namespace ObjectMachine.Engine

variable {k : Reentry} {P : Heap → Prop}

/-! ### Reading -/

/-- Reading data of a kind that is there. -/
theorem honours_payloadOf {r : Ref} {kind : Kind} (holds : ∀ h, P h → h.Holds r kind) :
    (payload r).Honours P (fun p h => P h ∧ p.isOf kind) := by
  refine (honours_payload r).weaken (fun _ _ => id) ?_
  rintro p h - ⟨start, found⟩
  obtain ⟨p', found', is⟩ := holds h start
  rw [found] at found'
  cases found'
  exact ⟨start, is⟩

theorem honours_itemsOf {list : Ref} (holds : ∀ h, P h → h.Holds list .list) :
    (itemsOf list).Honours P (fun _ h => P h) := by
  refine (honours_payloadOf holds).bind fun p => ?_
  cases p with
  | list items => exact Honours.gives items fun _ _ h => h.1
  | _ => exact Honours.of_absurd fun _ h => nomatch h.2

theorem honours_entriesOf {map : Ref} (holds : ∀ h, P h → h.Holds map .map) :
    (entriesOf map).Honours P (fun _ h => P h) := by
  refine (honours_payloadOf holds).bind fun p => ?_
  cases p with
  | map entries => exact Honours.gives entries fun _ _ h => h.1
  | _ => exact Honours.of_absurd fun _ h => nomatch h.2

theorem honours_rangeOf {r : Ref} (holds : ∀ h, P h → h.Holds r .range) :
    (rangeOf r).Honours P (fun _ h => P h) := by
  refine (honours_payloadOf holds).bind fun p => ?_
  cases p with
  | range range => exact Honours.gives range fun _ _ h => h.1
  | _ => exact Honours.of_absurd fun _ h => nomatch h.2

theorem honours_textOf {r : Ref} (holds : ∀ h, P h → h.Holds r .string) :
    (textOf r).Honours P (fun _ h => P h) := by
  refine (honours_payloadOf holds).bind fun p => ?_
  cases p with
  | str s => exact Honours.gives s fun _ _ h => h.1
  | _ => exact Honours.of_absurd fun _ h => nomatch h.2

theorem honours_numeric {r : Ref} (holds : ∀ h, P h → h.Holds r .num) :
    (numeric r).Honours P (fun _ h => P h) := by
  refine (honours_payloadOf holds).bind fun p => ?_
  cases p with
  | int i => exact Honours.gives (Numeric.int i) fun _ _ h => h.1
  | num x => exact Honours.gives (Numeric.num x) fun _ _ h => h.1
  | _ => exact Honours.of_absurd fun _ h => nomatch h.2

theorem honours_memberName {r : Ref} (holds : ∀ h, P h → h.Holds r .string) :
    (memberName r).Honours P (fun _ h => P h) := by
  refine (honours_payloadOf holds).bind fun p => ?_
  cases p with
  | str s => exact Honours.gives s fun _ _ h => h.1
  | _ => exact Honours.of_absurd fun _ h => nomatch h.2

/-- A function that is read is declared with what it reads. -/
theorem honours_functionOf {r : Ref} (holds : ∀ h, P h → h.Holds r .function) :
    (functionOf r).Honours P (fun f _ => f.isDeclared) := by
  refine (honours_payload r).bind fun p => ?_
  cases p with
  | function f =>
    refine (Honours.pure f).weaken ?_ fun _ _ _ => id
    exact fun h sound found => isDeclared_of_payload sound found.2
  | _ =>
    refine Honours.of_absurd ?_
    rintro h ⟨start, found⟩
    obtain ⟨p', found', is⟩ := holds h start
    rw [found] at found'
    cases found'
    cases is

theorem honours_onTexts {α : Type} {a b : Ref} (f : String → String → α)
    (holds : ∀ h, P h → h.Holds a .string ∧ h.Holds b .string) :
    (onTexts a b f).Honours P (fun _ _ => True) := by
  refine (honours_textOf fun h start => (holds h start).1).bind fun s => ?_
  exact Careful.after (fun t => .pure _) (honours_textOf fun h start => (holds h start).2)

theorem honours_onNumbers {α : Type} {a b : Ref} (f : Numeric → Numeric → α)
    (holds : ∀ h, P h → h.Holds a .num ∧ h.Holds b .num) :
    (onNumbers a b f).Honours P (fun result _ => ∃ x y, result = f x y) := by
  refine (honours_numeric fun h start => (holds h start).1).bind fun x => ?_
  refine (honours_numeric fun h start => (holds h start).2).bind fun y => ?_
  exact Honours.gives _ fun _ _ _ => ⟨x, y, rfl⟩

/-! ### Storing -/

@[grind ←] theorem careful_newNumeric (n : Numeric) : (newNumeric n).Careful := by
  refine careful_new fun h => ?_
  cases n <;> trivial

theorem careful_newFor (cls : Ref) {p : Payload} (relies : ∀ h, p.Relies h) : (newFor cls p).Careful := by
  unfold newFor
  split
  · exact careful_new relies
  · exact careful_newOf cls relies

/-! ### Numbers -/

@[grind ←] theorem careful_toInteger (value : Ref) : (toInteger value).Careful := by
  refine (careful_payload value).bind fun p => ?_
  grind

@[grind ←] theorem careful_toNumber (value : Ref) : (toNumber value).Careful := by
  refine (careful_payload value).bind fun p => ?_
  grind

/-- Arithmetic that fails does so for the values of its operands. -/
theorem honours_newResult {f : Numeric → Numeric → Except Cause Numeric}
    (fails : ∀ x y c, f x y = .error c → c.isMissingNumber = false) (result : Except Cause Numeric) :
    (newResult result).Honours (fun _ => ∃ x y, result = f x y) (fun _ _ => True) := by
  cases result with
  | ok n => exact (careful_newNumeric n).honours
  | error cause =>
    refine (honours_act (.raise cause)).weaken ?_ fun _ _ _ => id
    rintro h - ⟨x, y, same⟩
    exact fails x y cause same.symm

theorem isMissingNumber_div {x y : Numeric} {c : Cause} (h : x.div y = .error c) :
    c.isMissingNumber = false := by
  simp only [Numeric.div] at h
  split at h <;> cases h
  rfl

theorem isMissingNumber_mod {x y : Numeric} {c : Cause} (h : x.mod y = .error c) :
    c.isMissingNumber = false := by
  simp only [Numeric.mod] at h
  split at h <;> split at h <;> cases h <;> rfl

theorem isMissingNumber_roundedPow {x y : Binary64} {c : Cause}
    (h : Numeric.roundedPow x y = .error c) : c.isMissingNumber = false := by
  simp only [Numeric.roundedPow] at h
  split at h <;> cases h
  rfl

theorem isMissingNumber_pow {x y : Numeric} {c : Cause} (h : x.pow y = .error c) :
    c.isMissingNumber = false := by
  simp only [Numeric.pow] at h
  split at h
  · split at h
    · cases h
    · exact isMissingNumber_roundedPow h
  · exact isMissingNumber_roundedPow h

theorem honours_runNumber (f : NumberFunction) (args : List Ref) :
    (runNumber f args).Honours (·.Supplies (Native.number f).needs args) (fun _ _ => True) := by
  unfold runNumber
  split
  case h_1 | h_2 | h_3 =>
    exact Careful.after (fun n => by grind) (honours_numeric fun _ s => s.1)
  case h_4 | h_5 | h_6 | h_10 | h_11 | h_12 | h_13 =>
    exact Careful.after (fun n => by grind) (honours_onNumbers _ fun _ s => ⟨s.1, s.2.1⟩)
  case h_7 =>
    exact (honours_onNumbers _ fun _ s => ⟨s.1, s.2.1⟩).bind fun result =>
      honours_newResult (fun _ _ _ => isMissingNumber_div) result
  case h_8 =>
    exact (honours_onNumbers _ fun _ s => ⟨s.1, s.2.1⟩).bind fun result =>
      honours_newResult (fun _ _ _ => isMissingNumber_mod) result
  case h_9 =>
    exact (honours_onNumbers _ fun _ s => ⟨s.1, s.2.1⟩).bind fun result =>
      honours_newResult (fun _ _ _ => isMissingNumber_pow) result
  case h_14 a b =>
    refine (honours_payload b).bind fun p => ?_
    split
    · exact (Careful.pure _).honours
    · exact Careful.after (fun x => .pure _) (honours_numeric fun _ s => s.1.1)
  case h_15 =>
    exact Careful.honours (Careful.bind (careful_toNumber _) fun x =>
      careful_newFor _ fun _ => trivial)
  case h_16 =>
    exact Careful.honours (Careful.bind (careful_toInteger _) fun i =>
      careful_newFor _ fun _ => trivial)
  case h_17 => exact careful_dangling.honours

theorem careful_runTruth (hk : k.IsCareful) (f : TruthFunction) (args : List Ref) :
    (runTruth k f args).Careful := by
  unfold runTruth
  grind

/-! ### Texts -/

@[grind ←] theorem careful_indexOf (r : Ref) : (indexOf r).Careful := by
  unfold indexOf
  grind

@[grind ←] theorem careful_sameText (a b : Ref) : (sameText a b).Careful := by
  unfold sameText
  grind

@[grind ←] theorem careful_newStrs (texts : List String) : (newStrs texts).Careful := by
  induction texts with
  | nil => exact .pure _
  | cons s later ih =>
    unfold newStrs
    grind

@[grind ←] theorem careful_joinParts (i : Nat) (items : List Ref) : (joinParts i items).Careful := by
  induction items generalizing i with
  | nil => exact .pure _
  | cons item later ih =>
    unfold joinParts
    grind

@[grind ←] theorem careful_split (s : String) (separator : Ref) : (split s separator).Careful := by
  unfold split
  grind

theorem honours_runText (hk : k.IsCareful) (f : TextFunction) (args : List Ref) :
    (runText k f args).Honours (·.Supplies (Native.text f).needs args) (fun _ _ => True) := by
  unfold runText
  split
  case h_1 | h_5 | h_7 | h_8 | h_9 | h_10 =>
    exact Careful.after (fun s => by grind) (honours_onTexts _ fun _ s => ⟨s.1, s.2.1⟩)
  case h_2 | h_3 | h_4 | h_11 | h_14 | h_15 | h_16 =>
    exact Careful.after (fun s => by grind) (honours_textOf fun _ s => s.1)
  case h_6 => exact Careful.honours (by grind)
  case h_12 a =>
    refine (honours_load a).bind fun o => ?_
    split
    · exact (Careful.pure _).honours
    · exact Careful.after (fun s => by grind) (honours_textOf fun _ s => s.1.1)
  case h_13 a =>
    exact (honours_new _).weaken (fun _ _ s => s.1) fun _ _ _ => id
  case h_17 a items =>
    refine (honours_textOf fun _ s => s.1).bind fun s => ?_
    refine (honours_payloadOf fun _ s => s.2.1).bind fun p => ?_
    cases p with
    | list items => exact Careful.honours (by grind)
    | _ => exact Honours.of_absurd fun _ h => nomatch h.2
  case h_18 =>
    exact Careful.honours (Careful.bind (careful_display hk _) fun s =>
      careful_newFor _ fun _ => trivial)
  case h_19 => exact careful_dangling.honours

/-! ### Iteration -/

@[grind ←] theorem careful_getIterator (hk : k.IsCareful) (value : Ref) :
    (getIterator k value).Careful := by
  unfold getIterator
  grind

/-- Data is still there after a new object was stored. -/
theorem honours_new_holds (p : Payload) (relies : ∀ h, p.Relies h) (r : Ref) (kind : Kind) :
    (new p).Honours (·.Holds r kind) (fun _ h => h.Holds r kind) := by
  intro due held m sound holds fits
  obtain ⟨moments, ends⟩ := careful_new relies due held m sound trivial fits
  refine ⟨moments, ends.sound, ?_⟩
  intro a m' run
  cases stored : m.heap.allocate (.ofPayload p none) with
  | mk result h' =>
    simp only [new, runUnder, Op.perform, Op.onHeap, stored] at run
    cases result with
    | error e => cases run
    | ok r' =>
      cases run
      exact holds.of_stores (Heap.stores_of_allocate sound.agrees.wellFormed stored)

/-- An iterator stays on the data over which it runs. -/
theorem honours_advance (cursor : Cursor) :
    (advance cursor).Honours (cursor.Relies ·) (fun next h => next.2.Relies h) := by
  cases cursor with
  | list list index =>
    refine (honours_payloadOf fun _ s => s).bind fun p => ?_
    cases p with
    | list items =>
      dsimp only
      split
      · exact Honours.gives _ fun _ _ s => s.1
      · exact honours_raise rfl
    | _ => exact Honours.of_absurd fun _ h => nomatch h.2
  | text text offset =>
    refine (honours_payloadOf fun _ s => s).bind fun p => ?_
    cases p with
    | str s =>
      dsimp only
      split
      · rename_i c _
        refine Honours.bind ((honours_new_holds (.str _) (fun _ => trivial) text .string).weaken
          (fun _ _ s => s.1) fun _ _ _ => id) fun item => ?_
        exact Honours.pure (Q := fun next h => next.2.Relies h) (item, Cursor.text text (offset + c.utf8Size))
      · exact honours_raise rfl
    | _ => exact Honours.of_absurd fun _ h => nomatch h.2
  | range next stop step =>
    have item (after : Int64) : (do
        let item ← newInt next
        return (item, Cursor.range after stop step)).Honours (Cursor.range next stop step |>.Relies ·)
          (fun next h => next.2.Relies h) :=
      (careful_newInt next).honours.bind fun item => Honours.gives _ fun _ _ _ => trivial
    unfold advance
    dsimp only
    split <;> split
    all_goals first | exact item _ | exact honours_raise rfl
  | keys map index =>
    refine (honours_payloadOf fun _ s => s).bind fun p => ?_
    cases p with
    | map entries =>
      dsimp only
      split
      · exact Honours.gives _ fun _ _ s => s.1
      · exact honours_raise rfl
    | _ => exact Honours.of_absurd fun _ h => nomatch h.2

theorem honours_iteratorNext (iterator : Ref) :
    (iteratorNext iterator).Honours (·.Holds iterator .iterator) (fun _ _ => True) := by
  refine (honours_payload iterator).bind fun p => ?_
  cases p with
  | iterator cursor =>
    refine Honours.bind ((honours_advance cursor).weaken ?_ fun _ _ _ => id) fun next => ?_
    · rintro h sound ⟨-, found⟩
      obtain ⟨o, at_r, iterator⟩ := Option.map_eq_some_iff.mp found
      have relies := sound.reliable _ o at_r
      rw [iterator] at relies
      exact relies
    · exact Careful.after (fun _ => .pure _) (honours_act (.change iterator (.cursor next.2)))
  | _ =>
    refine Honours.of_absurd ?_
    rintro h ⟨⟨p', found', is⟩, found⟩
    rw [found] at found'
    cases found'
    cases is

theorem careful_resume (hk : k.IsCareful) (generator : Ref) (name : String) (frame : Frame)
    (before : GeneratorState) : (resume k generator name frame before).Careful := by
  refine (careful_change generator rfl).bind fun _ => ?_
  refine (Careful.resuming generator name (hk.runFrame frame)).bind fun ended => ?_
  grind

theorem honours_generatorNext (hk : k.IsCareful) (generator : Ref) :
    (generatorNext k generator).Honours (·.Holds generator .generator) (fun _ _ => True) := by
  refine (honours_payloadOf fun _ s => s).bind fun p => ?_
  cases p with
  | generator name state =>
    cases state with
    | running => exact honours_raise rfl
    | finished => exact honours_raise rfl
    | fresh frame => exact (careful_resume hk _ _ _ _).honours
    | suspended frame => exact (careful_resume hk _ _ _ _).honours
  | _ => exact Honours.of_absurd fun _ h => nomatch h.2

@[grind ←] theorem careful_iterateNext (hk : k.IsCareful) (iterator : Ref) :
    (iterateNext k iterator).Careful := by
  refine Honours.bind (honours_payload iterator) fun p => ?_
  split
  · refine (honours_iteratorNext iterator).weaken ?_ fun _ _ _ => id
    exact fun h _ found => Heap.holds_of_payload? found.2 rfl
  · refine (honours_generatorNext hk iterator).weaken ?_ fun _ _ _ => id
    exact fun h _ found => Heap.holds_of_payload? found.2 rfl
  · exact Careful.honours (by grind)

@[grind ←] theorem careful_drain (hk : k.IsCareful) (iterator : Ref) (taken : List Ref) :
    (drain k iterator taken).Careful := by
  unfold drain
  grind

@[grind ←] theorem careful_collectItems (hk : k.IsCareful) (iterable : Ref) :
    (collectItems k iterable).Careful := by
  unfold collectItems
  grind

/-! ### Lists, maps and ranges -/

theorem honours_modifyItems {list : Ref} (f : Array Ref → Array Ref)
    (holds : ∀ h, P h → h.Holds list .list) : (modifyItems list f).Honours P (fun _ _ => True) :=
  Careful.after (fun _ => careful_change list rfl) (honours_itemsOf holds)

theorem honours_modifyEntries {map : Ref} (f : Entries → Entries)
    (holds : ∀ h, P h → h.Holds map .map) : (modifyEntries map f).Honours P (fun _ _ => True) :=
  Careful.after (fun _ => careful_change map rfl) (honours_entriesOf holds)

@[grind ←] theorem careful_listPosition (index : Ref) (length : Nat) :
    (listPosition index length).Careful := by
  unfold listPosition
  grind

/-- Finding a position changes nothing. -/
theorem honours_listPosition (index : Ref) (length : Nat) :
    (listPosition index length).Honours P (fun _ h => P h) := by
  refine Honours.bind (R := fun _ h => P h) ?_ fun i => ?_
  · refine (honours_payload index).bind fun p => ?_
    split <;> exact Honours.gives _ fun _ _ h => h.1
  · split
    · exact Honours.gives _ fun _ _ => id
    · exact honours_raise rfl

@[grind ←] theorem careful_containsItem (hk : k.IsCareful) (value : Ref) (items : List Ref) :
    (containsItem k value items).Careful := by
  induction items with
  | nil => exact .pure _
  | cons item later ih =>
    unfold containsItem
    grind

@[grind ←] theorem careful_equalItems (hk : k.IsCareful) (pairs : List (Ref × Ref)) :
    (equalItems k pairs).Careful := by
  induction pairs with
  | nil => exact .pure _
  | cons pair later ih =>
    unfold equalItems
    grind

@[grind ←] theorem careful_shownItems (hk : k.IsCareful) (list : Ref) (items : List Ref) :
    (shownItems k list items).Careful := by
  induction items with
  | nil => exact .pure _
  | cons item later ih =>
    unfold shownItems
    grind

theorem honours_runList (hk : k.IsCareful) (f : ListFunction) (args : List Ref) :
    (runList k f args).Honours (·.Supplies (Native.list f).needs args) (fun _ _ => True) := by
  unfold runList
  split
  case h_1 => exact Careful.after (fun _ => .pure _) (honours_modifyItems _ fun _ s => s.1)
  case h_2 list =>
    refine (honours_itemsOf fun _ s => s.1).bind fun items => ?_
    split
    · exact Careful.after (fun _ => .pure _) (honours_modifyItems _ fun _ s => s.1)
    · exact honours_raise rfl
  case h_3 | h_6 | h_7 | h_11 | h_12 =>
    exact Careful.after (fun items => by grind) (honours_itemsOf fun _ s => s.1)
  case h_4 | h_5 =>
    refine (honours_itemsOf fun _ s => s.1).bind fun items => ?_
    refine (honours_listPosition _ _).bind fun i => ?_
    exact Careful.after (fun _ => .pure _) (honours_modifyItems _ fun _ s => s.1)
  case h_8 a b =>
    refine (honours_itemsOf fun _ s => s.1).bind fun items => ?_
    exact Careful.after (fun more => careful_new fun _ => trivial) (honours_itemsOf fun _ s => s.2.1)
  case h_9 a b =>
    refine (honours_payload b).bind fun p => ?_
    split
    · exact Careful.after (fun items => by grind) (honours_itemsOf fun _ s => s.1.1)
    · exact (Careful.pure _).honours
  case h_10 => exact (honours_new _).weaken (fun _ _ s => s.1) fun _ _ _ => id
  case h_13 =>
    refine Careful.honours ?_
    dsimp only
    split
    · exact careful_newFor _ fun _ => trivial
    · exact (careful_collectItems hk _).bind fun items => careful_newFor _ fun _ => trivial
  case h_14 => exact careful_dangling.honours

@[grind ←] theorem careful_newMap (operands : List Ref) : (newMap operands).Careful :=
  (careful_ask _).bind fun _ => careful_new fun _ => trivial

@[grind ←] theorem careful_shownEntries (hk : k.IsCareful) (map : Ref) (pairs : List (Ref × Ref)) :
    (shownEntries k map pairs).Careful := by
  induction pairs with
  | nil => exact .pure _
  | cons pair later ih =>
    unfold shownEntries
    grind

@[grind ←] theorem careful_missingKey {α : Type} (hk : k.IsCareful) (key : Ref) :
    (missingKey k key : Engine α).Careful := by
  unfold missingKey
  grind

theorem honours_runMap (hk : k.IsCareful) (f : MapFunction) (args : List Ref) :
    (runMap k f args).Honours (·.Supplies (Native.map f).needs args) (fun _ _ => True) := by
  unfold runMap
  split
  case h_1 | h_4 | h_5 | h_6 | h_7 | h_8 | h_10 | h_11 =>
    exact Careful.after (fun entries => by grind) (honours_entriesOf fun _ s => s.1)
  case h_2 =>
    refine (honours_ask _).bind fun identity => ?_
    exact Careful.after (fun _ => .pure _) (honours_modifyEntries _ fun _ s => s.1.1)
  case h_3 =>
    refine (honours_ask _).bind fun identity => ?_
    refine (honours_entriesOf fun _ s => s.1.1).bind fun entries => ?_
    split
    · exact Careful.after (fun _ => .pure _) (honours_modifyEntries _ fun _ s => s.1.1)
    · exact (careful_missingKey hk _).honours
  case h_9 => exact (honours_new _).weaken (fun _ _ s => s.1) fun _ _ _ => id
  case h_12 => exact Careful.honours (careful_newFor _ fun _ => trivial)
  case h_13 => exact careful_dangling.honours

@[grind ←] theorem careful_rangeBounds (first stop : Ref) : (rangeBounds first stop).Careful := by
  unfold rangeBounds
  grind

@[grind ←] theorem careful_rangeItem (range : Range) (index : Int64) :
    (rangeItem range index).Careful := by
  unfold rangeItem
  grind

theorem honours_runRange (f : RangeFunction) (args : List Ref) :
    (runRange f args).Honours (·.Supplies (Native.range f).needs args) (fun _ _ => True) := by
  unfold runRange
  split
  case h_1 cls first stop step =>
    refine Careful.honours ?_
    refine (careful_rangeBounds first stop).bind fun bounds => ?_
    refine (careful_payload step).bind fun p => ?_
    have making (step : Int64) : (if h : step = 0 then raise .zeroStep
        else newFor cls (.range ⟨bounds.1, bounds.2, step, h⟩)).Careful := by
      split
      · exact careful_raise rfl
      · exact careful_newFor _ fun _ => trivial
    dsimp only
    split <;> exact making _
  case h_2 =>
    exact Careful.after (fun range => careful_new fun _ => trivial) (honours_rangeOf fun _ s => s.1)
  case h_3 | h_4 | h_5 | h_6 =>
    exact Careful.after (fun range => by grind) (honours_rangeOf fun _ s => s.1)
  case h_7 => exact careful_dangling.honours

/-! ### Other objects -/

@[grind ←] theorem careful_errorText (hk : k.IsCareful) (error : Ref) : (errorText k error).Careful := by
  refine (careful_load error).bind fun o => ?_
  grind

theorem honours_runObject (hk : k.IsCareful) (f : ObjectFunction) (args : List Ref) :
    (runObject k f args).Honours (·.Supplies (Native.object f).needs args) (fun _ _ => True) := by
  unfold runObject
  split
  case h_1 => exact (careful_instantiate hk _ _).honours
  case h_2 => exact Careful.honours (by grind)
  case h_3 =>
    refine (honours_functionOf fun _ s => s.1).bind fun f => ?_
    split
    · rename_i bound bind
      exact (honours_new _).weaken (fun _ _ declared => (isDeclared_of_bind bind).trans declared)
        fun _ _ _ => id
    · exact honours_raise (by grind [Function.bind])
  case h_4 => exact Careful.after (fun f => by grind) (honours_functionOf fun _ s => s.1)
  case h_5 => exact (honours_iteratorNext _).weaken (fun _ _ s => s.1) fun _ _ _ => id
  case h_6 => exact (Careful.pure _).honours
  case h_7 => exact (honours_generatorNext hk _).weaken (fun _ _ s => s.1) fun _ _ _ => id
  case h_8 cls args =>
    have making (message : String) : (do
        let error ← newOf cls (.error [] [])
        let text ← newStr message
        writeMember error "message" text
        return error).Careful := by
      refine Careful.bind (careful_newOf _ fun _ => ?_) fun error => ?_
      · trivial
      · grind
    refine Careful.honours ?_
    dsimp only
    split
    · exact (careful_display hk _).bind making
    · exact making _
  case h_9 => exact Careful.honours (by grind)
  case h_10 => exact careful_dangling.honours

@[grind ←] theorem careful_printAll (hk : k.IsCareful) (first : Bool) (values : List Ref) :
    (printAll k first values).Careful := by
  induction values generalizing first with
  | nil => exact .pure _
  | cons value later ih =>
    unfold printAll
    grind

@[grind ←] theorem careful_nameOf (r : Ref) : (nameOf r).Careful := by
  unfold nameOf
  grind

@[grind ←] theorem careful_lengthOf (hk : k.IsCareful) (value : Ref) : (lengthOf k value).Careful := by
  unfold lengthOf
  grind

@[grind ←] theorem careful_viewOf (type value : Ref) : (viewOf type value).Careful := by
  have making (target : Ref) : (do
      if ← ask fun h => h.isInstance target type then new (.baseView target type)
      else
        let name ← ask fun h => h.nameOfType type
        raise (.viewOf name (← ask fun h => h.typeName target))).Careful := by
    refine (careful_ask _).bind fun is => ?_
    split
    · exact careful_new fun _ => trivial
    · grind
  refine (careful_payload value).bind fun p => ?_
  dsimp only
  split <;> exact making _

theorem honours_runGlobal (hk : k.IsCareful) (f : GlobalFunction) (args : List Ref) :
    (runGlobal k f args).Honours (·.Supplies (Native.global f).needs args) (fun _ _ => True) := by
  unfold runGlobal
  split
  case h_10 | h_11 | h_12 =>
    exact Careful.after (fun name => by grind) (honours_memberName fun _ s => s.1)
  all_goals exact Careful.honours (by grind)

/-- A built-in function finds the data that it reads. -/
theorem honours_runNative (hk : k.IsCareful) (n : Native) (args : List Ref) :
    (runNative k n args).Honours (·.Supplies n.needs args) (fun _ _ => True) := by
  cases n with
  | number f => exact honours_runNumber f args
  | truth f => exact (careful_runTruth hk f args).honours
  | text f => exact honours_runText hk f args
  | list f => exact honours_runList hk f args
  | map f => exact honours_runMap hk f args
  | range f => exact honours_runRange f args
  | object f => exact honours_runObject hk f args
  | global f => exact honours_runGlobal hk f args

end ObjectMachine.Engine
