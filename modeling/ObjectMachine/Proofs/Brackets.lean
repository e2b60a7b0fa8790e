import ObjectMachine.Proofs.Dispatches
import ObjectMachine.Proofs.Reports
import ObjectMachine.Proofs.Retention
import ObjectMachine.Proofs.Routine.Run
/-!
The brackets among the events: calls with their returns, and protected blocks with their exits. A return is
reported whichever way a call ends. The exit of a block is not reported in two cases: if one of its sections
is refused, and if its handler cannot be prepared. `lapses` counts these in a history. While no value is
handed out, they are all that keeps the brackets from being properly nested.
-/
namespace ObjectMachine

/-! ### Words of brackets -/

/-- A properly nested word: every call is closed by its return and every block by its exit, at the same
depth, and no bracket is left open. Other events do not matter. -/
inductive Nested : List Event → Prop where
  | nil : Nested []
  | other {e : Event} {later : List Event} (plain : e.isBracket = false) (rest : Nested later) :
    Nested (e :: later)
  | call (name : String) (depth : Nat) {inner later : List Event} (inside : Nested inner)
    (rest : Nested later) : Nested (.call name depth :: (inner ++ .leave depth :: later))
  | block (depth : Nat) {inner later : List Event} (inside : Nested inner) (rest : Nested later) :
    Nested (.tryEnter depth :: (inner ++ .tryExit depth :: later))

/-- A word that is properly nested but for a number of blocks whose exit is missing. -/
inductive Bracketed : Nat → List Event → Prop where
  | nil : Bracketed 0 []
  | other {e : Event} (plain : e.isBracket = false) : Bracketed 0 [e]
  | append {n n' : Nat} {word word' : List Event} (first : Bracketed n word) (later : Bracketed n' word') :
    Bracketed (n + n') (word ++ word')
  | call (name : String) (depth : Nat) {n : Nat} {inner : List Event} (inside : Bracketed n inner) :
    Bracketed n (.call name depth :: (inner ++ [.leave depth]))
  | block (depth : Nat) {n : Nat} {inner : List Event} (inside : Bracketed n inner) :
    Bracketed n (.tryEnter depth :: (inner ++ [.tryExit depth]))
  | lapse (depth : Nat) {n : Nat} {inner : List Event} (inside : Bracketed n inner) :
    Bracketed (n + 1) (.tryEnter depth :: inner)

namespace Event

/-- Whether an event opens a block. -/
def isEntry : Event → Bool
  | tryEnter _ => true
  | _ => false

/-- Whether an event closes a block. -/
def isExit : Event → Bool
  | tryExit _ => true
  | _ => false

/-- Whether an event is an instruction that hands out a value. -/
def isYield : Event → Bool
  | instruction _ opcode .. => opcode == Opcode.yieldValue.name
  | _ => false

end Event

namespace Nested

variable {word word' : List Event}

theorem append (first : Nested word) (later : Nested word') : Nested (word ++ word') := by
  induction first with
  | nil => exact later
  | other plain _ ih => exact .other plain ih
  | call name depth inside _ _ ih =>
    rw [List.cons_append, List.append_assoc]
    exact .call name depth inside ih
  | block depth inside _ _ ih =>
    rw [List.cons_append, List.append_assoc]
    exact .block depth inside ih

/-- As many blocks are closed as are opened. -/
theorem countP_isEntry (nested : Nested word) : word.countP Event.isEntry = word.countP Event.isExit := by
  induction nested with
  | nil => rfl
  | @other e later plain _ ih =>
    have entry : e.isEntry = false := by cases e <;> first | rfl | cases plain
    have exit : e.isExit = false := by cases e <;> first | rfl | cases plain
    simp only [List.countP_cons, entry, exit, ih]
  | call name depth _ _ ihInner ihLater =>
    simp only [List.countP_cons, List.countP_append, Event.isEntry, Event.isExit, ihInner, ihLater,
      Bool.false_eq_true, if_false]
  | block depth _ _ ihInner ihLater =>
    simp only [List.countP_cons, List.countP_append, Event.isEntry, Event.isExit, ihInner, ihLater,
      Bool.false_eq_true, if_true, if_false]
    omega

end Nested

namespace Bracketed

variable {n : Nat} {word : List Event}

/-- The blocks that are opened and not closed are those whose exit is missing. -/
theorem countP_isEntry (bracketed : Bracketed n word) :
    word.countP Event.isEntry = word.countP Event.isExit + n := by
  induction bracketed with
  | nil => rfl
  | @other e plain => cases e <;> first | rfl | cases plain
  | append _ _ ih ih' =>
    simp only [List.countP_append, ih, ih']
    omega
  | call name depth _ ih =>
    simp only [List.countP_cons, List.countP_append, List.countP_nil, Event.isEntry, Event.isExit, ih,
      Bool.false_eq_true, if_false]
    omega
  | block depth _ ih =>
    simp only [List.countP_cons, List.countP_append, List.countP_nil, Event.isEntry, Event.isExit, ih,
      Bool.false_eq_true, if_true, if_false]
    omega
  | lapse depth _ ih =>
    simp only [List.countP_cons, Event.isEntry, Event.isExit, ih, Bool.false_eq_true, if_true, if_false]
    omega

theorem nested (bracketed : Bracketed n word) (none : n = 0) : Nested word := by
  induction bracketed with
  | nil => exact .nil
  | other plain => exact .other plain .nil
  | append _ _ ih ih' => exact (ih (by omega)).append (ih' (by omega))
  | call name depth _ ih => exact .call name depth (ih none) .nil
  | block depth _ ih => exact .block depth (ih none) .nil
  | lapse depth _ => omega

/-- The word is properly nested exactly if no exit is missing. -/
theorem nested_iff (bracketed : Bracketed n word) : Nested word ↔ n = 0 := by
  refine ⟨fun nested => ?_, bracketed.nested⟩
  have given := bracketed.countP_isEntry
  have counted := nested.countP_isEntry
  omega

end Bracketed

/-! ### Lapses -/

namespace Moment

/-- Whether a handler is being prepared after a moment, if that is so before it: the guarded section has
ended with an error, and nothing went wrong and nothing was reported since then. -/
def prepares (due : Schedule) (preparing : Bool) : Moment → Bool
  | shuts .guarded _ (.error (.raised _) _) => true
  | acts (.observe _) _ _ => false
  | acts o _ m =>
    match o.perform due m with
    | .ok .. => preparing
    | .error .. => false
  | forgiven moment => moment.prepares due preparing
  | _ => false

/-- Whether a block is left at a moment without a report of its exit: a section is refused, or an operation
fails that prepares the handler. -/
def lapse (due : Schedule) (preparing : Bool) : Moment → Nat
  | bars .. => 1
  | acts o _ m =>
    match o.perform due m with
    | .ok .. => 0
    | .error .. => if preparing then 1 else 0
  | forgiven moment => moment.lapse due preparing
  | _ => 0

end Moment

/-- How many blocks are left without a report in a history, which starts with the preparation of a handler or
not. -/
def lapses (due : Schedule) : Bool → List Moment → Nat
  | _, [] => 0
  | preparing, moment :: later =>
    moment.lapse due preparing + lapses due (moment.prepares due preparing) later

/-- Whether a handler is being prepared at the end of a history. -/
def isPreparing (due : Schedule) (start : Bool) (history : List Moment) : Bool :=
  history.foldl (Moment.prepares due) start

section
variable {due : Schedule} {start : Bool} {first later : List Moment}

theorem lapses_append :
    lapses due start (first ++ later) = lapses due start first + lapses due (isPreparing due start first) later := by
  induction first generalizing start with
  | nil => simp only [lapses, isPreparing, List.foldl_nil, List.nil_append, Nat.zero_add]
  | cons moment first ih =>
    simp only [List.cons_append, lapses, ih, isPreparing, List.foldl_cons, Nat.add_assoc]

theorem isPreparing_append :
    isPreparing due start (first ++ later) = isPreparing due (isPreparing due start first) later :=
  List.foldl_append

theorem lapses_forgiven (history : List Moment) :
    lapses due start (history.map .forgiven) = lapses due start history := by
  induction history generalizing start with
  | nil => rfl
  | cons moment later ih => exact congrArg (moment.lapse due start + ·) ih

theorem isPreparing_forgiven (history : List Moment) :
    isPreparing due start (history.map .forgiven) = isPreparing due start history :=
  List.foldl_map

end

/-! ### Heaps in which no section waits -/

/-- No section waits in the frame of a generator. -/
def GeneratorState.Unparked : GeneratorState → Prop
  | fresh f | suspended f => f.parked = []
  | _ => True

/-- Data with no section that waits in it. -/
def Payload.Unparked : Payload → Prop
  | generator _ state => state.Unparked
  | _ => True

/-- An operation that stores no section that waits. -/
def Op.SparesSections {α : Type} : Op α → Prop
  | store o => o.payload.Unparked
  | change _ (.generator state) => state.Unparked
  | _ => True

/-- No section waits in any generator. -/
structure Heap.Unparked (h : Heap) : Prop where
  /-- The slots are in order. -/
  wellFormed : h.objects.WellFormed
  /-- No section waits. -/
  data : ∀ r p, h.payload? r = some p → p.Unparked

theorem Payload.Unparked.of_isCode {p : Payload} (plain : p.isCode = false) : p.Unparked := by
  cases p with
  | generator name state => cases plain
  | _ => trivial

theorem Payload.Unparked.onPayload {p : Payload} (unparked : p.Unparked) {c : Change}
    (spares : ∀ state, c = .generator state → state.Unparked) : (c.onPayload p).Unparked := by
  cases c with
  | generator state =>
    cases p with
    | generator name before => exact spares state rfl
    | _ => trivial
  | _ => cases p <;> exact unparked

namespace Heap.Unparked

variable {h h' : Heap}

theorem of_objects_eq (unparked : h.Unparked) (same : h'.objects = h.objects) : h'.Unparked := by
  refine ⟨same ▸ unparked.wellFormed, fun r p found => unparked.data r p ?_⟩
  rw [← found]
  simp only [payload?, object?, same]

theorem modify (unparked : h.Unparked) (r : Ref) {c : Change}
    (spares : ∀ state, c = .generator state → state.Unparked) : (h.modify r c.apply).Unparked := by
  refine ⟨unparked.wellFormed.modify _ _, fun r' p found => ?_⟩
  rw [payload?_modify] at found
  split at found
  · obtain ⟨q, before, rfl⟩ := Option.map_eq_some_iff.mp found
    exact (unparked.data r' q before).onPayload spares
  · exact unparked.data r' p found

end Heap.Unparked

theorem Op.unparked_perform {α : Type} {due : Schedule} {m : Machine} (o : Op α)
    (spares : o.SparesSections) (unparked : m.heap.Unparked) :
    (o.perform due m).machine.heap.Unparked := by
  obtain ⟨wellFormed, origin⟩ := o.origin_perform due unparked.wellFormed
  refine ⟨wellFormed, fun r p found => ?_⟩
  cases origin r p found with
  | kept found => exact unparked.data r p found
  | changed c q changes before became =>
    subst became
    refine (unparked.data r q before).onPayload fun state same => ?_
    cases o with
    | change _ _ =>
      cases changes
      subst same
      exact spares
    | _ => cases changes
  | made makes =>
    cases o with
    | store o => exact (show p = o.payload from makes) ▸ spares
    | storeType => cases p <;> trivial
    | _ => exact makes.elim

/-! ### Computations that close their brackets -/

/-- What a computation brings about on a machine, if no value is handed out: no section is left waiting, and
the brackets that it leaves open are its lapses. -/
structure Engine.ClosesFrom {α : Type} (due : Schedule) (held : List Node) (Q : α → Prop) (x : Engine α)
    (m : Machine) : Prop where
  /-- No section waits. -/
  unparked : (x.runUnder due m).machine.heap.Unparked
  /-- The brackets are closed but for the lapses. -/
  brackets : Bracketed (lapses due false (x.history due held m)) (x.reports due m)
  /-- No handler is being prepared. -/
  settled : isPreparing due false (x.history due held m) = false
  /-- The value has a property. -/
  value : ∀ a m', x.runUnder due m = .ok a m' → Q a

/-- A computation that hands out no value closes its brackets but for the lapses. -/
def Engine.Closes {α : Type} (due : Schedule) (Q : α → Prop) (x : Engine α) : Prop :=
  ∀ held m, m.heap.Unparked → (∀ e ∈ x.reports due m, e.isYield = false) → x.ClosesFrom due held Q m

namespace Engine.Closes

variable {α β : Type} {due : Schedule} {P Q : α → Prop} {R : β → Prop} {x : Engine α}

theorem mono (closes : x.Closes due P) (weaker : ∀ a, P a → Q a) : x.Closes due Q := by
  intro held m unparked silent
  obtain ⟨unparked, brackets, settled, value⟩ := closes held m unparked silent
  exact ⟨unparked, brackets, settled, fun a m' ran => weaker a (value a m' ran)⟩

theorem of_gives (closes : x.Closes due P) (gives : x.Gives Q) : x.Closes due Q := by
  intro held m unparked silent
  obtain ⟨unparked, brackets, settled, -⟩ := closes held m unparked silent
  exact ⟨unparked, brackets, settled, gives due m⟩

theorem pure {a : α} (holds : Q a) : (Pure.pure a : Engine α).Closes due Q := by
  intro held m unparked _
  refine ⟨unparked, .nil, rfl, ?_⟩
  rintro _ _ ⟨⟩
  exact holds

theorem throw (e : Interrupt) : (Engine.throw e : Engine α).Closes due Q := by
  intro held m unparked _
  refine ⟨unparked, .nil, rfl, ?_⟩
  rintro _ _ ⟨⟩

theorem act {o : Op α} (spares : o.SparesSections)
    (plain : ∀ m, ∀ e ∈ o.reports m, e.isBracket = false) :
    (Engine.act o).Closes due fun _ => True := by
  intro held m unparked _
  have lapse : (Moment.acts o held m).lapse due false = 0 := by
    simp only [Moment.lapse]
    split <;> rfl
  have prepares : (Moment.acts o held m).prepares due false = false := by
    cases o with
    | observe e => rfl
    | _ =>
      simp only [Moment.prepares]
      split <;> rfl
  refine ⟨o.unparked_perform spares unparked, ?_, prepares, fun _ _ _ => trivial⟩
  simp only [history, lapses, lapse, reports]
  cases o with
  | observe e => exact .other (plain m _ List.mem_cons_self)
  | _ => exact .nil

theorem andThen {f : α → Engine β} (first : x.Closes due P) (later : ∀ a, P a → (f a).Closes due R) :
    (Engine.andThen x f).Closes due R := by
  intro held m unparked silent
  simp only [reports, List.mem_append] at silent
  obtain ⟨between, brackets, settled, value⟩ := first held m unparked fun e mem => silent e (.inl mem)
  cases ran : x.runUnder due m with
  | error e m' =>
    rw [ran] at between
    refine ⟨?_, ?_, ?_, ?_⟩
    · simp only [runUnder, ran]
      exact between
    · simpa only [reports, history, ran, List.append_nil] using brackets
    · simpa only [history, ran, List.append_nil] using settled
    · simp only [runUnder, ran]
      rintro _ _ ⟨⟩
  | ok a m' =>
    rw [ran] at between
    simp only [ran] at silent
    obtain ⟨unparked, brackets', settled', value'⟩ :=
      later a (value a m' ran) held m' between fun e mem => silent e (.inr mem)
    refine ⟨?_, ?_, ?_, ?_⟩
    · simpa only [runUnder, ran] using unparked
    · simpa only [reports, history, ran, lapses_append, settled] using brackets.append brackets'
    · simpa only [history, ran, isPreparing_append, settled] using settled'
    · simpa only [runUnder, ran] using value'

theorem bind {f : α → Engine β} (first : x.Closes due P) (later : ∀ a, P a → (f a).Closes due R) :
    (x >>= f).Closes due R :=
  first.andThen later

theorem keeping (nodes : List Node) (inner : x.Closes due Q) : (Engine.keeping nodes x).Closes due Q := by
  intro held m unparked silent
  obtain ⟨unparked, brackets, settled, value⟩ := inner held (m.pushRoots nodes) unparked silent
  refine ⟨?_, brackets, settled, fun a m' ran => ?_⟩
  · rw [heap_runUnder_keeping]
    exact unparked
  · obtain ⟨m₁, ran, -⟩ := ok_of_keeping ran
    exact value a m₁ ran

theorem holding (nodes : List Node) (inner : x.Closes due Q) : (Engine.holding nodes x).Closes due Q := by
  intro held m unparked silent
  obtain ⟨unparked, brackets, settled, value⟩ := inner (nodes ++ held) m unparked silent
  exact ⟨unparked, brackets, settled, value⟩

theorem executing (site : Site) (inner : x.Closes due Q) : (Engine.executing site x).Closes due Q := by
  intro held m unparked silent
  obtain ⟨unparked, brackets, settled, value⟩ := inner held m unparked silent
  refine ⟨?_, brackets, settled, fun a m' ran => value a m' (ok_of_executing ran)⟩
  rw [heap_runUnder_executing]
  exact unparked

theorem catching (inner : x.Closes due Q) : (Engine.catching x).Closes due fun _ => True := by
  intro held m unparked silent
  obtain ⟨unparked, brackets, settled, -⟩ := inner held m unparked silent
  refine ⟨?_, brackets, settled, fun _ _ _ => trivial⟩
  rw [heap_runUnder_catching]
  exact unparked

theorem forgiving (inner : x.Closes due Q) : (Engine.forgiving x).Closes due fun _ => True := by
  intro held m unparked silent
  obtain ⟨unparked, brackets, settled, -⟩ := inner held m unparked silent
  refine ⟨?_, ?_, ?_, fun _ _ _ => trivial⟩
  · rw [heap_runUnder_forgiving]
    exact unparked
  · simpa only [history, reports, lapses_forgiven] using brackets
  · simpa only [history, isPreparing_forgiven] using settled

/-- A call that is refused reports nothing. -/
theorem of_refused {held : List Node} {m : Machine} {e : Interrupt} (unparked : m.heap.Unparked)
    (history : x.history due held m = [.refuses m]) (reports : x.reports due m = [])
    (ran : x.runUnder due m = .error e m) : x.ClosesFrom due held Q m := by
  refine ⟨ran ▸ unparked, ?_, by rw [history]; rfl, ?_⟩
  · rw [history, reports]
    exact .nil
  · rw [ran]
    rintro _ _ ⟨⟩

theorem calling (name : String) (args : List Ref) (inner : x.Closes due Q) :
    (Engine.calling name args x).Closes due Q := by
  intro held m unparked silent
  cases entered : m.enter with
  | error e =>
    exact of_refused unparked (by simp only [history, Machine.historyInside, entered])
      (by simp only [reports, Machine.reportsInside, entered]) (by simp only [runUnder, entered]; rfl)
  | ok inside =>
    have begun : (inside.observe (.call name)).heap.Unparked :=
      (Machine.heap_of_enter entered).symm ▸ unparked
    simp only [reports, Machine.reportsInside, entered] at silent
    obtain ⟨unparked, brackets, settled, value⟩ := inner held _ begun fun e mem =>
      silent e (List.mem_cons_of_mem _ (List.mem_append_left _ mem))
    refine ⟨?_, ?_, ?_, fun a m' ran => ?_⟩
    · rw [heap_runUnder_calling due name args x entered]
      exact unparked
    · simp only [history, Machine.historyInside, reports, Machine.reportsInside, entered, lapses,
        Moment.lapse, Moment.prepares, Nat.zero_add]
      exact .call name _ brackets
    · simp only [history, Machine.historyInside, entered]
      exact settled
    · obtain ⟨m₁, ran, -⟩ := ok_of_calling entered ran
      exact value a m₁ ran

theorem nested (inner : x.Closes due Q) : (Engine.nested x).Closes due Q := by
  intro held m unparked silent
  cases entered : m.enter with
  | error e =>
    exact of_refused unparked (by simp only [history, Machine.historyInside, entered])
      (by simp only [reports, Machine.reportsInside, entered]) (by simp only [runUnder, entered]; rfl)
  | ok inside =>
    have begun : inside.heap.Unparked := (Machine.heap_of_enter entered).symm ▸ unparked
    simp only [reports, Machine.reportsInside, entered] at silent
    obtain ⟨unparked, brackets, settled, value⟩ := inner held _ begun silent
    refine ⟨?_, ?_, ?_, fun a m' ran => ?_⟩
    · rw [heap_runUnder_nested due x entered]
      exact unparked
    · simp only [history, Machine.historyInside, reports, Machine.reportsInside, entered, lapses,
        Moment.lapse, Moment.prepares, Nat.zero_add]
      exact brackets
    · simp only [history, Machine.historyInside, entered]
      exact settled
    · obtain ⟨m₁, ran, -⟩ := ok_of_nested entered ran
      exact value a m₁ ran

/-- A generator that is resumed reports no bracket of its own. -/
theorem resuming (generator : Ref) (name : String) {Q : Completion → Prop} {x : Engine Completion}
    (inner : x.Closes due Q) :
    (Engine.resuming generator name x).Closes due fun result => ∀ c, result = .ok (.ok c) → Q c := by
  intro held m unparked silent
  cases entered : m.enter with
  | error e =>
    refine ⟨?_, ?_, ?_, ?_⟩
    · simp only [runUnder, entered]
      exact unparked
    · simp only [history, Machine.historyInside, reports, Machine.reportsInside, entered]
      exact .nil
    · simp only [history, Machine.historyInside, entered]
      rfl
    · simp only [runUnder, entered]
      rintro _ _ ⟨⟩ _ ⟨⟩
  | ok inside =>
    have begun : (inside.observe .resume).heap.Unparked := (Machine.heap_of_enter entered).symm ▸ unparked
    simp only [reports, Machine.reportsInside, entered] at silent
    obtain ⟨unparked, brackets, settled, value⟩ := inner held _ begun fun e mem =>
      silent e (List.mem_cons_of_mem _ mem)
    refine ⟨?_, ?_, ?_, ?_⟩
    · simp only [runUnder, entered]
      cases ran : x.runUnder due (inside.observe .resume) with
      | ok a m' => rw [ran] at unparked; exact unparked
      | error e m' =>
        rw [ran] at unparked
        cases e with
        | raised e => exact unparked
        | _ =>
          refine unparked.modify generator fun state same => ?_
          cases same
          trivial
    · simp only [history, Machine.historyInside, reports, Machine.reportsInside, entered, lapses,
        Moment.lapse, Moment.prepares]
      have resumed : Bracketed 0 [Event.resume inside.depth] := .other rfl
      exact resumed.append brackets
    · simp only [history, Machine.historyInside, entered]
      exact settled
    · simp only [runUnder, entered]
      cases ran : x.runUnder due (inside.observe .resume) with
      | ok a m' =>
        rintro _ _ ⟨⟩ _ ⟨⟩
        exact value a m' ran
      | error e m' => cases e <;> rintro _ _ ⟨⟩ _ ⟨⟩

/-- Data that is read has no section that waits. -/
theorem payload (r : Ref) : (Engine.payload r).Closes due Payload.Unparked := by
  have reads : (Engine.payload r).Closes due fun _ => True :=
    bind (act trivial (fun _ => List.forall_mem_nil _)) fun o _ => pure trivial
  intro held m unparked silent
  obtain ⟨unparked', brackets, settled, -⟩ := reads held m unparked silent
  refine ⟨unparked', brackets, settled, fun p m' ran => ?_⟩
  rw [runUnder_payload] at ran
  split at ran
  · rename_i found
    cases ran
    exact unparked.data r _ found
  · cases ran

end Engine.Closes

end ObjectMachine
