import ObjectMachine.Proofs.Unrolling
/-!
Loops that follow their iterators. A loop comes behind itself with the operands of its start, if its bodies leave these
alone. Where neither the bodies nor the binding of the variable interfere with the iteration, a loop is given what the
engine would collect; over built-in data these are the items of the data. `Loop.Follows` says all of this.
-/
namespace ObjectMachine

namespace Loop

open Engine

variable {l : Loop} {due : Schedule} {p q : Standing} {x : Reached} {booked m : Machine} {iterator : Ref}
  {e : Interrupt} {r : Round} {rounds : List Round}

/-! ### What a loop leaves behind -/

theorem stack_body (turn : r.Turn l due) : r.body.frame.stack = r.head.frame.stack := by
  obtain ⟨m, -, body⟩ := turn.binds
  rw [body]

namespace Asks

variable {data item : Ref} {xs : List Item}

/-- An iterator over built-in data that delivers an item has items ahead, and the first one is delivered. -/
theorem exists_cons (asks : l.Asks due p booked iterator (.ok item m))
    (stands : StandsBefore booked.heap iterator data xs) :
    ∃ x later, xs = x :: later ∧ x.Is m.heap item ∧ StandsBefore m.heap iterator data later := by
  obtain ⟨n, -, answers⟩ := asks.answers
  have stands : StandsBefore (booked.pushRoots p.frame.links).heap iterator data xs := stands
  cases xs with
  | nil =>
    rw [stands.runUnder_nil due (reentry n)] at answers
    cases answers
  | cons x later =>
    obtain ⟨value, m', ran, is, stands'⟩ | ⟨char, e, -, -, refused⟩ := stands.runUnder_cons due (reentry n)
    · rw [answers] at ran
      cases ran
      exact ⟨x, later, rfl, is, stands'⟩
    · rw [answers] at refused
      cases refused

/-- One that has come to its end has nothing ahead. -/
theorem nil_of_error (asks : l.Asks due p booked iterator (.error e m))
    (stands : StandsBefore booked.heap iterator data xs) (stops : e.stops m.heap) : xs = [] := by
  obtain ⟨n, -, answers⟩ := asks.answers
  have stands : StandsBefore (booked.pushRoots p.frame.links).heap iterator data xs := stands
  cases xs with
  | nil => rfl
  | cons x later =>
    obtain ⟨value, m', ran, -, -⟩ | ⟨char, e, -, -, refused⟩ := stands.runUnder_cons due (reentry n)
    · rw [answers] at ran
      cases ran
    · rw [answers] at refused
      cases refused
      cases stops

end Asks

namespace Goes

/-- A loop that its bodies do not leave ends behind itself, and if they keep the height of the operands, the iterator
is all that is gone. -/
theorem height_eq (goes : l.Goes due p rounds (.left q)) (kept : ∀ r ∈ rounds, r.Keeps l) :
    q.At l.code (l.back + 1) ∧ q.frame.stack.length + 1 = p.frame.stack.length := by
  generalize reached : Reached.left q = x at goes
  induction goes with
  | stopped asks stops =>
    cases reached
    have operands := congrArg List.length asks.stack_eq
    exact ⟨⟨asks.here.code, rfl, asks.here.returned⟩, operands.symm⟩
  | @last r turn out =>
    obtain ⟨here, -⟩ := (kept r (List.mem_singleton_self r)).height q reached.symm
    exact absurd ⟨q, reached.symm, here⟩ out
  | @again r z rounds x turn back here more ih =>
    obtain ⟨behind, height⟩ := ih (fun r' mem => kept r' (.tail r mem)) reached
    obtain ⟨-, height'⟩ := (kept r List.mem_cons_self).height z back
    rw [stack_body turn] at height'
    exact ⟨behind, height.trans height'⟩
  | asking | refused | handed | unbound => cases reached

/-- If they keep the operands, these are what they were under the iterator. -/
theorem stack_eq (goes : l.Goes due p rounds (.left q)) (kept : ∀ r ∈ rounds, r.Restores l) :
    q.frame.stack = p.frame.stack.tail := by
  generalize reached : Reached.left q = x at goes
  induction goes with
  | stopped asks stops =>
    cases reached
    rfl
  | @last r turn out =>
    obtain ⟨here, -⟩ := (kept r (List.mem_singleton_self r)).height q reached.symm
    exact absurd ⟨q, reached.symm, here⟩ out
  | @again r z rounds x turn back here more ih =>
    have later := ih (fun r' mem => kept r' (.tail r mem)) reached
    have operands := (kept r List.mem_cons_self).operands z back
    rw [later, operands, stack_body turn]
  | asking | refused | handed | unbound => cases reached

/-- If nothing between the questions affects the iteration, a loop is given what another iterator delivers that answers
alike: item for item as long as it goes on, and all of it if it comes to its end; and an error that can be caught comes
from a body. -/
theorem collects (stands : l.Stands) {iterator' : Ref} {Same : Heap → Heap → Prop}
    {Like : Heap → Ref → Heap → Ref → Prop} (alike : Alike due iterator iterator' Same Like)
    {delivered : List (Ref × Machine)} (drained : Drained due iterator' m delivered) (goes : l.Goes due p rounds x)
    (top : p.frame.stack.head? = some iterator)
    (start : ∀ booked, (book p.frame (.iterNext l.done)).runUnder due p.machine = .ok () booked →
      Same booked.heap m.heap)
    (kept : ∀ r ∈ rounds, r.Restores l ∧ r.Unaffected l due Same) :
    List.Forall₂ (fun r d => Like r.delivered.heap r.item d.2.heap d.1) rounds (delivered.take rounds.length) ∧
      (∀ q, x = .left q → rounds.length = delivered.length) ∧
      ∀ e m', x = .failed (.raised e) m' → ∃ r, rounds.getLast? = some r ∧ r.reached = x := by
  induction goes generalizing m delivered with
  | asking here => exact ⟨.nil, by rintro q ⟨⟩, by rintro e m' ⟨⟩⟩
  | handed asks => exact ⟨.nil, by rintro q ⟨⟩, by rintro e m' ⟨⟩⟩
  | refused here fails =>
    refine ⟨.nil, by rintro q ⟨⟩, ?_⟩
    rintro e m' ⟨⟩
    refine absurd rfl (stands.not_raised_of_refused here fails ?_ e)
    intro booked iterator₁ r m₁ asks
    obtain rfl := asks.iterator_eq top
    obtain ⟨n, -, answers⟩ := asks.answers
    exact (alike.of_raised (m := booked.pushRoots _) (start booked asks.books) drained answers).1
  | unbound asks fails =>
    refine ⟨.nil, by rintro q ⟨⟩, ?_⟩
    rintro e m' ⟨⟩
    exact absurd rfl (stands.not_raised_of_unbound asks fails e)
  | @stopped p booked m₁ iterator₁ e asks stops =>
    refine ⟨.nil, fun q _ => ?_, by rintro e m' ⟨⟩⟩
    obtain rfl := asks.iterator_eq top
    obtain ⟨n, -, answers⟩ := asks.answers
    cases e with
    | raised e =>
      obtain ⟨-, rfl⟩ := alike.of_raised (m := booked.pushRoots _) (start booked asks.books) drained answers
      rfl
    | _ => cases stops
  | @last r turn out =>
    obtain ⟨restores, -⟩ := kept r (List.mem_singleton_self r)
    obtain rfl := turn.asks.iterator_eq top
    obtain ⟨n, -, answers⟩ := turn.asks.answers
    obtain ⟨item', m', later, rfl, -, like, -⟩ :=
      alike.of_item (m := r.booked.pushRoots _) (start r.booked turn.asks.books) drained answers
    refine ⟨.cons like .nil, fun q left => ?_, fun e m' failed => ⟨r, rfl, rfl⟩⟩
    obtain ⟨here, -⟩ := restores.height q left
    exact absurd ⟨q, left, here⟩ out
  | @again r z rounds x turn back here more ih =>
    obtain ⟨restores, unaffected⟩ := kept r List.mem_cons_self
    obtain rfl := turn.asks.iterator_eq top
    obtain ⟨n, -, answers⟩ := turn.asks.answers
    obtain ⟨item', m', later, rfl, drains, like, same⟩ :=
      alike.of_item (m := r.booked.pushRoots _) (start r.booked turn.asks.books) drained answers
    -- the iterator is on top again, and the states correspond when it is asked again
    have top' : z.frame.stack.head? = some r.iterator := by
      rw [restores.operands z back, stack_body turn]
      exact top
    obtain ⟨likes, all, last⟩ := ih drains top' (fun booked books => unaffected z booked _ back books same)
      fun r' mem => kept r' (.tail r mem)
    refine ⟨.cons like likes, fun q left => congrArg (· + 1) (all q left), fun e m' failed => ?_⟩
    obtain ⟨r', final, reached⟩ := last e m' failed
    refine ⟨r', ?_, reached⟩
    rw [List.getLast?_cons, final]
    rfl

/-- Over built-in data that stays as it is, as does the iterator, a loop is given the items of the data one after the
other, and all of them if it comes to its end. -/
theorem visits {data : Ref} {xs : List Item} (goes : l.Goes due p rounds x) (top : p.frame.stack.head? = some iterator)
    (start : ∀ booked, (book p.frame (.iterNext l.done)).runUnder due p.machine = .ok () booked →
      StandsBefore booked.heap iterator data xs)
    (kept : ∀ r ∈ rounds, r.Restores l ∧ r.LeavesAlone l due [iterator, data]) :
    List.Forall₂ (fun r item => item.Is r.delivered.heap r.item) rounds (xs.take rounds.length) ∧
      ∀ q, x = .left q → rounds.length = xs.length := by
  induction goes generalizing xs with
  | asking | handed | refused | unbound => exact ⟨.nil, by rintro q ⟨⟩⟩
  | @stopped p booked m iterator₁ e asks stops =>
    refine ⟨.nil, fun q _ => ?_⟩
    obtain rfl := asks.iterator_eq top
    have empty : xs = [] := asks.nil_of_error (start booked asks.books) stops
    rw [empty]
    rfl
  | @last r turn out =>
    obtain ⟨restores, -⟩ := kept r (List.mem_singleton_self r)
    obtain rfl := turn.asks.iterator_eq top
    obtain ⟨item, later, rfl, is, -⟩ := turn.asks.exists_cons (start r.booked turn.asks.books)
    refine ⟨.cons is .nil, fun q left => ?_⟩
    obtain ⟨here, -⟩ := restores.height q left
    exact absurd ⟨q, left, here⟩ out
  | @again r z rounds x turn back here more ih =>
    obtain ⟨restores, alone⟩ := kept r List.mem_cons_self
    obtain rfl := turn.asks.iterator_eq top
    obtain ⟨item, later, rfl, is, stands⟩ := turn.asks.exists_cons (start r.booked turn.asks.books)
    have top' : z.frame.stack.head? = some r.iterator := by
      rw [restores.operands z back, stack_body turn]
      exact top
    obtain ⟨given, all⟩ := ih top' (fun booked books => alone.standsBefore back books stands)
      fun r' mem => kept r' (.tail r mem)
    exact ⟨.cons is given, fun q left => congrArg (· + 1) (all q left)⟩

/-- What a loop does from its head, it does in the whole, if its bodies do not leave it. -/
theorem course_whole (stands : l.Stands) (goes : l.Goes due p rounds (.left q)) (kept : ∀ r ∈ rounds, r.Keeps l) :
    l.whole.Course due p (.left q) := by
  obtain ⟨behind, -⟩ := goes.height_eq kept
  refine (stands.course_of_goes goes).trans stands.whole_has_of_turns (.out fun inside => ?_)
  have last := inside.last
  rw [behind.ip] at last
  exact absurd last (Nat.not_succ_le_self l.back)

end Goes

/-! ### Loops that follow their iterators -/

/-- A loop goes as its iterator says. -/
structure Follows (l : Loop) (due : Schedule) : Prop where
  /-- What comes behind its head is one round after another, as `Loop.Goes` says, and nothing else. -/
  goes : ∀ p x, p.At l.code l.head → (l.turns.Course due p x ↔ ∃ rounds, l.Goes due p rounds x)
  /-- However far a run is followed from there, it has gone through rounds, and the rest of it is still to come. -/
  runs : ∀ p n, p.At l.code l.head → ∃ rounds x, l.Goes due p rounds x ∧ l.turns.follow due n p = x ∧
    x.rest due = p.run due
  /-- A body that comes to its end goes back to the head, with the operands that it has then. -/
  back : ∀ p booked, p.At l.code l.back → 0 < p.fuel →
    (book p.frame (.jump l.again)).runUnder due p.machine = .ok () booked →
    l.body.Course due p (.left ⟨p.fuel - 1, { p.frame with ip := l.head }, booked⟩)
  /-- What the iterator raises other than its end leaves the loop as it is. -/
  refused : ∀ p booked iterator e m, l.Asks due p booked iterator (.error e m) → e.stops m.heap = false →
    l.Goes due p [] (.failed (e.atSite ⟨.iterNext l.done, l.head⟩) (m.truncateRoots booked.roots.size))
  /-- A run that enters the loop comes to its head with the iterator. -/
  enters : ∀ (en : Entry) iterator m x, en.Enters l due → en.answer due = .ok iterator m →
    l.whole.Course due (en.asking l iterator m) x → l.whole.Course due en.start x
  /-- If there is no iterator, the error leaves the loop. -/
  unmade : ∀ (en : Entry) e m, en.Enters l due → en.answer due = .error e m →
    l.whole.Course due en.start (.failed (e.atSite ⟨.call 1, l.call⟩) (m.truncateRoots en.calledOn.roots.size))
  /-- If the bodies keep the height of the operands and do not leave the loop, a loop that is over has the height of its
  start; and if they keep the operands, it has the operands of its start. -/
  balanced : ∀ t : Traversal, t.Through l due → (∀ r ∈ t.rounds, r.Keeps l) →
    l.whole.Course due t.entry.start (.left t.behind) ∧ t.behind.At l.code (l.back + 1) ∧
      t.behind.frame.stack.length = t.entry.start.frame.stack.length ∧
      ((∀ r ∈ t.rounds, r.Restores l) → t.behind.frame.stack = t.entry.start.frame.stack)
  /-- If nothing between the questions affects the iteration, the loop is given what the engine collects from the same
  iterable, item for item, and all of it if it comes to its end; and an error that can be caught is one of a body. -/
  collects : ∀ {Same : Heap → Heap → Prop} {Like : Heap → Ref → Heap → Ref → Prop}
    {p x rounds iterator iterator' value n} {m₀ m₁ m' : Machine} {items : List Ref},
    (collectItems (reentry n) value).runUnder due m₀ = .ok items m' →
    (getIterator (reentry n) value).runUnder due m₀ = .ok iterator' m₁ → Alike due iterator iterator' Same Like →
    l.Goes due p rounds x → p.frame.stack.head? = some iterator →
    (∀ booked, (book p.frame (.iterNext l.done)).runUnder due p.machine = .ok () booked → Same booked.heap m₁.heap) →
    (∀ r ∈ rounds, r.Restores l ∧ r.Unaffected l due Same) →
    ∃ delivered, Drained due iterator' (m₁.pushRoots [.object iterator']) delivered ∧ items = delivered.map Prod.fst ∧
      List.Forall₂ (fun r d => Like r.delivered.heap r.item d.2.heap d.1) rounds (delivered.take rounds.length) ∧
      (∀ q, x = .left q → rounds.length = items.length) ∧
      ∀ e m', x = .failed (.raised e) m' → ∃ r, rounds.getLast? = some r ∧ r.reached = x

  /-- Over a list, a text or a map that stays as it is, as does the iterator, the loop is given its items in order. -/
  visits : ∀ {p x rounds iterator data} {items : List Item}, l.Goes due p rounds x →
    p.frame.stack.head? = some iterator →
    (∀ booked, (book p.frame (.iterNext l.done)).runUnder due p.machine = .ok () booked →
      StandsBefore booked.heap iterator data items) →
    (∀ r ∈ rounds, r.Restores l ∧ r.LeavesAlone l due [iterator, data]) →
    List.Forall₂ (fun r item => item.Is r.delivered.heap r.item) rounds (items.take rounds.length) ∧
      ∀ q, x = .left q → rounds.length = items.length

theorem Stands.follows (stands : l.Stands) (due : Schedule) : l.Follows due where
  goes p x here := by
    refine ⟨fun course => (stands.goes_of_course course).1 here, ?_⟩
    rintro ⟨rounds, goes⟩
    exact stands.course_of_goes goes
  runs p n here := by
    obtain ⟨rounds, goes⟩ := (stands.goes_of_course (Stretch.course_follow l.turns due n p)).1 here
    exact ⟨rounds, _, goes, rfl, Stretch.rest_follow l.turns due n p⟩
  back p booked here fuel books := by
    obtain ⟨n, fuel'⟩ : ∃ n, p.fuel = n + 1 := Nat.exists_eq_add_of_le' fuel
    have inside : l.body.Has p :=
      ⟨here.code, here.ip ▸ Nat.le_of_succ_le stands.order, Nat.le_of_eq here.ip, here.returned⟩
    exact .on inside (.on (stands.progress_back here fuel' books))
      (.out fun again => absurd again.first (Nat.not_succ_le_self l.head))
  refused p booked iterator e m asks other := .refused asks.here (stands.progress_refused asks other)
  enters en iterator m x enters made later := stands.course_of_made enters made later
  unmade en e m enters unmade := stands.course_of_unmade enters unmade
  balanced t through kept := by
    obtain ⟨behind, height⟩ := through.goes.height_eq kept
    exact ⟨stands.course_of_made through.enters through.makes (through.goes.course_whole stands kept), behind,
      Nat.succ.inj height, fun restores => through.goes.stack_eq restores⟩
  collects := by
    intro Same Like p x rounds iterator iterator' value n m₀ m₁ m' items collected got alike goes top start kept
    obtain ⟨iterator₁, m₂, delivered, got', drained, rfl⟩ := exists_drained_of_collectItems collected
    obtain ⟨rfl, rfl⟩ : iterator₁ = iterator' ∧ m₂ = m₁ := by
      rw [got] at got'
      cases got'
      exact ⟨rfl, rfl⟩
    obtain ⟨likes, all, last⟩ := goes.collects stands alike drained top start kept
    refine ⟨delivered, drained, rfl, likes, fun q left => ?_, last⟩
    rw [all q left, List.length_map]
  visits goes top start kept := goes.visits top start kept

end Loop

namespace Engine

variable {a b : Assembler} {name : String} {iterable inner : List Statement}

/-- A loop that is laid out anywhere in code in which no tag is given twice follows its iterator: it asks, and for
each item it defines the variable and runs its body; it goes on behind itself when the iterator stops, and any other
error of the iterator and any error of its body leaves it. The operands are then those of its start, if the bodies
have kept them. If neither the bodies nor the binding of the variable affect the iteration, the items are those that
the engine collects. -/
theorem loop_follows_iterator (laid : Assembler.Grows (a.statement (.forEach name iterable inner)) b)
    (apart : b.finish.tags.Nodup) (due : Schedule) : (a.loop b name iterable inner).Follows due :=
  (laid.stands_loop apart).follows due

/-- A loop that is all there is. -/
def soleLoop (name : String) (iterable inner : List Statement) : Loop :=
  Assembler.empty.loop (Assembler.empty.statement (.forEach name iterable inner)) name iterable inner

/-- A run that comes to a loop in the outer scope, with some operands. -/
def comingTo (l : Loop) (operands : List Ref) (m : Machine) : Standing :=
  ⟨64, { Frame.start l.code m.globals with stack := operands }, m⟩

/-- An iterator is at the start of a list. -/
def AtStart (h : Heap) (iterator list : Ref) (items : Array Ref) : Prop :=
  h.objects.WellFormed ∧ h.payload? iterator = some (.iterator (.list list 0)) ∧ h.payload? list = some (.list items)

instance (h : Heap) (iterator list : Ref) (items : Array Ref) : Decidable (AtStart h iterator list items) :=
  inferInstanceAs (Decidable (_ ∧ _ ∧ _))

theorem AtStart.standsBefore {h : Heap} {iterator list : Ref} {items : Array Ref}
    (start : AtStart h iterator list items) : StandsBefore h iterator list (items.toList.map .object) :=
  ⟨start.1, _, start.2.1, .list start.2.2⟩

/-- A loop over a list of two integers reads its variable in its body. It is given the items that are collected from the
list where the iterator is made, and gives back the operand that was there before. -/
theorem loop_follows_iterator_through_two :
    let l := soleLoop "x" [.int 7, .int 8, .op (.buildList 2)] [.get "x", .op (.pop 1)]
    let p := comingTo l [.null] (.boot .unlimited .silent)
    ∃ (t : Traversal) (m' : Machine), t.entry.start = p ∧ t.Through l Heap.collectionDue ∧
      l.whole.Course Heap.collectionDue p (.left t.behind) ∧ t.behind.frame.stack = [.null] ∧
      (collectItems (reentry t.entry.depth) t.entry.value).run t.entry.calledOn = .ok [⟨142⟩, ⟨143⟩] m' ∧
      t.rounds.map Round.item = [⟨142⟩, ⟨143⟩] := by
  intro l p
  have follows : l.Follows Heap.collectionDue := loop_follows_iterator .refl (by decide +kernel) Heap.collectionDue
  have checked : (l.traverse Heap.collectionDue 9 5 p).any (fun t : Traversal =>
      let head := t.entry.asking l t.iterator t.made
      decide (∀ r ∈ t.rounds, r.Restores l ∧ r.LeavesAlone l Heap.collectionDue [t.iterator, t.entry.value]) &&
      decide (∀ booked, (book head.frame (.iterNext l.done)).runUnder Heap.collectionDue head.machine = .ok () booked →
        AtStart booked.heap t.iterator t.entry.value #[⟨142⟩, ⟨143⟩]) &&
      ((getIterator (reentry t.entry.depth) t.entry.value).runUnder Heap.collectionDue t.entry.calledOn).given?.any
        (fun got => AtStart got.2.heap got.1 t.entry.value #[⟨142⟩, ⟨143⟩]) &&
      ((collectItems (reentry t.entry.depth) t.entry.value).runUnder Heap.collectionDue t.entry.calledOn).given?.any
        fun collected => collected.1 = [⟨142⟩, ⟨143⟩]) = true := by
    decide +kernel
  obtain ⟨t, traversed, checked⟩ := (Option.any_eq_true _ _).mp checked
  obtain ⟨start, through⟩ := Loop.through_of_traverse (l := l) (p := p) ⟨rfl, rfl, rfl⟩ traversed
  simp only [Bool.and_eq_true, Option.any_eq_true, decide_eq_true_eq] at checked
  obtain ⟨⟨⟨kept, first⟩, ⟨iterator', m₁⟩, got, first'⟩, ⟨items, m'⟩, collected, rfl⟩ := checked
  have got := Outcome.given?_eq_some.mp got
  have collected := Outcome.given?_eq_some.mp collected
  obtain ⟨course, -, -, same⟩ := follows.balanced t through fun r mem => (kept r mem).1.toKeeps
  have operands : t.behind.frame.stack = [.null] := (same fun r mem => (kept r mem).1).trans (start ▸ rfl)
  -- as many rounds as items are collected, and in each round the item of the list
  obtain ⟨delivered, -, -, -, all, -⟩ := follows.collects collected got
    (alike_of_standsBefore Heap.collectionDue t.iterator iterator' t.entry.value t.entry.value) through.goes rfl
    (fun booked books => ⟨_, (first booked books).standsBefore, first'.standsBefore⟩)
    fun r mem => ⟨(kept r mem).1, Round.unaffected_of_leavesAlone (kept r mem).2⟩
  have two : t.rounds.length = 2 := all t.behind rfl
  obtain ⟨given, -⟩ := follows.visits through.goes rfl (fun booked books => (first booked books).standsBefore) kept
  rw [two] at given
  have listed : List.Forall₂ (fun r item => item.Is r.delivered.heap r.item) t.rounds
      ([⟨142⟩, ⟨143⟩].map Item.object) := given
  rw [List.forall₂_map_right_iff] at listed
  have items : List.Forall₂ (· = ·) (t.rounds.map Round.item) [⟨142⟩, ⟨143⟩] := List.forall₂_map_left_iff.mpr listed
  rw [List.forall₂_eq_eq_eq] at items
  exact ⟨t, m', start, through, start ▸ course, operands, collected, items⟩

/-- A generator yields the successor of a global variable, twice. -/
def yieldingSuccessors : List Statement :=
  let yieldNext : List Statement := [.get "x", .int 1, .operator "op_add" 2, .op .yieldValue]
  [.int 0, .define "x", .function "g" [] true (yieldNext ++ yieldNext), .define "g"]

/-- A body keeps the height of the operands and exchanges the one beneath the iterator: it is another one behind the
loop. And a loop with an empty body binds the variable that its generator reads: its second item is not the one that
the engine collects. -/
theorem operand_exchanged_and_item_shifted :
    (let l := soleLoop "x" [.int 10, .op (.buildList 1)] [.op .swap, .op (.pop 1), .int 2, .op .swap]
      ∃ t : Traversal, t.entry.start = comingTo l [.null] (.boot .unlimited .silent) ∧ t.Through l Heap.collectionDue ∧
        (∀ r ∈ t.rounds, r.Keeps l) ∧ t.behind.frame.stack ≠ t.entry.start.frame.stack) ∧
    (let l := soleLoop "x" [.get "g", .op (.call 0)] []
      let m := (Machine.boot .unlimited .silent).afterSession
        [.request .discarding (.run (assemble yieldingSuccessors))]
      l.back = l.head + 2 ∧ ∃ (t : Traversal) (items : List Ref) (m' : Machine), t.entry.start = comingTo l [] m ∧
        t.Through l Heap.collectionDue ∧
        (collectItems (reentry t.entry.depth) t.entry.value).run t.entry.calledOn = .ok items m' ∧
        t.rounds.map (fun r => r.delivered.heap.payload? r.item) = [some (.int 1), some (.int 2)] ∧
        items.map m'.heap.payload? = [some (.int 1), some (.int 1)]) := by
  constructor
  · intro l
    have checked : (l.traverse Heap.collectionDue 9 5 (comingTo l [.null] (.boot .unlimited .silent))).any
        (fun t : Traversal => (∀ r ∈ t.rounds, r.Keeps l) ∧ t.behind.frame.stack ≠ t.entry.start.frame.stack) =
          true := by
      decide +kernel
    obtain ⟨t, traversed, checked⟩ := (Option.any_eq_true _ _).mp checked
    obtain ⟨start, through⟩ := Loop.through_of_traverse ⟨rfl, rfl, rfl⟩ traversed
    obtain ⟨kept, other⟩ := of_decide_eq_true checked
    exact ⟨t, start, through, kept, other⟩
  · intro l m
    have checked : (l.traverse Heap.collectionDue 9 5 (comingTo l [] m)).any (fun t : Traversal =>
        decide (t.rounds.map (fun r => r.delivered.heap.payload? r.item) = [some (.int 1), some (.int 2)]) &&
        ((collectItems (reentry t.entry.depth) t.entry.value).runUnder Heap.collectionDue t.entry.calledOn).given?.any
          fun collected => collected.1.map collected.2.heap.payload? = [some (.int 1), some (.int 1)]) = true := by
      decide +kernel
    refine ⟨rfl, ?_⟩
    obtain ⟨t, traversed, checked⟩ := (Option.any_eq_true _ _).mp checked
    obtain ⟨start, through⟩ := Loop.through_of_traverse ⟨rfl, rfl, rfl⟩ traversed
    simp only [Bool.and_eq_true, Option.any_eq_true, decide_eq_true_eq] at checked
    obtain ⟨bound, ⟨items, m'⟩, collected, collects⟩ := checked
    exact ⟨t, items, m', start, through, Outcome.given?_eq_some.mp collected, bound, collects⟩

end Engine

end ObjectMachine
