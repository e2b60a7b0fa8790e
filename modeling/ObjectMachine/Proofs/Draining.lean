import ObjectMachine.Proofs.Iterators
/-!
Draining. To collect the items of an iterable is to ask its iterator again and again, and to keep what it delivers,
until it stops. Two iterators answer alike on states that correspond to each other if an answer of the one is the
answer of the other, unless that is cut off, and the states behind the answers correspond again. So it is for
iterators over built-in data that have the same items ahead.
-/
namespace ObjectMachine

/-- Whether an interruption is the end of an iteration. -/
def Interrupt.stops (h : Heap) : Interrupt → Bool
  | .raised e => h.errorIs e.toErrorBody .iteratorStopped
  | _ => false

/-- A computation is cut off, by an interruption that no program can catch. -/
def Outcome.IsCut {α : Type} (o : Outcome α) : Prop := ∃ e m, o = .error e m ∧ ∀ r, e ≠ .raised r

namespace Engine

variable {due : Schedule} {iterator iterator' value r r' : Ref} {n : Nat} {m m' : Machine}

/-- An iterator delivers these items, on these machines, and then stops; what it delivered is kept alive meanwhile. -/
inductive Drained (due : Schedule) (iterator : Ref) : Machine → List (Ref × Machine) → Prop where
  /-- It stops. -/
  | stopped {n : Nat} {m m' : Machine} {e : Interrupt}
    (ran : (iterateNext (reentry n) iterator).runUnder due m = .error e m') (stops : e.stops m'.heap) :
    Drained due iterator m []
  /-- It delivers an item, and others later. -/
  | item {n : Nat} {m m' : Machine} {item : Ref} {later : List (Ref × Machine)}
    (ran : (iterateNext (reentry n) iterator).runUnder due m = .ok item m')
    (more : Drained due iterator (m'.pushRoots [.object item]) later) : Drained due iterator m ((item, m') :: later)

theorem ok_of_catching {α : Type} {x : Engine α} {a : α} (ran : (catching x).runUnder due m = .ok (.ok a) m') :
    x.runUnder due m = .ok a m' := by
  rw [runUnder] at ran
  split at ran <;> cases ran
  assumption

theorem error_of_catching {α : Type} {x : Engine α} {e : Raised}
    (ran : (catching x).runUnder due m = .ok (.error e) m') : x.runUnder due m = .error (.raised e) m' := by
  rw [runUnder] at ran
  split at ran <;> cases ran
  assumption

/-- An iterator that ends a loop of the engine has stopped. -/
theorem Drained.of_error {e : Raised} {m₁ : Machine} {taken items : List Ref}
    (asked : (catching (iterateNext (reentry n) iterator)).runUnder due m = .ok (.error e) m₁)
    (ran : (isStop e >>= fun stop => if stop then pure taken.reverse else throw (.raised e)).runUnder due m₁ =
      .ok items m') : Drained due iterator m [] ∧ items = taken.reverse := by
  rw [isStop, runUnder_bind, runUnder_ask] at ran
  dsimp only at ran
  split at ran
  · rename_i stops
    cases ran
    exact ⟨.stopped (error_of_catching asked) stops, rfl⟩
  · cases ran

/-- What a loop of the engine takes from an iterator is what the iterator delivers. -/
theorem exists_drained {taken items : List Ref}
    (ran : (drain (reentry n) iterator taken).runUnder due m = .ok items m') :
    ∃ delivered, Drained due iterator m delivered ∧ items = taken.reverse ++ delivered.map Prod.fst := by
  induction n generalizing m taken with
  | zero =>
    obtain ⟨answer, m₁, asked, later⟩ := ok_of_bind ran
    cases answer with
    | ok item =>
      obtain ⟨_, m₂, -, more⟩ := ok_of_bind later
      simp only [reentry, drainWith] at more
      cases more
    | error e =>
      obtain ⟨drained, rfl⟩ := Drained.of_error asked later
      exact ⟨[], drained, (List.append_nil _).symm⟩
  | succ n ih =>
    obtain ⟨answer, m₁, asked, later⟩ := ok_of_bind ran
    cases answer with
    | ok item =>
      obtain ⟨_, m₂, pushed, more⟩ := ok_of_bind later
      cases pushed
      obtain ⟨delivered, drained, rfl⟩ := ih more
      refine ⟨(item, m₁) :: delivered, .item (ok_of_catching asked) drained, ?_⟩
      rw [List.reverse_cons, List.append_assoc]
      rfl
    | error e =>
      obtain ⟨drained, rfl⟩ := Drained.of_error asked later
      exact ⟨[], drained, (List.append_nil _).symm⟩

/-- All items of an iterable are what its iterator delivers. -/
theorem exists_drained_of_collectItems {items : List Ref}
    (ran : (collectItems (reentry n) value).runUnder due m = .ok items m') :
    ∃ iterator m₁ delivered, (getIterator (reentry n) value).runUnder due m = .ok iterator m₁ ∧
      Drained due iterator (m₁.pushRoots [.object iterator]) delivered ∧ items = delivered.map Prod.fst := by
  obtain ⟨iterator, m₁, got, later⟩ := ok_of_bind ran
  rw [keepingObjects, runUnder] at later
  cases drained : (drain (reentry n) iterator []).runUnder due (m₁.pushRoots (objectNodes [iterator])) with
  | error e m₂ =>
    rw [drained] at later
    cases later
  | ok taken m₂ =>
    rw [drained] at later
    cases later
    obtain ⟨delivered, delivers, same⟩ := exists_drained drained
    exact ⟨iterator, m₁, delivered, got, delivers, same⟩

/-! ### Iterators that answer alike -/

/-- Two iterators answer alike on corresponding states: what the second one delivers the first one delivers too, and
where the second one stops the first one stops, unless the first one is cut off. -/
structure Alike (due : Schedule) (iterator iterator' : Ref) (Same : Heap → Heap → Prop)
    (Like : Heap → Ref → Heap → Ref → Prop) : Prop where
  /-- It delivers the same. -/
  item : ∀ {n n' : Nat} {m m' m₁' : Machine} {item' : Ref}, Same m.heap m'.heap →
    (iterateNext (reentry n') iterator').runUnder due m' = .ok item' m₁' →
    (∃ item m₁, (iterateNext (reentry n) iterator).runUnder due m = .ok item m₁ ∧
      Like m₁.heap item m₁'.heap item' ∧ Same m₁.heap m₁'.heap) ∨
    ((iterateNext (reentry n) iterator).runUnder due m).IsCut
  /-- It stops with it. -/
  stop : ∀ {n n' : Nat} {m m' m₁' : Machine} {e' : Interrupt}, Same m.heap m'.heap →
    (iterateNext (reentry n') iterator').runUnder due m' = .error e' m₁' → e'.stops m₁'.heap →
    (∃ e m₁, (iterateNext (reentry n) iterator).runUnder due m = .error e m₁ ∧ e.stops m₁.heap) ∨
    ((iterateNext (reentry n) iterator).runUnder due m).IsCut

namespace Alike

variable {Same : Heap → Heap → Prop} {Like : Heap → Ref → Heap → Ref → Prop} {delivered : List (Ref × Machine)}
  {m₁ : Machine} {item : Ref} {e : Raised}

/-- What the first one delivers is what the second one delivers next. -/
theorem of_item (alike : Alike due iterator iterator' Same Like) (same : Same m.heap m'.heap)
    (drained : Drained due iterator' m' delivered)
    (ran : (iterateNext (reentry n) iterator).runUnder due m = .ok item m₁) :
    ∃ item' m₁' later, delivered = (item', m₁') :: later ∧ Drained due iterator' (m₁'.pushRoots [.object item']) later ∧
      Like m₁.heap item m₁'.heap item' ∧ Same m₁.heap m₁'.heap := by
  cases drained with
  | stopped ran' stops =>
    obtain ⟨e, m₂, failed, -⟩ | ⟨e, m₂, cut, -⟩ := alike.stop (n := n) same ran' stops
    · rw [ran] at failed
      cases failed
    · rw [ran] at cut
      cases cut
  | item ran' more =>
    obtain ⟨item₂, m₂, gave, like, same'⟩ | ⟨e, m₂, cut, -⟩ := alike.item (n := n) same ran'
    · rw [ran] at gave
      cases gave
      exact ⟨_, _, _, rfl, more, like, same'⟩
    · rw [ran] at cut
      cases cut

/-- Where the first one fails with an error that can be caught, both have come to their end. -/
theorem of_raised (alike : Alike due iterator iterator' Same Like) (same : Same m.heap m'.heap)
    (drained : Drained due iterator' m' delivered)
    (ran : (iterateNext (reentry n) iterator).runUnder due m = .error (.raised e) m₁) :
    (Interrupt.raised e).stops m₁.heap ∧ delivered = [] := by
  cases drained with
  | stopped ran' stops =>
    obtain ⟨e, m₂, failed, stops⟩ | ⟨e, m₂, cut, fatal⟩ := alike.stop (n := n) same ran' stops
    · rw [ran] at failed
      cases failed
      exact ⟨stops, rfl⟩
    · rw [ran] at cut
      cases cut
      exact absurd rfl (fatal _)
  | item ran' more =>
    obtain ⟨item₂, m₂, gave, -, -⟩ | ⟨e, m₂, cut, fatal⟩ := alike.item (n := n) same ran'
    · rw [ran] at gave
      cases gave
    · rw [ran] at cut
      cases cut
      exact absurd rfl (fatal _)

end Alike

/-- Two iterators over built-in data that have the same items ahead answer alike. -/
theorem alike_of_standsBefore (due : Schedule) (iterator iterator' r r' : Ref) :
    Alike due iterator iterator'
      (fun h h' => ∃ xs, StandsBefore h iterator r xs ∧ StandsBefore h' iterator' r' xs)
      (fun h value h' value' => ∃ x : Item, x.Is h value ∧ x.Is h' value') where
  item := by
    rintro n n' m m' m₁' item' ⟨xs, stands, stands'⟩ ran
    cases xs with
    | nil =>
      rw [stands'.runUnder_nil due (reentry n')] at ran
      cases ran
    | cons x xs =>
      obtain ⟨value', m₂', gave', is', later'⟩ | ⟨char, e, -, -, refused⟩ := stands'.runUnder_cons due (reentry n')
      · rw [gave'] at ran
        cases ran
        obtain ⟨value, m₁, gave, is, later⟩ | ⟨char, e, -, -, refused⟩ := stands.runUnder_cons due (reentry n)
        · exact .inl ⟨value, m₁, gave, ⟨x, is, is'⟩, xs, later, later'⟩
        · exact .inr ⟨_, m, refused, by rintro r ⟨⟩⟩
      · rw [refused] at ran
        cases ran
  stop := by
    rintro n n' m m' m₁' e' ⟨xs, stands, stands'⟩ ran stops
    cases xs with
    | nil => exact .inl ⟨_, m, stands.runUnder_nil due (reentry n), rfl⟩
    | cons x xs =>
      obtain ⟨value', m₂', gave', -, -⟩ | ⟨char, e, -, -, refused⟩ := stands'.runUnder_cons due (reentry n')
      · rw [gave'] at ran
        cases ran
      · rw [refused] at ran
        cases ran
        cases stops

end Engine

end ObjectMachine
