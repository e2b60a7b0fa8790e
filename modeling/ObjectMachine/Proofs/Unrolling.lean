import ObjectMachine.Proofs.Traversals
/-!
Loops that are computed. The rounds of a loop, the way into it and a whole traversal can be computed from a run that
comes to it, and what is computed is how the loop goes. Whether the bodies keep the operands, and whether they leave
an iterator and its data alone, can be decided.
-/
namespace ObjectMachine

namespace Loop

open Engine

variable {l : Loop} {due : Schedule} {p : Standing} {en : Entry}

/-! ### Rounds that are computed -/

/-- What a loop does at its head: a round, the end, or what is not looked at any further. -/
def round (l : Loop) (due : Schedule) (long : Nat) (p : Standing) : Except Reached Round :=
  match p.fuel, p.frame.stack.head?, (book p.frame (.iterNext l.done)).runUnder due p.machine with
  | n + 2, some iterator, .ok () booked =>
    match (iterateNext (reentry (n + 1)) iterator).runUnder due (booked.pushRoots p.frame.links) with
    | .ok item m =>
      match (book (p.handed booked item m).frame (.defineVar l.name)).runUnder due (p.handed booked item m).machine with
      | .ok () m' =>
        let body : Standing := ⟨p.fuel - 2, { p.frame with ip := l.head + 2 },
          m'.withHeap fun h => h.define p.frame.scope l.name item⟩
        .ok ⟨p, booked, iterator, item, m, body, l.body.follow due long body⟩
      | .error _ _ => .error (.within (p.handed booked item m))
    | .error e m => .error (if e.stops m.heap then .left (p.dropped l booked m) else .within p)
  | _, _, _ => .error (.within p)

/-- The rounds of a loop, as far as some number of them and of instructions in each of them leads. -/
def unroll (l : Loop) (due : Schedule) (long : Nat) : Nat → Standing → List Round × Reached
  | 0, p => ([], .within p)
  | n + 1, p =>
    match l.round due long p with
    | .error x => ([], x)
    | .ok r =>
      match r.reached with
      | .left z =>
        if z.At l.code l.head then (r :: (unroll l due long n z).1, (unroll l due long n z).2) else ([r], .left z)
      | x => ([r], x)

/-- What is computed at the head of a loop is how it goes. -/
theorem turn_or_goes (here : p.At l.code l.head) {long : Nat} {found : Except Reached Round}
    (computed : l.round due long p = found) :
    (∀ r, found = .ok r → r.head = p ∧ r.Turn l due) ∧ ∀ x, found = .error x → l.Goes due p [] x := by
  rw [round] at computed
  split at computed
  · rename_i n iterator booked fuel top books
    have asks {answer : Outcome Ref} (answers : (iterateNext (reentry (n + 1)) iterator).runUnder due
        (booked.pushRoots p.frame.links) = answer) : l.Asks due p booked iterator answer :=
      ⟨here, top, books, n + 1, fuel, answers⟩
    split at computed
    · rename_i item m answers
      split at computed
      · rename_i m' binds
        subst computed
        refine ⟨?_, by rintro x ⟨⟩⟩
        rintro r ⟨⟩
        exact ⟨rfl, asks answers, fuel ▸ Nat.le_add_left 2 n, ⟨m', binds, rfl⟩, Stretch.course_follow ..⟩
      · subst computed
        refine ⟨by rintro r ⟨⟩, ?_⟩
        rintro x ⟨⟩
        exact .handed (asks answers)
    · rename_i e m answers
      subst computed
      refine ⟨by rintro r ⟨⟩, ?_⟩
      rintro x ⟨⟩
      split
      · exact .stopped (asks answers) ‹_›
      · exact .asking here
  · subst computed
    refine ⟨by rintro r ⟨⟩, ?_⟩
    rintro x ⟨⟩
    exact .asking here

/-- The rounds that are computed are those of the loop. -/
theorem goes_unroll (due : Schedule) (here : p.At l.code l.head) (long n : Nat) :
    l.Goes due p (l.unroll due long n p).1 (l.unroll due long n p).2 := by
  induction n generalizing p with
  | zero => exact .asking here
  | succ n ih =>
    rw [unroll]
    split
    · exact (turn_or_goes here ‹_›).2 _ rfl
    · rename_i r computed
      obtain ⟨rfl, turn⟩ := (turn_or_goes here computed).1 r rfl
      split
      · rename_i z reached
        split
        · exact .again turn reached ‹_› (ih ‹_›)
        · rename_i elsewhere
          have out : ¬ r.Returns l := by
            rintro ⟨z', left, back⟩
            obtain rfl : z = z' := Reached.left.inj (reached.symm.trans left)
            exact elsewhere back
          exact reached ▸ .last turn out
      · rename_i away
        refine .last turn ?_
        rintro ⟨z, left, -⟩
        exact away z left

/-- The way of a run into a loop, as far as some number of instructions of the iterable leads. -/
def entry (l : Loop) (due : Schedule) (long : Nat) (p : Standing) : Option Entry :=
  match p.fuel, (book p.frame (.getVar "iter")).runUnder due p.machine with
  | _ + 1, .ok () readOn =>
    match readOn.heap.resolve? p.frame.scope "iter" with
    | some function =>
      match l.iterable.follow due long ⟨p.fuel - 1,
        { p.frame with stack := function :: p.frame.stack, ip := l.start + 1 }, readOn⟩ with
      | .left z =>
        match z.fuel, z.frame.stack, (book z.frame (.call 1)).runUnder due z.machine with
        | depth + 3, value :: rest, .ok () calledOn =>
          if z.At l.code l.call ∧ rest = function :: p.frame.stack ∧
              (calledOn.heap.payload? function).any fun
                | .function f => Declaration.iter.Makes f
                | _ => false
          then some ⟨p, readOn, function, z, value, calledOn, depth⟩ else none
        | _, _, _ => none
      | _ => none
    | none => none
  | _, _ => none

/-- The way that is computed is the way into the loop. -/
theorem enters_of_entry {long : Nat} (here : p.At l.code l.start) (computed : l.entry due long p = some en) :
    en.start = p ∧ en.Enters l due := by
  rw [entry] at computed
  split at computed
  · rename_i n readOn fuel reads
    split at computed
    · rename_i function resolves
      split at computed
      · rename_i z followed
        split at computed
        · rename_i depth value rest calledOn enough operands calls
          split at computed
          · rename_i checked
            obtain ⟨there, rfl, builtin⟩ := checked
            obtain rfl := Option.some.inj computed
            have evaluates := followed ▸ Stretch.course_follow l.iterable due long ⟨p.fuel - 1,
              { p.frame with stack := function :: p.frame.stack, ip := l.start + 1 }, readOn⟩
            refine ⟨rfl, here, fuel ▸ Nat.succ_pos n, reads, resolves, evaluates, there, operands, enough, calls, ?_⟩
            obtain ⟨payload, holds, makes⟩ := (Option.any_eq_true _ _).mp builtin
            cases payload with
            | function f => exact ⟨f, holds, of_decide_eq_true makes⟩
            | _ => cases makes
          · cases computed
        · cases computed
      · cases computed
    · cases computed
  · cases computed

/-- A loop gone through, as far as some number of rounds and of instructions leads. -/
def traverse (l : Loop) (due : Schedule) (long n : Nat) (p : Standing) : Option Traversal :=
  match l.entry due long p with
  | some en =>
    match en.answer due with
    | .ok iterator made =>
      match l.unroll due long n (en.asking l iterator made) with
      | (rounds, .left q) => some ⟨en, iterator, made, rounds, q⟩
      | _ => none
    | _ => none
  | none => none

theorem through_of_traverse {long n : Nat} {t : Traversal} (here : p.At l.code l.start)
    (computed : l.traverse due long n p = some t) : t.entry.start = p ∧ t.Through l due := by
  rw [traverse] at computed
  split at computed
  · rename_i en entry
    split at computed
    · rename_i iterator made answer
      obtain ⟨rfl, enters⟩ := enters_of_entry here entry
      have goes := goes_unroll (p := en.asking l iterator made) due
        ⟨enters.there.code, rfl, enters.there.returned⟩ long n
      split at computed
      · rename_i rounds q unrolled
        obtain rfl := Option.some.inj computed
        rw [unrolled] at goes
        exact ⟨rfl, enters, answer, goes⟩
      · cases computed
    · cases computed
  · cases computed

end Loop

/-! ### What can be decided -/

namespace Reached

/-- What holds where a course has left its stretch can be decided. -/
instance (x : Reached) (P : Standing → Prop) [DecidablePred P] : Decidable (∀ z, x = .left z → P z) :=
  match x with
  | .left z => decidable_of_iff (P z) ⟨fun holds _ same => Reached.left.inj same ▸ holds, fun holds => holds z rfl⟩
  | .within _ | .failed _ _ | .finished _ _ => isTrue (by rintro z ⟨⟩)

instance (x : Reached) : Decidable (∀ value m, x ≠ .finished value m) :=
  match x with
  | .finished value m => isFalse fun never => never value m rfl
  | .within _ | .left _ | .failed _ _ => isTrue (by rintro value m ⟨⟩)

end Reached

/-- What a computation gives. -/
def Outcome.given? {α : Type} : Outcome α → Option (α × Machine)
  | .ok a m => some (a, m)
  | .error _ _ => none

theorem Outcome.given?_eq_some {α : Type} {o : Outcome α} {a : α} {m : Machine} :
    o.given? = some (a, m) ↔ o = .ok a m := by
  cases o <;> simp [Outcome.given?]

instance (o : Outcome Unit) (P : Machine → Prop) [DecidablePred P] : Decidable (∀ m, o = .ok () m → P m) :=
  match o with
  | .ok _ m => decidable_of_iff (P m) ⟨fun holds _ same => by cases same; exact holds, fun holds => holds m rfl⟩
  | .error _ _ => isTrue (by rintro m ⟨⟩)

theorem Arena.mem_zipIdx_iff {α : Type} {a : Arena α} {i : Nat} :
    (none, i) ∈ a.slots.toList.zipIdx ↔ i < a.size ∧ a.get? i = none := by
  rw [List.mem_zipIdx_iff_getElem?, Array.getElem?_toList, Arena.get?, Arena.size]
  cases at_i : a.slots[i]? with
  | none => simpa using at_i
  | some slot =>
    have lt : i < a.slots.size := (Array.getElem?_eq_some_iff.mp at_i).1
    simp [lt]

/-- The slots are in order: decided in one pass. -/
instance {α : Type} (a : Arena α) : Decidable a.WellFormed :=
  decidable_of_iff
    (a.free.Nodup ∧ (∀ i ∈ a.free, i < a.size ∧ a.get? i = none) ∧
      ∀ e ∈ a.slots.toList.zipIdx, e.1 = none → e.2 ∈ a.free)
    ⟨fun ⟨nodup, free, vacant⟩ =>
        ⟨nodup, fun i => ⟨free i, fun empty => vacant (none, i) (Arena.mem_zipIdx_iff.mpr empty) rfl⟩⟩,
      fun w => ⟨w.nodup_free, fun i => (w.mem_free_iff i).mp, fun e mem empty =>
        (w.mem_free_iff e.2).mpr (Arena.mem_zipIdx_iff.mp (by rw [← empty]; exact mem))⟩⟩

namespace Round

open Engine

variable {r : Round} {l : Loop} {due : Schedule} {iterator iterator' data data' : Ref} {refs : List Ref}

instance : Decidable (r.Keeps l) :=
  decidable_of_iff
    ((∀ z, r.reached = .left z → z.At l.code l.head ∧ z.frame.stack.length = r.body.frame.stack.length) ∧
      ∀ value m, r.reached ≠ .finished value m)
    ⟨fun ⟨height, goesOn⟩ => ⟨height, goesOn⟩, fun ⟨height, goesOn⟩ => ⟨height, goesOn⟩⟩

instance : Decidable (r.Restores l) :=
  decidable_of_iff (r.Keeps l ∧ ∀ z, r.reached = .left z → z.frame.stack = r.body.frame.stack)
    ⟨fun ⟨keeps, operands⟩ => ⟨keeps, operands⟩, fun ⟨keeps, operands⟩ => ⟨keeps, operands⟩⟩

instance : Decidable (r.LeavesAlone l due refs) :=
  inferInstanceAs (Decidable (∀ z, r.reached = .left z → ∀ booked,
    (book z.frame (.iterNext l.done)).runUnder due z.machine = .ok () booked →
      booked.heap.objects.WellFormed ∧ ∀ ref ∈ refs, booked.heap.payload? ref = r.delivered.heap.payload? ref))

end Round

end ObjectMachine
