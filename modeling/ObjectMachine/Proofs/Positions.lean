import ObjectMachine.Proofs.Members
import ObjectMachine.Proofs.Progressions
/-!
The length of a range and its items by position. Both are worked out with 64-bit integers: the length is narrowed to
one, and an item is the first one plus so many steps. A sum is never out of range when its result is an item, but
the length or the distance of an item from the first may be, and then what comes out is not what the range holds.
So the operators are exact for a range just if these fit.
-/
namespace ObjectMachine

namespace Integer

theorem toInt_wrap {n : Nat} (short : (n : Int) ≤ greatest) : (wrap n).toInt = n := by
  have most : greatest = 2 ^ 63 - 1 := rfl
  exact Int64.toInt_ofInt_of_le (by omega) (by omega)

end Integer

namespace Range

variable {r : Range} {k : Nat} {x : Int64}

/-- The length of a range fits 64 bits, and so do the distances of its items from the first. -/
structure Narrow (r : Range) : Prop where
  /-- The length. -/
  length : (r.length : Int) ≤ Integer.greatest
  /-- The distances. -/
  distances : ∀ k < r.length, Integer.least ≤ k * r.step.toInt ∧ k * r.step.toInt ≤ Integer.greatest

/-- An item is found at its position just if its distance from the first fits 64 bits. -/
theorem itemAt?_eq_some_iff (short : (k : Int) ≤ Integer.greatest) :
    r.itemAt? k = some x ↔
      x.toInt = r.item k ∧ Integer.least ≤ k * r.step.toInt ∧ k * r.step.toInt ≤ Integer.greatest := by
  have product : r.step.toInt * (Integer.wrap k).toInt = k * r.step.toInt := by
    rw [Integer.toInt_wrap short, Int.mul_comm]
  rw [itemAt?, Integer.mul?, product, Option.bind_eq_some_iff]
  constructor
  · rintro ⟨offset, fits, sum⟩
    have exact : offset.toInt = k * r.step.toInt := Integer.ofInt?_eq_some_iff.mp fits
    have := Int64.le_toInt offset
    have := Int64.toInt_lt offset
    refine ⟨?_, ?_, ?_⟩
    · rw [item, ← exact]
      exact Integer.ofInt?_eq_some_iff.mp sum
    · rw [← exact]
      exact Int64.le_toInt offset
    · rw [← exact]
      exact Int.le_of_lt_add_one (Int64.toInt_lt offset)
  · rintro ⟨exact, lower, upper⟩
    have most : Integer.greatest = 2 ^ 63 - 1 := rfl
    obtain ⟨offset, fits⟩ : ∃ offset : Int64, offset.toInt = k * r.step.toInt :=
      ⟨_, Int64.toInt_ofInt_of_le lower (by omega)⟩
    refine ⟨offset, Integer.ofInt?_eq_some_iff.mpr fits, Integer.ofInt?_eq_some_iff.mpr ?_⟩
    rw [fits]
    exact exact

end Range

namespace Engine

variable {due : Schedule} {m : Machine} {r : Range} {i x : Int64} {k : Nat} {range index : Ref}

/-- An index means a position that it counts from the start or from the end. -/
theorem position?_eq_some {n : Nat} (lt : k < n) (counts : i.toInt = k ∨ i.toInt = (k : Int) - n) :
    position? i n = some k := by
  have sign : i < 0 ↔ i.toInt < 0 := Int64.lt_iff_toInt_lt
  have inside : (if i < 0 then i.toInt + n else i.toInt) = k := by
    split <;> rename_i negative <;> rw [sign] at negative <;> omega
  rw [position?, inside]
  exact if_pos ⟨Int.natCast_nonneg k, Int.ofNat_lt.mpr lt⟩

/-- An index that counts beyond either end means none. -/
theorem position?_eq_none {n : Nat} (beyond : i.toInt < -n ∨ n ≤ i.toInt) : position? i n = none := by
  have sign : i < 0 ↔ i.toInt < 0 := Int64.lt_iff_toInt_lt
  rw [position?]
  refine if_neg fun inside => ?_
  split at inside <;> rename_i negative <;> rw [sign] at negative <;> omega

/-- The sum that an index from the end is replaced with fits 64 bits. -/
theorem exists_shifted {n : Nat} (short : (n : Int) ≤ Integer.greatest) (i : Int64) :
    ∃ j : Int64, (if i < 0 then Integer.add? i (Integer.wrap n) else some i) = some j ∧
      position? i n = if 0 ≤ j.toInt ∧ j.toInt < n then some j.toInt.toNat else none := by
  by_cases negative : i < 0
  · have below : i.toInt < 0 := Int64.lt_iff_toInt_lt.mp negative
    have least : -2 ^ 63 ≤ i.toInt := Int64.le_toInt i
    have fits : -2 ^ 63 ≤ i.toInt + n ∧ i.toInt + n < 2 ^ 63 := by
      have most : Integer.greatest = 2 ^ 63 - 1 := rfl
      omega
    have exact := Int64.toInt_ofInt_of_le fits.1 fits.2
    refine ⟨Int64.ofInt (i.toInt + n), ?_, ?_⟩
    · rw [if_pos negative, Integer.add?, Integer.toInt_wrap short, Integer.ofInt?_eq_some_iff, exact]
    · rw [position?, if_pos negative, exact]
  · exact ⟨i, if_neg negative, by rw [position?, if_neg negative]⟩

/-- The item that an index means. -/
def itemMeant (r : Range) (i : Int64) : Engine Int64 :=
  match position? i r.length with
  | some k =>
    match r.itemAt? k with
    | some x => return x
    | none => throw .overflow
  | none => raise (.indexOut .range i)

/-- An index of a range whose length fits 64 bits is looked up where it means, and refused where it means nothing. -/
theorem rangeItem_eq (short : (r.length : Int) ≤ Integer.greatest) (i : Int64) : rangeItem r i = itemMeant r i := by
  obtain ⟨j, shifted, means⟩ := exists_shifted short i
  have sign : j < 0 ↔ j.toInt < 0 := Int64.lt_iff_toInt_lt
  simp only [rangeItem, itemMeant, shifted, means]
  by_cases negative : j < 0
  · have below := sign.mp negative
    rw [if_pos negative, if_neg (by omega)]
  · have : 0 ≤ j.toInt := Int.not_lt.mp (mt sign.mpr negative)
    rw [if_neg negative]
    by_cases inside : j.toInt.toNat < r.length
    · have both : 0 ≤ j.toInt ∧ j.toInt < r.length := ⟨this, by omega⟩
      cases found : r.itemAt? j.toInt.toNat <;> simp only [if_pos inside, if_pos both, found]
    · rw [if_neg inside, if_neg (by omega)]

/-! ### The operators -/

/-- A result is an integer. -/
def IsInt (i : Int) (value : Ref) (h : Heap) : Prop := ∃ x, h.payload? value = some (.int x) ∧ x.toInt = i

theorem succeeds_newInt (due : Schedule) (w : m.heap.objects.WellFormed) (x : Int64) :
    Succeeds due (newInt x) 1 (IsInt x.toInt) m :=
  (succeeds_new due w (.int x)).mono fun value h stored => ⟨x, by rw [Heap.payload?, stored]; rfl, rfl⟩

theorem runUnder_rangeOf (holds : m.heap.payload? range = some (.range r)) :
    (rangeOf range).runUnder due m = .ok r m := by
  simp only [rangeOf, runUnder_bind, runUnder_payload, holds]
  rfl

/-- The length of a range is narrowed to 64 bits. -/
theorem succeeds_rangeLength (due : Schedule) (w : m.heap.objects.WellFormed)
    (holds : m.heap.payload? range = some (.range r)) :
    Succeeds due (runRange .len [range]) 1 (IsInt (Integer.wrap r.length).toInt) m := by
  rw [runRange]
  exact .bind_of_ok (runUnder_rangeOf holds) (succeeds_newInt due w _)

/-- An item of a range by its index. -/
theorem runUnder_getItem (holds : m.heap.payload? range = some (.range r))
    (means : m.heap.payload? index = some (.int i)) :
    (runRange .getItem [range, index]).runUnder due m = (rangeItem r i >>= newInt).runUnder due m := by
  have read : (indexOf index).runUnder due m = .ok i m := by
    simp only [indexOf, runUnder_bind, runUnder_payload, means]
    rfl
  rw [runRange, runUnder_bind, runUnder_rangeOf holds]
  dsimp only
  rw [runUnder_bind, read]

/-- The global function for lengths gives that of a range, if it fits 64 bits. -/
theorem succeeds_lengthOf {h : Heap} {o : Object} {fuel : Nat} (due : Schedule) (equipped : h.Equipped)
    (ready : m.Extends h 1) (live : h.object? range = some o) (untyped : o.type = none) (data : o.payload = .range r)
    (short : (r.length : Int) ≤ Integer.greatest) :
    Succeeds due (lengthOf (reentry (fuel + 1)) range) 1 (IsInt r.length) m := by
  have typeOf : m.heap.typeOf range = Kind.range.ref := by
    rw [Heap.typeOf_of_untyped (ready.adds.kept range o live) untyped, data]
    rfl
  have types : m.heap.operandTypes "op_len" [range] = [] ++ Kind.range.ref :: [] := by
    rw [← typeOf]
    rfl
  let d : Declaration := ⟨"op_len", [Declaration.typed "self" .range], .range .len⟩
  have declared : d ∈ Declaration.ofKind .range := by decide
  have takes : d.Takes m.heap [range] :=
    ⟨List.forall_mem_singleton.mpr rfl, .cons (Declaration.fits_typed "self" typeOf) .nil⟩
  have called : Succeeds due (callOperator (reentry (fuel + 1)) "op_len" [range] false) 1 (IsInt r.length) m := by
    refine succeeds_dispatch equipped declared ready rfl types (List.forall_mem_nil _) takes fun m' ready' => ?_
    have holds : m'.heap.payload? range = some (.range r) := by
      rw [Heap.payload?, ready'.adds.kept range o live, Option.map_some, data]
    rw [← Integer.toInt_wrap short]
    exact succeeds_rangeLength due ready'.adds.wellFormed holds
  rw [lengthOf]
  refine called.bind (k := 0) fun value m' spends is => ?_
  obtain ⟨x, holds, exact⟩ := is
  have read : (payload value).runUnder due m' = .ok (.int x) m' := by
    rw [runUnder_payload, holds]
  refine .bind_of_ok read ?_
  have natural : 0 ≤ x := by
    rw [Int64.le_iff_toInt_le, exact]
    exact Int.natCast_nonneg _
  dsimp only
  rw [if_pos natural]
  exact .pure due spends.wellFormed ⟨x, holds, exact⟩

/-- The operators of a range are exact on a machine that holds it. -/
structure Exact (due : Schedule) (k : Reentry) (m : Machine) (range : Ref) (r : Range) : Prop where
  /-- The operator for the length gives the length. -/
  length : Succeeds due (runRange .len [range]) 1 (IsInt r.length) m
  /-- The global function takes it. -/
  accepted : Succeeds due (lengthOf k range) 1 (IsInt r.length) m
  /-- An index that counts from the start or from the end gives the item. -/
  item : ∀ index i, m.heap.payload? index = some (.int i) →
    ∀ p < r.length, i.toInt = p ∨ i.toInt = (p : Int) - r.length →
      Succeeds due (runRange .getItem [range, index]) 1 (IsInt (r.item p)) m
  /-- An index beyond either end is refused. -/
  outside : ∀ index i, m.heap.payload? index = some (.int i) → i.toInt < -r.length ∨ r.length ≤ i.toInt →
    (runRange .getItem [range, index]).runUnder due m = .error (.raised (.ofCause (.indexOut .range i))) m

/-- The operators of a narrow range are exact. -/
theorem exact_of_narrow {o : Object} {fuel : Nat} (due : Schedule) (narrow : r.Narrow) (equipped : m.heap.Equipped)
    (can : m.CanNest 1) (live : m.heap.object? range = some o) (untyped : o.type = none)
    (data : o.payload = .range r) : Exact due (reentry (fuel + 1)) m range r := by
  have w := equipped.objects
  have short := narrow.length
  have holds : m.heap.payload? range = some (.range r) := by
    rw [Heap.payload?, live, Option.map_some, data]
  constructor
  · rw [← Integer.toInt_wrap short]
    exact succeeds_rangeLength due w holds
  · exact succeeds_lengthOf due equipped ⟨.refl w, can⟩ live untyped data short
  · intro index i integer p lt counts
    obtain ⟨x, exact⟩ := Range.exists_item lt
    have near : (p : Int) ≤ Integer.greatest := Int.le_trans (Int.ofNat_le.mpr lt.le) short
    have found : r.itemAt? p = some x := (Range.itemAt?_eq_some_iff near).mpr ⟨exact, narrow.distances p lt⟩
    have ran : (rangeItem r i).runUnder due m = .ok x m := by
      rw [rangeItem_eq short, itemMeant, position?_eq_some lt counts]
      dsimp only
      rw [found]
      rfl
    rw [← exact]
    exact (Succeeds.bind_of_ok ran (succeeds_newInt due w x)).of_runUnder_eq (runUnder_getItem holds integer)
  · intro index i integer beyond
    rw [runUnder_getItem holds integer, rangeItem_eq short, itemMeant, position?_eq_none beyond]
    rfl

/-- Some machine holds a range and an index, with room for one more object. -/
theorem exists_holding (r : Range) (i : Int64) :
    ∃ (m : Machine) (range index : Ref) (o : Object), m.heap.Equipped ∧ m.CanNest 1 ∧ m.heap.HasRoom 1 ∧
      m.heap.object? range = some o ∧ o.type = none ∧ o.payload = .range r ∧
      m.heap.payload? index = some (.int i) := by
  let start := Machine.boot .unlimited .silent
  have room : start.heap.HasRoom 3 := trivial
  have can : start.CanNest 1 := by decide
  have equipped : start.heap.Equipped := Machine.equipped_boot _ _
  obtain ⟨range, m₁, -, spends, live⟩ :=
    succeeds_new Heap.collectionDue equipped.objects (.range r) (room.mono (by decide))
  obtain ⟨index, m₂, -, spends', integer⟩ :=
    succeeds_new Heap.collectionDue spends.wellFormed (.int i) (spends.rooms 1 (room.mono (by decide)))
  have both := spends.trans spends'
  refine ⟨m₂, range, index, _, equipped.of_adds both.retains.adds, can.of_nesting_eq both.nesting, both.rooms 1 room,
    spends'.retains.adds.kept range _ live, rfl, rfl, ?_⟩
  rw [Heap.payload?, integer]
  rfl

/-- The operators of a range are exact, on every machine that holds it while the built-in Types have their members,
just if the length of the range fits 64 bits and so do the distances of its items from the first. -/
theorem range_exact_iff (r : Range) :
    r.Narrow ↔ ∀ (due : Schedule) (fuel : Nat) (m : Machine) (range : Ref) (o : Object), m.heap.Equipped →
      m.CanNest 1 → m.heap.object? range = some o → o.type = none → o.payload = .range r →
      Exact due (reentry (fuel + 1)) m range r := by
  constructor
  · intro narrow due fuel m range o equipped can live untyped data
    exact exact_of_narrow due narrow equipped can live untyped data
  · intro exact
    have short : (r.length : Int) ≤ Integer.greatest := by
      obtain ⟨m, range, index, o, equipped, can, room, live, untyped, data, -⟩ := exists_holding r 0
      obtain ⟨value, m', -, -, x, -, same⟩ :=
        (exact Heap.collectionDue 0 m range o equipped can live untyped data).length room
      rw [← same]
      exact Int.le_of_lt_add_one (Int64.toInt_lt x)
    refine ⟨short, fun p lt => ?_⟩
    have near : (p : Int) ≤ Integer.greatest := Int.le_trans (Int.ofNat_le.mpr lt.le) short
    have counts : (Integer.wrap p).toInt = p := Integer.toInt_wrap near
    obtain ⟨m, range, index, o, equipped, can, room, live, untyped, data, integer⟩ :=
      exists_holding r (Integer.wrap p)
    have holds : m.heap.payload? range = some (.range r) := by
      rw [Heap.payload?, live, Option.map_some, data]
    obtain ⟨value, m', ran, -⟩ :=
      (exact Heap.collectionDue 0 m range o equipped can live untyped data).item index _ integer p lt (.inl counts) room
    rw [runUnder_getItem holds integer, rangeItem_eq short, itemMeant, position?_eq_some lt (.inl counts)] at ran
    -- an item that is not found ends in an overflow
    cases found : r.itemAt? p with
    | some x => exact ((Range.itemAt?_eq_some_iff near).mp found).2
    | none =>
      dsimp only at ran
      rw [found] at ran
      cases ran

/-- A program that asks for the last of all integers but one by the index `-1`. -/
def asksLast : Code :=
  assemble
    [.get "range", .int (-9223372036854775808), .int 9223372036854775807, .op (.call 2), .int (-1),
      .operator "op_get_item" 2, .op .returnValue]

/-- The error that ends a program. -/
def uncaught? (m : Machine) (code : Code) : Option (String × String) :=
  match m.run .discarding code with
  | (.error (.reported report), _) => some (report.typeName, report.message)
  | _ => none

/-- The range of all integers but the last has an item that the index `-1` counts to, but to ask for it is refused. -/
theorem last_item_refused :
    let r : Range := ⟨-9223372036854775808, 9223372036854775807, 1, by decide⟩
    let p := UInt64.size - 2
    p < r.length ∧ (-1 : Int64).toInt = (p : Int) - r.length ∧ r.item p = 9223372036854775806 ∧
      uncaught? (Machine.boot .unlimited .silent) asksLast = some ("IndexError", "range index -1 out of range") := by
  decide +kernel

end Engine

end ObjectMachine
