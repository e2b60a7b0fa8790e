import Mathlib
import ObjectMachine.Proofs.Arithmetic
/-!
Powers of integers. The operator for powers is the one of `num`, which integers inherit. A power with a natural exponent
is exact where it fits 64 bits and a rounded number where it does not, as long as the exponent is below `2 ^ 32`. Beyond,
it is always a rounded number. That is as it should be for all bases but `-1`, `0` and `1`: their powers fit whatever the
exponent is, and are rounded all the same.
-/
namespace ObjectMachine

namespace Integer

variable {b : Int} {e : Nat}

theorem not_fits_pow (wide : 2 ≤ b.natAbs) (high : 63 < e) : ¬(least ≤ b ^ e ∧ b ^ e ≤ greatest) := by
  have size : 2 ^ 64 ≤ (b ^ e).natAbs := by
    rw [Int.natAbs_pow]
    exact Nat.le_trans (Nat.pow_le_pow_right (by decide) high) (Nat.pow_le_pow_left wide e)
  unfold least greatest
  omega

/-- The bases whose powers do not grow. -/
theorem eq_of_natAbs_le_one (narrow : b.natAbs ≤ 1) : b = -1 ∨ b = 0 ∨ b = 1 := by omega

theorem fits_pow_of_natAbs_le_one (narrow : b.natAbs ≤ 1) (e : Nat) : least ≤ b ^ e ∧ b ^ e ≤ greatest := by
  have size : (b ^ e).natAbs ≤ 1 := by
    rw [Int.natAbs_pow]
    exact Nat.le_trans (Nat.pow_le_pow_left narrow e) (Nat.le_of_eq (Nat.one_pow e))
  unfold least greatest
  omega

/-- Their powers alternate from the exponent one on. -/
theorem pow_of_natAbs_le_one (narrow : b.natAbs ≤ 1) (e : Nat) :
    b ^ (if e = 0 then 0 else 2 - e % 2) = b ^ e := by
  by_cases zero : e = 0
  · rw [if_pos zero, zero]
  rw [if_neg zero]
  obtain rfl | rfl | rfl := eq_of_natAbs_le_one narrow
  · have square : (-1 : Int) ^ 2 = 1 := rfl
    obtain ⟨half, rfl | rfl⟩ : ∃ half, e = 2 * half ∨ e = 2 * half + 1 := ⟨e / 2, by omega⟩
    · rw [show 2 - 2 * half % 2 = 2 by omega, Int.pow_mul, square, Int.one_pow]
    · rw [show 2 - (2 * half + 1) % 2 = 1 by omega, Int.pow_succ (-1) (2 * half), Int.pow_mul, square, Int.one_pow]
      rfl
  · rw [Int.zero_pow zero, Int.zero_pow (by omega)]
  · rw [Int.one_pow, Int.one_pow]

/-- A power is the exact one, if that fits, for every exponent that fits 32 bits, and for no other. -/
theorem pow?_eq (base : Int64) (e : Nat) : pow? base e = if e < UInt32.size then ofInt? (base.toInt ^ e) else none := by
  rw [pow?]
  by_cases short : e < UInt32.size
  · rw [if_pos short, if_neg (Nat.not_le_of_lt short)]
    by_cases narrow : base.toInt.natAbs ≤ 1
    · rw [if_pos narrow]
      exact congrArg ofInt? (pow_of_natAbs_le_one narrow e)
    · rw [if_neg narrow]
      by_cases high : 63 < e
      · rw [if_pos high, ofInt?, if_neg (not_fits_pow (by omega) high)]
      · rw [if_neg high]
        rfl
  · rw [if_neg short, if_pos (Nat.le_of_not_lt short)]

end Integer

/-- A power is the exact one or the rounded one, as it should be, unless it is a power of `-1`, `0` or `1` with an
exponent beyond 32 bits. -/
theorem Numeric.isOrRounds_pow_iff (base : Int64) (e : Nat) (rounded : Binary64) :
    (orRounded (Integer.pow? base e) rounded).IsOrRounds (base.toInt ^ e) rounded ↔
      ¬(base.toInt.natAbs ≤ 1 ∧ UInt32.size ≤ e) := by
  rw [Integer.pow?_eq]
  by_cases short : e < UInt32.size
  · rw [if_pos short]
    exact iff_of_true (isOrRounds_orRounded _ rounded) fun both => absurd short (Nat.not_lt_of_le both.2)
  · have long : UInt32.size ≤ e := Nat.le_of_not_lt short
    rw [if_neg short, orRounded, IsOrRounds]
    by_cases narrow : base.toInt.natAbs ≤ 1
    · -- the power fits, but the result is no integer
      rw [if_pos (Integer.fits_pow_of_natAbs_le_one narrow e)]
      refine iff_of_false ?_ fun none => none ⟨narrow, long⟩
      rintro ⟨i, same, -⟩
      cases same
    · have high : 63 < e := Nat.lt_of_lt_of_le (by decide) long
      rw [if_neg (Integer.not_fits_pow (by omega) high)]
      exact iff_of_true rfl fun both => narrow both.1

/-- The operator for powers, as it is declared for all numbers. -/
def Declaration.power : Declaration := ⟨"op_pow", [typed "self" .num, typed "other" .num], .number .pow⟩

/-- Integers inherit it, as long as `int` has no member of this name. -/
theorem Heap.Equipped.hasDeclared_power {h : Heap} {r : Ref} (equipped : h.Equipped) (typeOf : h.typeOf r = Kind.int.ref)
    (inherits : h.ownMember? Kind.int.ref "op_pow" = none) : h.HasDeclared r .power := by
  obtain ⟨method, member, f, function, makes⟩ := equipped.furnished .num .power (by decide)
  have mro : h.mro Kind.int.ref = [Kind.int.ref, Kind.num.ref, Kind.object.ref] := equipped.stand.mro_kind .int
  refine ⟨method, f, ?_, function, makes⟩
  rw [typeOf]
  exact ⟨[Kind.int.ref], Kind.num.ref, [Kind.object.ref], mro, member, List.forall_mem_singleton.mpr inherits⟩

namespace Engine

variable {due : Schedule} {m : Machine} {x y : Ref} {a e : Int64}

/-- The operator for powers gives the power of integers with a natural exponent, exact or rounded. -/
theorem gives_power (due : Schedule) (n : Nat) (left : m.heap.payload? x = some (.int a))
    (right : m.heap.payload? y = some (.int e)) (natural : 0 ≤ e.toInt) (has : m.heap.HasDeclared x .power)
    (base : m.heap.isInstance x Kind.num.ref) (exponent : m.heap.isInstance y Kind.num.ref)
    (w : m.heap.objects.WellFormed) (anyValue : Bool) :
    m.Gives "op_pow" [x, y] ((callOperator (reentry (n + 1)) "op_pow" [x, y] anyValue).runUnder due m)
      (Numeric.orRounded (Integer.pow? a e.toInt.toNat) (.pow (.ofInt a.toInt) (.ofInt e.toInt))).payload := by
  have takes : Declaration.power.Takes m.heap [x, y] :=
    ⟨by simp [Declaration.power, Declaration.typed],
      .cons (Declaration.fits_of_isInstance "self" base) (.cons (Declaration.fits_of_isInstance "other" exponent) .nil)⟩
  have power : Numeric.pow (.int a) (.int e) =
      .ok (.orRounded (Integer.pow? a e.toInt.toNat) (.pow (.ofInt a.toInt) (.ofInt e.toInt))) := if_pos natural
  have does : Does due (runNumber .pow [x, y]) m.heap (m.heap.stored
      (Numeric.orRounded (Integer.pow? a e.toInt.toNat) (.pow (.ofInt a.toInt) (.ofInt e.toInt))).payload) := by
    refine (does_onNumbers due left right _).bind ?_
    rw [power]
    exact does_new due _ m.heap
  refine Machine.gives_of_called w ?_
  exact (runUnder_operator_of_hasDeclared has rfl takes anyValue).trans (does.called (objectNodes [x, y]))

/-- For all integers, a natural exponent, and the operator of all numbers: what it gives is the exact power where that
fits 64 bits and a rounded number where it does not, just if the base is none of `-1`, `0` and `1` or the exponent fits
32 bits. For an exponent that does not fit 32 bits it is a rounded number, whatever the base is. -/
theorem integer_power_iff (due : Schedule) (n : Nat) (left : m.heap.payload? x = some (.int a))
    (right : m.heap.payload? y = some (.int e)) (natural : 0 ≤ e.toInt) (has : m.heap.HasDeclared x .power)
    (base : m.heap.isInstance x Kind.num.ref) (exponent : m.heap.isInstance y Kind.num.ref)
    (w : m.heap.objects.WellFormed) :
    ∃ z : Numeric,
      (∀ anyValue, m.Gives "op_pow" [x, y] ((callOperator (reentry (n + 1)) "op_pow" [x, y] anyValue).runUnder due m)
        z.payload) ∧
      (z.IsOrRounds (a.toInt ^ e.toInt.toNat) (.pow (.ofInt a.toInt) (.ofInt e.toInt)) ↔
        ¬(a.toInt.natAbs ≤ 1 ∧ UInt32.size ≤ e.toInt.toNat)) ∧
      (UInt32.size ≤ e.toInt.toNat → z = .num (.pow (.ofInt a.toInt) (.ofInt e.toInt))) := by
  refine ⟨_, gives_power due n left right natural has base exponent w, Numeric.isOrRounds_pow_iff a _ _, fun long => ?_⟩
  rw [Integer.pow?_eq, if_neg (Nat.not_lt_of_le long)]
  rfl

/-- The greatest power of two that fits. -/
theorem integer_power_of_two :
    let m := (Machine.boot .unlimited .silent).afterSession ([.int 2, .int 62].map .store)
    ∃ x y : Ref, m.heap.int? x = some 2 ∧ m.heap.int? y = some 62 ∧
      (callOperator (reentry 1) "op_pow" [x, y] false).run m =
        m.called "op_pow" [x, y] (m.heap.stored (.int 4611686018427387904)) := by
  intro m
  obtain ⟨left, right, typeOf, inherits, base, exponent⟩ : m.heap.payload? ⟨142⟩ = some (.int 2) ∧
      m.heap.payload? ⟨143⟩ = some (.int 62) ∧ m.heap.typeOf ⟨142⟩ = Kind.int.ref ∧
      m.heap.ownMember? Kind.int.ref "op_pow" = none ∧ m.heap.isInstance ⟨142⟩ Kind.num.ref ∧
      m.heap.isInstance ⟨143⟩ Kind.num.ref := by
    decide +kernel
  have equipped : m.heap.Equipped := Machine.equipped_stores .unlimited .silent [.int 2, .int 62]
  have has := equipped.hasDeclared_power typeOf inherits
  obtain ⟨z, gives, exact, -⟩ :=
    integer_power_iff Heap.collectionDue 0 left right (by decide) has base exponent equipped.objects
  have rounds := exact.mpr (by decide)
  rw [Numeric.IsOrRounds, if_pos (by decide)] at rounds
  obtain ⟨i, rfl, value⟩ := rounds
  obtain rfl : i = 4611686018427387904 := Int64.toInt_inj.mp (value.trans (by decide))
  exact ⟨⟨142⟩, ⟨143⟩, by rw [Heap.int?, left], by rw [Heap.int?, right], (gives false).called⟩

/-- One to the power `2 ^ 32` is one, which fits, but it is given as a rounded number. -/
theorem integer_power_of_one_rounded :
    let m := (Machine.boot .unlimited .silent).afterSession ([.int 1, .int 4294967296].map .store)
    ∃ x y : Ref, m.heap.int? x = some 1 ∧ m.heap.int? y = some 4294967296 ∧
      (Integer.least ≤ (1 : Int) ^ 4294967296 ∧ (1 : Int) ^ 4294967296 ≤ Integer.greatest) ∧
      ∃ r m', (callOperator (reentry 1) "op_pow" [x, y] false).run m = .ok r m' ∧
        m'.heap.payload? r = some (.num (.pow (.ofInt 1) (.ofInt 4294967296))) := by
  intro m
  obtain ⟨left, right, typeOf, inherits, base, exponent⟩ : m.heap.payload? ⟨142⟩ = some (.int 1) ∧
      m.heap.payload? ⟨143⟩ = some (.int 4294967296) ∧ m.heap.typeOf ⟨142⟩ = Kind.int.ref ∧
      m.heap.ownMember? Kind.int.ref "op_pow" = none ∧ m.heap.isInstance ⟨142⟩ Kind.num.ref ∧
      m.heap.isInstance ⟨143⟩ Kind.num.ref := by
    decide +kernel
  have equipped : m.heap.Equipped := Machine.equipped_stores .unlimited .silent [.int 1, .int 4294967296]
  have has := equipped.hasDeclared_power typeOf inherits
  have gives := gives_power Heap.collectionDue 0 left right (by decide) has base exponent equipped.objects false
  obtain ⟨r, m', ran, live⟩ := gives.object (by decide +kernel) (by decide +kernel)
  refine ⟨⟨142⟩, ⟨143⟩, by rw [Heap.int?, left], by rw [Heap.int?, right],
    Integer.fits_pow_of_natAbs_le_one (by decide) _, r, m', ran, ?_⟩
  rw [Heap.payload?, live]
  rfl

end Engine

end ObjectMachine
