import ObjectMachine.Proofs.Indexing
/-!
Arithmetic on integers. A sum, difference, product or opposite is the exact one where that fits 64 bits, and a rounded
number where it does not. A remainder always fits: it is less than the divisor and of its sign. The division that
truncates leaves one of the sign of the dividend, so a remainder of the other sign is brought over by adding the divisor
once; no step of this overflows, and the one quotient that does not fit is that of the least integer by `-1`.
-/
namespace ObjectMachine

namespace Integer

/-- What remains of an integer when the quotient is rounded down: less than the divisor, and of its sign. -/
structure Remains (a b r : Int) : Prop where
  /-- A multiple of the divisor was taken away. -/
  multiple : ∃ q, a = b * q + r
  /-- Less than the divisor is left. -/
  small : r.natAbs < b.natAbs
  /-- It is nothing, or of the sign of the divisor. -/
  sign : r = 0 ∨ r.sign = b.sign

variable {a b r : Int64}

theorem toInt_ne_zero (ne : b ≠ 0) : b.toInt ≠ 0 := fun zero => ne (Int64.toInt_inj.mp zero)

/-! ### The division that truncates -/

theorem rem?_eq_some (some : rem? a b = some r) : b ≠ 0 ∧ r.toInt = a.toInt.tmod b.toInt := by
  rw [rem?] at some
  split at some
  · cases some
  · rename_i ne
    obtain ⟨q, -, rfl⟩ := Option.map_eq_some_iff.mp some
    exact ⟨ne, Int64.toInt_mod a b⟩

/-- A divisor other than `-1` leaves a quotient that fits. -/
theorem tdiv_fits {a b : Int} (lower : least ≤ a) (upper : a ≤ greatest) (other : b ≠ -1) :
    least ≤ a.tdiv b ∧ a.tdiv b ≤ greatest := by
  have size : (a.tdiv b).natAbs = a.natAbs / b.natAbs := Int.natAbs_tdiv a b
  unfold least greatest at *
  by_cases zero : b = 0
  · rw [zero, Int.tdiv_zero]
    omega
  by_cases one : b = 1
  · rw [one, Int.tdiv_one]
    omega
  have half : a.natAbs / b.natAbs ≤ a.natAbs / 2 := Nat.div_le_div_left (by omega) (by decide)
  omega

/-- The quotient fits unless the least integer is divided by `-1`. -/
theorem rem?_eq_none_iff (ne : b ≠ 0) : rem? a b = none ↔ a.toInt = least ∧ b.toInt = -1 := by
  have lower : least ≤ a.toInt := Int64.le_toInt a
  have upper : a.toInt ≤ greatest := Int.le_of_lt_add_one (Int64.toInt_lt a)
  rw [rem?, if_neg ne, Option.map_eq_none_iff, ofInt?]
  by_cases minusOne : b.toInt = -1
  · rw [minusOne, Int.tdiv_neg, Int.tdiv_one]
    unfold least greatest at *
    split <;> simp <;> omega
  · rw [if_pos (tdiv_fits lower upper minusOne)]
    simp [minusOne]

/-! ### The division that rounds down -/

theorem strays_iff : strays r b = true ↔ r.toInt ≠ 0 ∧ ¬(r.toInt < 0 ↔ b.toInt < 0) := by
  have zero : (0 : Int64).toInt = 0 := rfl
  simp [strays, Int64.lt_iff_toInt_lt, zero, ← Int64.toInt_inj]

/-- The remainder of the division that truncates, brought to the sign of the divisor. -/
theorem remains_of_tmod {a b r : Int} (ne : b ≠ 0)
    (brought : r = if a.tmod b ≠ 0 ∧ ¬(a.tmod b < 0 ↔ b < 0) then a.tmod b + b else a.tmod b) : Remains a b r := by
  have same : b * a.tdiv b + a.tmod b = a := Int.mul_tdiv_add_tmod a b
  have small : (a.tmod b).natAbs < b.natAbs := by
    rw [Int.natAbs_tmod]
    exact Nat.mod_lt _ (Int.natAbs_pos.mpr ne)
  split at brought
  · rename_i strays
    refine ⟨⟨a.tdiv b - 1, ?_⟩, by omega, .inr ?_⟩
    · rw [brought, Int.mul_sub, Int.mul_one]
      omega
    · rcases Int.lt_or_gt_of_ne ne with neg | pos
      · rw [Int.sign_eq_neg_one_of_neg neg, Int.sign_eq_neg_one_of_neg (by omega)]
      · rw [Int.sign_eq_one_of_pos pos, Int.sign_eq_one_of_pos (by omega)]
  · refine ⟨⟨a.tdiv b, by omega⟩, by omega, ?_⟩
    rcases Int.lt_trichotomy r 0 with neg | zero | pos
    · exact .inr (by rw [Int.sign_eq_neg_one_of_neg neg, Int.sign_eq_neg_one_of_neg (by omega)])
    · exact .inl zero
    · exact .inr (by rw [Int.sign_eq_one_of_pos pos, Int.sign_eq_one_of_pos (by omega)])

/-- To bring a remainder to the sign of the divisor does not overflow. -/
theorem toInt_add_of_strays (some : rem? a b = some r) (stray : strays r b = true) :
    (r + b).toInt = r.toInt + b.toInt := by
  obtain ⟨ne, exact⟩ := rem?_eq_some some
  have small : r.toInt.natAbs < b.toInt.natAbs := by
    rw [exact, Int.natAbs_tmod]
    exact Nat.mod_lt _ (Int.natAbs_pos.mpr (toInt_ne_zero ne))
  have opposite := strays_iff.mp stray
  have := Int64.le_toInt b
  have := Int64.toInt_lt b
  rw [Int64.toInt_add]
  exact Int.bmod_eq_of_le (by omega) (by omega)

theorem remains_floorMod (ne : b ≠ 0) : Remains a.toInt b.toInt (floorMod a b).toInt := by
  rw [floorMod]
  cases rest : rem? a b with
  | none =>
    obtain ⟨-, minusOne⟩ := (rem?_eq_none_iff ne).mp rest
    show Remains a.toInt b.toInt 0
    rw [minusOne]
    exact ⟨⟨-a.toInt, by omega⟩, Nat.one_pos, .inl rfl⟩
  | some r =>
    have exact := (rem?_eq_some rest).2
    refine remains_of_tmod (toInt_ne_zero ne) ?_
    rw [← exact]
    dsimp only
    by_cases stray : strays r b = true
    · rw [if_pos stray, if_pos (strays_iff.mp stray), toInt_add_of_strays rest stray]
    · rw [if_neg stray, if_neg (mt strays_iff.mpr stray)]

end Integer

namespace Numeric

/-- A number is an exact result where that fits 64 bits, and a rounded one where it does not. -/
def IsOrRounds (n : Numeric) (exact : Int) (rounded : Binary64) : Prop :=
  if Integer.least ≤ exact ∧ exact ≤ Integer.greatest then ∃ i, n = int i ∧ i.toInt = exact else n = num rounded

theorem isOrRounds_orRounded (exact : Int) (rounded : Binary64) :
    (orRounded (Integer.ofInt? exact) rounded).IsOrRounds exact rounded := by
  rw [IsOrRounds]
  split
  · rename_i fits
    obtain ⟨i, some⟩ : ∃ i, Integer.ofInt? exact = some i := ⟨_, if_pos fits⟩
    rw [some]
    exact ⟨i, rfl, Integer.ofInt?_eq_some_iff.mp some⟩
  · rename_i beyond
    rw [Integer.ofInt?, if_neg beyond]
    rfl

end Numeric

namespace Machine

/-- A call gives a new object with the data: so it is where a call can be nested and there is room for an object, and
else the call is refused. -/
structure Gives (m : Machine) (name : String) (args : List Ref) (ran : Outcome Ref) (p : Payload) : Prop where
  /-- What the call comes to. -/
  called : ran = m.called name args (m.heap.stored p)
  /-- Where nothing is exhausted the object is there. -/
  object : m.CanNest 1 → m.heap.HasRoom 1 → ∃ r m', ran = .ok r m' ∧ m'.heap.object? r = some (.ofPayload p none)

/-- A call fails for a cause, and the heap stays as it is: so it is where a call can be nested. -/
structure Fails (m : Machine) (name : String) (args : List Ref) (ran : Outcome Ref) (c : Cause) : Prop where
  /-- What the call comes to. -/
  called : ran = m.called name args (.error (.raised (.ofCause c)), m.heap)
  /-- Where nothing is exhausted the error is one of the kind. -/
  error : m.CanNest 1 → ∃ e m', ran = .error (.raised e) m' ∧ e.type = .builtin c.kind ∧ m'.heap = m.heap

variable {m : Machine} {name : String} {args : List Ref} {ran : Outcome Ref}

theorem gives_of_called {p : Payload} (w : m.heap.objects.WellFormed)
    (called : ran = m.called name args (m.heap.stored p)) : m.Gives name args ran p := by
  refine ⟨called, fun can room => ?_⟩
  obtain ⟨inner, entered, -⟩ := can.exists_enter
  obtain ⟨r, h, allocated, stores, -⟩ := Heap.exists_allocate_ok (.ofPayload p none) w room
  have stored : m.heap.stored p = (.ok r, h) := by rw [Heap.stored, allocated]
  rw [called, called_of_enter entered, stored]
  exact ⟨r, _, rfl, by rw [Machine.withHeap, stores.object?, if_pos rfl]⟩

theorem fails_of_called {c : Cause} (called : ran = m.called name args (.error (.raised (.ofCause c)), m.heap)) :
    m.Fails name args ran c := by
  refine ⟨called, fun can => ?_⟩
  obtain ⟨inner, entered, -⟩ := can.exists_enter
  rw [called, called_of_enter entered]
  exact ⟨_, _, rfl, rfl, rfl⟩

end Machine

namespace Engine

variable {due : Schedule} {k : Reentry} {m : Machine} {h : Heap} {x y : Ref} {a b : Int64} {n : Nat}

theorem does_numeric {p : Payload} {n : Numeric} (due : Schedule) (holds : h.payload? x = some p)
    (number : Numeric.ofPayload? p = some n) : Does due (numeric x) h (.ok n, h) := by
  refine (does_payload due holds).bind ?_
  rw [number]
  exact does_pure due n h

theorem does_onNumbers {α : Type} (due : Schedule) (left : h.payload? x = some (.int a))
    (right : h.payload? y = some (.int b)) (f : Numeric → Numeric → α) :
    Does due (onNumbers x y f) h (.ok (f (.int a) (.int b)), h) :=
  (does_numeric due left rfl).bind ((does_numeric due right rfl).bind (does_pure due _ h))

/-- An operator gives an exact result where it can be. -/
def Amounts (due : Schedule) (k : Reentry) (m : Machine) (name : String) (args : List Ref) (exact : Int)
    (rounded : Binary64) : Prop :=
  ∀ anyValue, ∃ n : Numeric, n.IsOrRounds exact rounded ∧
    m.Gives name args ((callOperator k name args anyValue).runUnder due m) n.payload

/-- What the operators for arithmetic come to for two integers. -/
structure Calculates (due : Schedule) (k : Reentry) (m : Machine) (x y : Ref) (a b : Int64) : Prop where
  /-- The sum. -/
  sum : Amounts due k m "op_add" [x, y] (a.toInt + b.toInt) (.add (.ofInt a.toInt) (.ofInt b.toInt))
  /-- The difference. -/
  difference : Amounts due k m "op_sub" [x, y] (a.toInt - b.toInt) (.sub (.ofInt a.toInt) (.ofInt b.toInt))
  /-- The product. -/
  product : Amounts due k m "op_mul" [x, y] (a.toInt * b.toInt) (.mul (.ofInt a.toInt) (.ofInt b.toInt))
  /-- The opposite. -/
  opposite : Amounts due k m "op_neg" [x] (-a.toInt) (.neg (.ofInt a.toInt))
  /-- The remainder, which is always an integer. -/
  remainder : b ≠ 0 → ∃ r : Int64, Integer.Remains a.toInt b.toInt r.toInt ∧ ∀ anyValue,
    m.Gives "op_mod" [x, y] ((callOperator k "op_mod" [x, y] anyValue).runUnder due m) (.int r)
  /-- There is none by zero. -/
  byZero : b = 0 → Cause.moduloByZero.kind = .zeroDivisionError ∧ ∀ anyValue,
    m.Fails "op_mod" [x, y] ((callOperator k "op_mod" [x, y] anyValue).runUnder due m) .moduloByZero

/-- An operator on two numbers, the first of which is an integer. -/
theorem runUnder_binary {name : String} {f : NumberFunction} {done : Except Interrupt Ref × Heap} (n : Nat)
    (serves : m.heap.Serves .int x) (number : m.heap.isInstance y Kind.num.ref)
    (declared : ⟨name, [Declaration.typed "self" .int, Declaration.typed "other" .num], .number f⟩ ∈
      Declaration.ofKind .int)
    (operands : Special.wrongOperands? name [x, y].length = none) (anyValue : Bool)
    (does : Does due (runNumber f [x, y]) m.heap done) :
    (callOperator (reentry (n + 1)) name [x, y] anyValue).runUnder due m = m.called name [x, y] done := by
  have fits : Declaration.Fits m.heap (Declaration.typed "other" .num) y := Declaration.fits_of_isInstance "other" number
  have takes : Declaration.Takes m.heap
      ⟨name, [Declaration.typed "self" .int, Declaration.typed "other" .num], .number f⟩ [x, y] :=
    ⟨by simp [Declaration.typed], .cons (fits_served "self" serves) (.cons fits .nil)⟩
  exact runUnder_operator_of_does serves declared operands takes anyValue does

/-- The operators that are exact where they can be, and rounded where they cannot. -/
theorem amounts_of_arith {name : String} (f : NumberFunction) {exact : Int → Int → Int}
    {rounded : Binary64 → Binary64 → Binary64} (due : Schedule) (n : Nat) (left : m.heap.payload? x = some (.int a))
    (right : m.heap.payload? y = some (.int b)) (serves : m.heap.Serves .int x)
    (number : m.heap.isInstance y Kind.num.ref) (w : m.heap.objects.WellFormed)
    (declared : ⟨name, [Declaration.typed "self" .int, Declaration.typed "other" .num], .number f⟩ ∈
      Declaration.ofKind .int)
    (operands : Special.wrongOperands? name [x, y].length = none)
    (body : runNumber f [x, y] = onNumbers x y
      (Numeric.arith (fun i j => Integer.ofInt? (exact i.toInt j.toInt)) rounded) >>= newNumeric) :
    Amounts due (reentry (n + 1)) m name [x, y] (exact a.toInt b.toInt)
      (rounded (.ofInt a.toInt) (.ofInt b.toInt)) := by
  intro anyValue
  refine ⟨_, Numeric.isOrRounds_orRounded _ _, Machine.gives_of_called w ?_⟩
  refine runUnder_binary n serves number declared operands anyValue ?_
  rw [body]
  exact (does_onNumbers due left right _).bind (does_new due _ m.heap)

/-- For all integers, of the Type `int` or one that inherits the operators. A sum, a difference, a product and an
opposite is an integer just if the exact result fits 64 bits, and then is that result; otherwise it is a rounded
number. A remainder by another integer than zero is always an integer, the one of the division that rounds down, and
nothing overflows on the way: the truncated quotient fits unless the least integer is divided by `-1`, where nothing
remains, and so does the sum that brings a remainder to the sign of the divisor. By zero there is no remainder. -/
theorem integer_arithmetic (due : Schedule) (n : Nat) (left : m.heap.payload? x = some (.int a))
    (right : m.heap.payload? y = some (.int b)) (serves : m.heap.Serves .int x)
    (number : m.heap.isInstance y Kind.num.ref) (w : m.heap.objects.WellFormed) :
    Calculates due (reentry (n + 1)) m x y a b ∧
    (b ≠ 0 → (Integer.rem? a b = none ↔ a.toInt = Integer.least ∧ b.toInt = -1) ∧
      ∀ r, Integer.rem? a b = some r → Integer.strays r b = true → (r + b).toInt = r.toInt + b.toInt) := by
  refine ⟨?_, fun ne => ⟨Integer.rem?_eq_none_iff ne, fun r => Integer.toInt_add_of_strays⟩⟩
  have modulo (anyValue : Bool) {done : Except Interrupt Ref × Heap}
      (does : Does due (runNumber .mod [x, y]) m.heap done) :
      (callOperator (reentry (n + 1)) "op_mod" [x, y] anyValue).runUnder due m = m.called "op_mod" [x, y] done :=
    runUnder_binary n serves number (by decide) rfl anyValue does
  constructor
  · exact amounts_of_arith .add due n left right serves number w (by decide) rfl rfl
  · exact amounts_of_arith .sub due n left right serves number w (by decide) rfl rfl
  · exact amounts_of_arith .mul due n left right serves number w (by decide) rfl rfl
  · intro anyValue
    refine ⟨_, Numeric.isOrRounds_orRounded _ _, Machine.gives_of_called w ?_⟩
    have takes : Declaration.Takes m.heap ⟨"op_neg", [Declaration.typed "self" .int], .number .neg⟩ [x] :=
      ⟨by simp [Declaration.typed], .cons (fits_served "self" serves) .nil⟩
    exact runUnder_operator_of_does serves (by decide) rfl takes anyValue
      ((does_numeric due left rfl).bind (does_new due _ m.heap))
  · intro ne
    refine ⟨Integer.floorMod a b, Integer.remains_floorMod ne, fun anyValue => Machine.gives_of_called w ?_⟩
    refine modulo anyValue ((does_onNumbers due left right _).bind ?_)
    rw [Numeric.mod, if_neg ne]
    exact does_new due _ m.heap
  · intro zero
    refine ⟨rfl, fun anyValue => Machine.fails_of_called ?_⟩
    refine modulo anyValue ((does_onNumbers due left right _).bind ?_)
    rw [Numeric.mod, if_pos zero]
    exact does_raise due _ m.heap

/-- The least integer and `-1`: the opposite does not fit, and nothing remains. -/
theorem integer_arithmetic_least :
    let m := (Machine.boot .unlimited .silent).afterSession ([.int Int64.minValue, .int (-1)].map .store)
    ∃ x y : Ref, m.heap.int? x = some Int64.minValue ∧ m.heap.int? y = some (-1) ∧
      (callOperator (reentry 1) "op_neg" [x] false).run m =
        m.called "op_neg" [x] (m.heap.stored (.num (.neg (.ofInt Integer.least)))) ∧
      (callOperator (reentry 1) "op_mod" [x, y] false).run m =
        m.called "op_mod" [x, y] (m.heap.stored (.int 0)) := by
  intro m
  have start := Machine.equipped_boot .unlimited .silent
  have orderly : (Machine.boot .unlimited .silent).heap.Orderly :=
    Machine.orderly_of_mem_passage ((Machine.boot .unlimited .silent).heap_afterSession_mem_passage [])
  have equipped : m.heap.Equipped :=
    start.of_adds (Machine.retains_of_stores orderly [.int Int64.minValue, .int (-1)]).adds
  obtain ⟨left, right, typeOf, number⟩ : m.heap.payload? ⟨142⟩ = some (.int Int64.minValue) ∧
      m.heap.payload? ⟨143⟩ = some (.int (-1)) ∧ m.heap.typeOf ⟨142⟩ = Kind.int.ref ∧
      m.heap.isInstance ⟨143⟩ Kind.num.ref := by
    decide +kernel
  obtain ⟨calculates, -⟩ := integer_arithmetic Heap.collectionDue 0 left right (equipped.serves typeOf) number
    equipped.objects
  refine ⟨⟨142⟩, ⟨143⟩, by rw [Heap.int?, left], by rw [Heap.int?, right], ?_, ?_⟩
  · obtain ⟨z, rounds, gives⟩ := calculates.opposite false
    have same : z = .num (.neg (.ofInt Integer.least)) := rounds
    rw [same] at gives
    exact gives.called
  · obtain ⟨r, remains, gives⟩ := calculates.remainder (by decide)
    have nothing : r = 0 := by
      have small := remains.small
      exact Int64.toInt_inj.mp (Int.natAbs_eq_zero.mp (Nat.lt_one_iff.mp small))
    rw [nothing] at gives
    exact (gives false).called

end Engine

end ObjectMachine
