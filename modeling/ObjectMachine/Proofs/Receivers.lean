import ObjectMachine.Proofs.Contracts
import ObjectMachine.Proofs.Filling
/-!
Receivers. When the arguments of a built-in function were accepted, they hold the kinds of data that
the function reads, because its parameters are declared with these kinds.
-/
namespace ObjectMachine

namespace Heap

/-- Arguments hold the kinds of data that are needed. -/
def Supplies (h : Heap) : List (Option Kind) → List Ref → Prop
  | [], _ => True
  | _ :: _, [] => False
  | none :: needs, _ :: args => h.Supplies needs args
  | some k :: needs, r :: args => h.Holds r k ∧ h.Supplies needs args

theorem Supplies.append {h : Heap} {needs : List (Option Kind)} {args : List Ref}
    (supplies : h.Supplies needs args) (more : List Ref) : h.Supplies needs (args ++ more) := by
  induction needs generalizing args with
  | nil => trivial
  | cons need needs ih =>
    cases args with
    | nil => cases supplies
    | cons r args =>
      cases need with
      | none => exact ih supplies
      | some k => exact ⟨supplies.1, ih supplies.2⟩

end Heap

/-- If the function is a built-in one, the arguments hold what it reads. -/
def Prepared.Supplied (h : Heap) (p : Prepared) : Prop :=
  match p.function.body with
  | .native n => h.Supplies n.needs p.args.toList
  | .code .. => True

namespace Signature

/-- No need is left to the parameter that collects. -/
theorem declares_positional {s : Signature} {needs : List (Option Kind)}
    (declared : declares needs s.params) : declares needs s.positional := by
  obtain ⟨params⟩ := s
  simp only [positional]
  split
  · rename_i collects
    obtain ⟨last, isLast, rest⟩ : ∃ last, params.getLast? = some last ∧ last.rest := by
      simp only [hasRest, restParam?] at collects
      grind
    clear collects
    induction needs generalizing params with
    | nil => rfl
    | cons need needs ih =>
      cases params with
      | nil => cases declared
      | cons p params =>
        simp only [declares, Bool.and_eq_true, Bool.not_eq_true'] at declared
        cases params with
        | nil =>
          simp only [List.getLast?_singleton, Option.some.injEq] at isLast
          rw [← isLast, declared.1.1] at rest
          cases rest
        | cons p' params =>
          simp only [List.dropLast_cons_cons, declares, Bool.and_eq_true, Bool.not_eq_true']
          exact ⟨declared.1, ih _ declared.2 (by simpa using isLast)⟩
  · exact declared

/-- The first parameter to be filled gets a value of its declared Type. -/
theorem fill_cons {isInstance : Ref → Ref → Bool} {p : Param} {later : List Param}
    {args values left : List Ref} (filled : fill isInstance (p :: later) args = .ok (values, left)) :
    ∃ value values' rest, values = value :: values' ∧ p.Fits isInstance value ∧
      fill isInstance later rest = .ok (values', left) := by
  cases offered : args.head?.or p.default with
  | none =>
    rw [fill_cons_of_missing offered] at filled
    cases filled
  | some value =>
    rw [fill_cons_of_offer offered] at filled
    rcases checkType_cases isInstance p value with ⟨checked, fits⟩ | ⟨type, -, -, refused⟩
    · cases filledLater : fill isInstance later args.tail with
      | error e =>
        rw [checked, filledLater] at filled
        cases filled
      | ok found =>
        rw [checked, filledLater] at filled
        cases filled
        exact ⟨value, found.1, args.tail, rfl, fits, filledLater⟩
    · rw [refused] at filled
      cases filled

/-- Filled parameters hold what they are declared with. -/
theorem supplies_of_fill {h : Heap} (agrees : h.Agrees) {needs : List (Option Kind)}
    {params : List Param} {args values left : List Ref} (declared : declares needs params)
    (data : ∀ k, some k ∈ needs → k ≠ .object)
    (filled : fill h.isInstance params args = .ok (values, left)) : h.Supplies needs values := by
  induction needs generalizing params args values left with
  | nil => trivial
  | cons need needs ih =>
    cases params with
    | nil => cases declared
    | cons p params =>
      simp only [declares, Bool.and_eq_true, Bool.not_eq_true'] at declared
      obtain ⟨value, values', rest, rfl, checked, filledLater⟩ := fill_cons filled
      have later := ih declared.2 (fun k mem => data k (List.mem_cons_of_mem _ mem)) filledLater
      cases need with
      | none => exact later
      | some k =>
        obtain ⟨own, -, type⟩ := List.any_eq_true.mp declared.1.2
        simp only [Bool.and_eq_true, beq_iff_eq, List.contains_iff_mem] at type
        have refines : own ≠ .object := by
          rintro rfl
          exact data k List.mem_cons_self (List.mem_singleton.mp type.2)
        have holds := agrees.holds_of_isInstance refines (checked _ type.1)
        exact ⟨holds.refines type.2, later⟩

/-- Arguments that were accepted hold what the parameters are declared with. -/
theorem supplies_of_matchArgs {h : Heap} (agrees : h.Agrees) {s : Signature}
    {needs : List (Option Kind)} {args : List Ref} {bound : Nat} {matched : Matched}
    (declared : declares needs s.params) (data : ∀ k, some k ∈ needs → k ≠ .object)
    (accepted : s.matchArgs h.isInstance args bound = .ok matched) :
    h.Supplies needs matched.toList := by
  have positional := declares_positional declared
  simp only [matchArgs, bind, Except.bind] at accepted
  split at accepted
  · cases accepted
  split at accepted
  · cases accepted
  rename_i found filled
  have supplies := supplies_of_fill agrees positional data filled
  split at accepted
  · split at accepted
    · cases accepted
    · cases accepted
      exact supplies.append _
  · cases accepted
    exact supplies.append _

end Signature

theorem Native.ne_object_of_mem_needs (n : Native) (k : Kind) (mem : some k ∈ n.needs) :
    k ≠ .object := by
  rintro rfl
  revert mem
  cases n with
  | number f => cases f <;> decide
  | truth f => cases f <;> decide
  | text f => cases f <;> decide
  | list f => cases f <;> decide
  | map f => cases f <;> decide
  | range f => cases f <;> decide
  | object f => cases f <;> decide
  | global f => cases f <;> decide

/-- A call with arguments that were accepted is supplied. -/
theorem Heap.Sound.supplied {h : Heap} (sound : h.Sound) {callee : Ref} {args : List Ref}
    {p : Prepared} (accepted : h.prepare callee args = .ok (some p)) : p.Supplied h := by
  simp only [prepare] at accepted
  split at accepted
  · rename_i f found
    split at accepted
    · rename_i matched fits
      cases accepted
      obtain ⟨o, at_callee, function⟩ := Option.map_eq_some_iff.mp found
      have declared := sound.reliable callee o at_callee
      rw [function] at declared
      simp only [Prepared.Supplied]
      simp only [Payload.Relies, Function.isDeclared] at declared
      split
      · rename_i n native
        rw [native] at declared
        exact Signature.supplies_of_matchArgs sound.agrees declared n.ne_object_of_mem_needs fits
      · trivial
    · cases accepted
  · cases accepted

/-- What is chosen for an operator fits the operands. -/
theorem Heap.exists_of_choose {h : Heap} {name : String} {args types : List Ref} {p : Prepared}
    (chosen : h.choose name args types = .ok (.invoke p)) :
    ∃ method, h.prepare method args = .ok (some p) := by
  induction types with
  | nil => cases chosen
  | cons type later ih =>
    have next {e : ErrorBody}
        (chosen : (h.choose name args later).mapError (e :: ·) = .ok (.invoke p)) :
        ∃ method, h.prepare method args = .ok (some p) := by
      cases choice : h.choose name args later with
      | error causes => simp [choice, Except.mapError] at chosen
      | ok choice' =>
        simp only [choice, Except.mapError, Except.ok.injEq] at chosen
        exact ih (chosen ▸ choice)
    simp only [Heap.choose] at chosen
    split at chosen
    · exact next chosen
    · split at chosen
      · rename_i accepted
        cases chosen
        exact ⟨_, accepted⟩
      · cases chosen
      · exact next chosen

/-- A function that is chosen for an operator is supplied. -/
theorem Heap.Sound.supplied_of_choose {h : Heap} (sound : h.Sound) {name : String}
    {args types : List Ref} {p : Prepared} (chosen : h.choose name args types = .ok (.invoke p)) :
    p.Supplied h := by
  obtain ⟨method, accepted⟩ := exists_of_choose chosen
  exact sound.supplied accepted

/-! ### Where arguments come from -/

namespace Signature

variable {isInstance : Ref → Ref → Bool}

/-- Parameters are filled with the arguments that are given, and then with default values. -/
theorem values_of_fill {params : List Param} {args values left : List Ref}
    (filled : fill isInstance params args = .ok (values, left)) :
    (args.length ≤ params.length → left = []) ∧
      ∃ more, values ++ left = args ++ more ∧ ∀ value ∈ more, ∃ p ∈ params, p.default = some value := by
  induction params generalizing args values left with
  | nil =>
    cases filled
    refine ⟨fun short => List.eq_nil_of_length_eq_zero (Nat.le_zero.mp short), [], ?_, ?_⟩
    · exact (List.append_nil _).symm
    · exact List.forall_mem_nil _
  | cons p later ih =>
    have rest {value : Ref} {given : List Ref}
        (filled : (do
          checkType isInstance p value
          let found ← fill isInstance later given
          return (value :: found.1, found.2)) = Except.ok (values, left)) :
        ∃ values', values = value :: values' ∧ fill isInstance later given = .ok (values', left) := by
      simp only [bind, Except.bind] at filled
      split at filled
      · cases filled
      split at filled
      · cases filled
      rename_i found filledLater
      cases filled
      exact ⟨found.1, rfl, filledLater⟩
    cases args with
    | cons value given =>
      obtain ⟨values', rfl, filledLater⟩ := rest filled
      obtain ⟨short, more, all, defaults⟩ := ih filledLater
      refine ⟨fun fits => short (Nat.le_of_succ_le_succ fits), more, congrArg _ all, fun g mem => ?_⟩
      obtain ⟨p', mem', default⟩ := defaults g mem
      exact ⟨p', List.mem_cons_of_mem p mem', default⟩
    | nil =>
      cases default : p.default with
      | none =>
        simp only [fill, default] at filled
        cases filled
      | some value =>
        simp only [fill, default] at filled
        obtain ⟨values', rfl, filledLater⟩ := rest filled
        obtain ⟨short, more, all, defaults⟩ := ih filledLater
        refine ⟨fun _ => short (Nat.zero_le _), value :: more, congrArg _ all, ?_⟩
        refine List.forall_mem_cons.mpr ⟨⟨p, List.mem_cons_self, default⟩, fun g mem => ?_⟩
        obtain ⟨p', mem', default'⟩ := defaults g mem
        exact ⟨p', List.mem_cons_of_mem p mem', default'⟩

/-- Arguments that were put in their places are those that were given, and then default values. -/
theorem toList_of_matchArgs {s : Signature} {args : List Ref} {bound : Nat} {matched : Matched}
    (accepted : s.matchArgs isInstance args bound = .ok matched) :
    ∃ more, matched.toList = args ++ more ∧ ∀ value ∈ more, ∃ p ∈ s.params, p.default = some value := by
  have positional : ∀ p ∈ s.positional, p ∈ s.params := by
    intro p mem
    rw [Signature.positional] at mem
    split at mem
    · exact List.dropLast_subset _ mem
    · exact mem
  simp only [matchArgs, bind, Except.bind] at accepted
  split at accepted
  · cases accepted
  rename_i enough
  split at accepted
  · cases accepted
  rename_i found filled
  obtain ⟨short, more, all, defaults⟩ := values_of_fill filled
  have ofParams : ∀ value ∈ more, ∃ p ∈ s.params, p.default = some value := by
    intro value mem
    obtain ⟨p, mem', default⟩ := defaults value mem
    exact ⟨p, positional p mem', default⟩
  split at accepted
  · split at accepted
    · cases accepted
    · cases accepted
      exact ⟨more, all, ofParams⟩
  · rename_i none
    cases accepted
    have noRest : s.hasRest = false := by rw [hasRest, none, Option.isSome_none]
    have fits : args.length ≤ s.positional.length := by
      simpa [noRest] using enough
    rw [short fits] at all
    exact ⟨more, all, ofParams⟩

end Signature

end ObjectMachine
