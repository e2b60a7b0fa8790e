import Mathlib.Data.List.Basic
import ObjectMachine.Signature
/-!
Filling of parameters. Each parameter takes the argument in its place or else its default. The parameters of an
accepted list stand in three groups: required ones, then ones with defaults, then possibly one that collects;
the last two exclude each other. So a call fails for one of three reasons: too many arguments, a place that is
not served, or a collected value that does not fit.
-/
namespace ObjectMachine

/-- A value is an instance of the declared Type of a parameter, if it declares one. -/
def Param.Fits (isInstance : Ref → Ref → Bool) (p : Param) (value : Ref) : Prop :=
  ∀ type, p.type = some type → isInstance value type

namespace Signature

variable {isInstance : Ref → Ref → Bool} {p : Param} {params later : List Param} {args : List Ref}
  {values left : List Ref} {value : Ref} {e : Mismatch} {i : Nat}

/-! ### One parameter after another -/

/-- What a call offers to a parameter: the argument in its place, or else its default. -/
def offer (params : List Param) (args : List Ref) (i : Nat) : Option Ref :=
  args[i]?.or (params[i]?.bind Param.default)

/-- A call offers a value that fits to the parameter in a place. -/
def Served (isInstance : Ref → Ref → Bool) (params : List Param) (args : List Ref) (i : Nat) : Prop :=
  ∃ p value, params[i]? = some p ∧ offer params args i = some value ∧ p.Fits isInstance value

/-- A call offers nothing to the parameter in a place, or a value that does not fit, and this is why it is
refused. -/
inductive Unserved (isInstance : Ref → Ref → Bool) (params : List Param) (args : List Ref) (i : Nat) :
    Mismatch → Prop where
  | missing (p : Param) (place : params[i]? = some p) (nothing : offer params args i = none) :
    Unserved isInstance params args i (.missing p.name)
  | wrongType (p : Param) (type value : Ref) (place : params[i]? = some p)
    (offered : offer params args i = some value) (declared : p.type = some type)
    (foreign : isInstance value type = false) :
    Unserved isInstance params args i (.wrongType p.name type value)

theorem offer_zero (p : Param) (later : List Param) (args : List Ref) :
    offer (p :: later) args 0 = args.head?.or p.default := by
  rw [offer, List.getElem?_cons_zero, List.head?_eq_getElem?]
  rfl

theorem offer_succ (p : Param) (later : List Param) (args : List Ref) (i : Nat) :
    offer (p :: later) args (i + 1) = offer later args.tail i := by
  rw [offer, offer, List.getElem?_cons_succ, List.getElem?_tail]

theorem offer_of_lt (params : List Param) (h : i < args.length) : offer params args i = some args[i] := by
  rw [offer, List.getElem?_eq_getElem h, Option.some_or]

theorem served_zero (offered : args.head?.or p.default = some value) :
    Served isInstance (p :: later) args 0 ↔ p.Fits isInstance value := by
  rw [Served, offer_zero, offered]
  constructor
  · rintro ⟨q, v, place, same, fits⟩
    cases place
    cases same
    exact fits
  · intro fits
    exact ⟨p, value, rfl, rfl, fits⟩

theorem served_succ (p : Param) (later : List Param) :
    Served isInstance (p :: later) args (i + 1) ↔ Served isInstance later args.tail i := by
  simp only [Served, List.getElem?_cons_succ, offer_succ]

theorem Unserved.succ (unserved : Unserved isInstance later args.tail i e) (p : Param) :
    Unserved isInstance (p :: later) args (i + 1) e := by
  cases unserved with
  | missing q place nothing =>
    apply Unserved.missing
    · exact place
    · rw [offer_succ, nothing]
  | wrongType q type value place offered declared foreign =>
    have offered' : offer (p :: later) args (i + 1) = some value := by rw [offer_succ, offered]
    exact .wrongType q type value place offered' declared foreign

theorem checkType_cases (isInstance : Ref → Ref → Bool) (p : Param) (value : Ref) :
    (checkType isInstance p value = .ok () ∧ p.Fits isInstance value) ∨
      ∃ type, p.type = some type ∧ isInstance value type = false ∧
        checkType isInstance p value = .error (.wrongType p.name type value) := by
  rw [checkType]
  cases declared : p.type with
  | none => exact .inl ⟨rfl, fun type same => by rw [declared] at same; cases same⟩
  | some type =>
    cases instance? : isInstance value type with
    | true =>
      refine .inl ⟨by simp [instance?], fun type' same => ?_⟩
      rw [declared] at same
      cases same
      exact instance?
    | false => exact .inr ⟨type, rfl, instance?, by simp [instance?]⟩

/-- The first parameter takes what it is offered, and the others take what is left. -/
theorem fill_cons_of_offer (offered : args.head?.or p.default = some value) :
    fill isInstance (p :: later) args = (do
      checkType isInstance p value
      let found ← fill isInstance later args.tail
      return (value :: found.1, found.2)) := by
  cases args with
  | cons first rest =>
    cases offered
    rfl
  | nil =>
    have default : p.default = some value := offered
    simp only [fill, default]
    rfl

theorem fill_cons_of_missing (nothing : args.head?.or p.default = none) :
    fill isInstance (p :: later) args = .error (.missing p.name) := by
  cases args with
  | cons first rest => cases nothing
  | nil =>
    have default : p.default = none := nothing
    simp only [fill, default]
    rfl

/-- Parameters that do not collect are filled if all of them are served, each with what it is offered; the
arguments behind them are left. Otherwise the first one that is not served says why. -/
theorem fill_cases (isInstance : Ref → Ref → Bool) (params : List Param) (args : List Ref) :
    (∃ values, fill isInstance params args = .ok (values, args.drop params.length) ∧
      (∀ i < params.length, Served isInstance params args i) ∧ values.length = params.length ∧
        ∀ i < params.length, values[i]? = offer params args i) ∨
    ∃ i e, fill isInstance params args = .error e ∧ (∀ j < i, Served isInstance params args j) ∧
      Unserved isInstance params args i e := by
  -- by induction on the parameters; the places behind the first one are those of the rest
  induction params generalizing args with
  | nil =>
    left
    refine ⟨[], rfl, ?_, rfl, ?_⟩
    · intro i h
      exact absurd h (Nat.not_lt_zero i)
    · intro i h
      exact absurd h (Nat.not_lt_zero i)
  | cons p later ih =>
    cases offered : args.head?.or p.default with
    | none =>
      right
      refine ⟨0, .missing p.name, fill_cons_of_missing offered, ?_, ?_⟩
      · intro j h
        exact absurd h (Nat.not_lt_zero j)
      · apply Unserved.missing p rfl
        rw [offer_zero, offered]
    | some value =>
      rw [fill_cons_of_offer offered]
      rcases checkType_cases isInstance p value with ⟨checked, fits⟩ | ⟨type, declared, foreign, checked⟩
      · have first : Served isInstance (p :: later) args 0 := (served_zero offered).mpr fits
        rcases ih args.tail with ⟨values, filled, served, length, holds⟩ | ⟨i, e, refused, served, unserved⟩
        · left
          refine ⟨value :: values, ?_, ?_, ?_, ?_⟩
          · rw [checked, filled, List.drop_tail]
            rfl
          · intro i h
            cases i with
            | zero => exact first
            | succ i => exact (served_succ p later).mpr (served i (Nat.lt_of_succ_lt_succ h))
          · rw [List.length_cons, List.length_cons, length]
          · intro i h
            cases i with
            | zero => rw [offer_zero, offered, List.getElem?_cons_zero]
            | succ i => rw [offer_succ, List.getElem?_cons_succ, holds i (Nat.lt_of_succ_lt_succ h)]
        · right
          refine ⟨i + 1, e, by rw [checked, refused]; rfl, ?_, unserved.succ p⟩
          intro j h
          cases j with
          | zero => exact first
          | succ j => exact (served_succ p later).mpr (served j (Nat.lt_of_succ_lt_succ h))
      · right
        refine ⟨0, .wrongType p.name type value, by rw [checked]; rfl, ?_, ?_⟩
        · intro j h
          exact absurd h (Nat.not_lt_zero j)
        · apply Unserved.wrongType p type value rfl _ declared foreign
          rw [offer_zero, offered]

/-- A parameter that collects refuses the first value that does not fit. -/
theorem checkAll_cases (isInstance : Ref → Ref → Bool) (p : Param) (values : List Ref) :
    (checkAll isInstance p values = .ok () ∧ ∀ value ∈ values, p.Fits isInstance value) ∨
      ∃ type value, checkAll isInstance p values = .error (.wrongType p.name type value) ∧
        value ∈ values ∧ ¬ p.Fits isInstance value := by
  induction values with
  | nil => exact .inl ⟨rfl, List.forall_mem_nil _⟩
  | cons value later ih =>
    rcases checkType_cases isInstance p value with ⟨checked, fits⟩ | ⟨type, declared, foreign, checked⟩
    · rcases ih with ⟨all, fit⟩ | ⟨type, other, refused, mem, misfit⟩
      · left
        refine ⟨?_, List.forall_mem_cons.mpr ⟨fits, fit⟩⟩
        rw [checkAll, checked]
        exact all
      · right
        refine ⟨type, other, ?_, List.mem_cons_of_mem value mem, misfit⟩
        rw [checkAll, checked]
        exact refused
    · right
      refine ⟨type, value, ?_, List.mem_cons_self, ?_⟩
      · rw [checkAll, checked]
        rfl
      · intro fits
        have is := fits type declared
        rw [foreign] at is
        cases is

/-! ### The groups of an accepted list -/

/-- The parameters are required ones, then ones with defaults, then possibly one that collects; the last two
exclude each other. -/
structure Grouped (params required optional : List Param) (collecting : Option Param) : Prop where
  /-- The groups make up the list. -/
  split : params = required ++ optional ++ collecting.toList
  /-- Required parameters have no default. -/
  of_required : ∀ p ∈ required, p.rest = false ∧ p.default = none
  /-- The others have one. -/
  of_optional : ∀ p ∈ optional, p.rest = false ∧ p.default.isSome
  /-- The last one collects, and has no default. -/
  of_collecting : ∀ p ∈ collecting, p.rest ∧ p.default = none
  /-- None collects behind one with a default. -/
  apart : collecting.isSome → optional = []

/-- Behind a parameter with a default, all have defaults and none collects. -/
theorem optional_of_faultFrom {seen : List String} {last : String}
    (accepted : faultFrom seen (some last) params = none) : ∀ p ∈ params, p.rest = false ∧ p.default.isSome := by
  induction params generalizing seen last with
  | nil => exact List.forall_mem_nil _
  | cons p later ih =>
    rw [faultFrom] at accepted
    split at accepted
    · cases accepted
    split at accepted
    · split at accepted
      · cases accepted
      · simp at accepted
    rename_i positional
    split at accepted
    · rename_i default
      exact List.forall_mem_cons.mpr ⟨⟨by simpa using positional, default⟩, ih accepted⟩
    · cases accepted

theorem grouped_of_faultFrom {seen : List String} (accepted : faultFrom seen none params = none) :
    ∃ required optional collecting, Grouped params required optional collecting := by
  induction params generalizing seen with
  | nil =>
    refine ⟨[], [], none, rfl, List.forall_mem_nil _, List.forall_mem_nil _, ?_, fun _ => rfl⟩
    intro q same
    cases same
  | cons p later ih =>
    rw [faultFrom] at accepted
    split at accepted
    · cases accepted
    split at accepted
    · -- one that collects is the last one
      rename_i collects
      split at accepted
      · cases accepted
      rename_i last
      split at accepted
      · cases accepted
      rename_i plain
      have none_later : later = [] := by simpa using last
      have no_default : p.default = none := by simpa using plain
      subst none_later
      refine ⟨[], [], some p, rfl, List.forall_mem_nil _, List.forall_mem_nil _, ?_, fun _ => rfl⟩
      intro q same
      cases same
      exact ⟨collects, no_default⟩
    rename_i positional
    have places : p.rest = false := by simpa using positional
    split at accepted
    · rename_i default
      have rest := optional_of_faultFrom accepted
      refine ⟨[], p :: later, none, by simp, List.forall_mem_nil _,
        List.forall_mem_cons.mpr ⟨⟨places, default⟩, rest⟩, ?_, fun collects => by cases collects⟩
      intro q same
      cases same
    · rename_i default
      have required : p.default = none := by simpa using default
      obtain ⟨first, optional, collecting, grouped⟩ := ih accepted
      refine ⟨p :: first, optional, collecting, ?_, ?_, grouped.of_optional, grouped.of_collecting,
        grouped.apart⟩
      · rw [grouped.split]
        rfl
      · exact List.forall_mem_cons.mpr ⟨⟨places, required⟩, grouped.of_required⟩

/-- What a call with no more arguments than allowed goes on with: the places are filled, and what is left is
collected. -/
def fillAndCollect (isInstance : Ref → Ref → Bool) (places : List Param) (collecting : Option Param)
    (args : List Ref) : Except Mismatch Matched := do
  let found ← fill isInstance places args
  match collecting with
  | some p => do
    checkAll isInstance p found.2
    return { fixed := found.1, rest := some found.2 }
  | none => return { fixed := found.1, rest := none }

namespace Grouped

variable {required optional : List Param} {collecting : Option Param} {s : Signature}

theorem rest_of_mem_places (grouped : Grouped params required optional collecting) :
    ∀ p ∈ required ++ optional, p.rest = false :=
  List.forall_mem_append.mpr ⟨fun p mem => (grouped.of_required p mem).1, fun p mem => (grouped.of_optional p mem).1⟩

theorem filter_places (grouped : Grouped params required optional collecting) :
    params.filter (fun p => !p.rest) = required ++ optional := by
  have kept : (required ++ optional).filter (fun p => !p.rest) = required ++ optional := by
    apply List.filter_eq_self.mpr
    intro p mem
    rw [grouped.rest_of_mem_places p mem, Bool.not_false]
  have dropped : collecting.toList.filter (fun p => !p.rest) = [] := by
    apply List.filter_eq_nil_iff.mpr
    intro p mem
    rw [(grouped.of_collecting p (Option.mem_toList.mp mem)).1]
    decide
  rw [grouped.split, List.filter_append, kept, dropped, List.append_nil]

theorem filter_rest (grouped : Grouped params required optional collecting) :
    params.filter Param.rest = collecting.toList := by
  have dropped : (required ++ optional).filter Param.rest = [] := by
    apply List.filter_eq_nil_iff.mpr
    intro p mem
    rw [grouped.rest_of_mem_places p mem]
    decide
  have kept : collecting.toList.filter Param.rest = collecting.toList := by
    apply List.filter_eq_self.mpr
    intro p mem
    exact (grouped.of_collecting p (Option.mem_toList.mp mem)).1
  rw [grouped.split, List.filter_append, kept, dropped, List.nil_append]

/-- The parameter that collects is the one of the last group. -/
theorem restParam? (grouped : Grouped s.params required optional collecting) : s.restParam? = collecting := by
  rw [Signature.restParam?, grouped.split]
  cases collecting with
  | some p =>
    have collects := (grouped.of_collecting p rfl).1
    simp [collects]
  | none =>
    rw [Option.toList_none, List.append_nil]
    cases last : (required ++ optional).getLast? with
    | none => rfl
    | some p =>
      have places := grouped.rest_of_mem_places p (List.mem_of_getLast? last)
      simp [places]

theorem hasRest (grouped : Grouped s.params required optional collecting) : s.hasRest = collecting.isSome := by
  rw [Signature.hasRest, grouped.restParam?]

theorem positional (grouped : Grouped s.params required optional collecting) :
    s.positional = required ++ optional := by
  rw [Signature.positional, grouped.hasRest, grouped.split]
  cases collecting with
  | some p => simp
  | none => simp

theorem requiredCount (grouped : Grouped s.params required optional collecting) :
    s.requiredCount = required.length := by
  have all : required.countP (fun p => !p.rest && p.default.isNone) = required.length := by
    apply List.countP_eq_length.mpr
    intro p mem
    simp [grouped.of_required p mem]
  have optionals : optional.countP (fun p => !p.rest && p.default.isNone) = 0 := by
    apply List.countP_eq_zero.mpr
    intro p mem
    obtain ⟨places, default⟩ := grouped.of_optional p mem
    simp [Option.isSome_iff_ne_none.mp default]
  have last : collecting.toList.countP (fun p => !p.rest && p.default.isNone) = 0 := by
    apply List.countP_eq_zero.mpr
    intro p mem
    simp [(grouped.of_collecting p (Option.mem_toList.mp mem)).1]
  rw [Signature.requiredCount, grouped.split, List.countP_append, List.countP_append, all, optionals, last,
    Nat.add_zero]

theorem accepts_iff (grouped : Grouped s.params required optional collecting) (count : Nat) :
    s.accepts count ↔
      required.length ≤ count ∧ (collecting.isSome ∨ count ≤ (required ++ optional).length) := by
  rw [Signature.accepts, grouped.requiredCount, grouped.hasRest, grouped.positional]
  simp

/-- A parameter is offered nothing exactly if it is a required one behind the last argument. -/
theorem offer_eq_none_iff (grouped : Grouped params required optional collecting)
    (place : i < (required ++ optional).length) :
    offer (required ++ optional) args i = none ↔ args.length ≤ i ∧ i < required.length := by
  rw [offer, Option.or_eq_none_iff, List.getElem?_eq_none_iff]
  apply and_congr_right
  intro behind
  by_cases isRequired : i < required.length
  · have default := (grouped.of_required _ (List.getElem_mem isRequired)).2
    rw [List.getElem?_append_left isRequired, List.getElem?_eq_getElem isRequired, Option.bind_some, default]
    simp [isRequired]
  · have inOptional : i - required.length < optional.length := by
      rw [List.length_append] at place
      omega
    have default := (grouped.of_optional _ (List.getElem_mem inOptional)).2
    rw [List.getElem?_append_right (Nat.le_of_not_lt isRequired), List.getElem?_eq_getElem inOptional,
      Option.bind_some]
    simp [isRequired, Option.isSome_iff_ne_none.mp default]

/-- A call is refused because it has too many arguments, because a parameter is not served, or because the one
that collects is given a value that does not fit. Otherwise each parameter gets what it is offered, and the
arguments behind are collected. -/
theorem matchArgs_cases (grouped : Grouped s.params required optional collecting)
    (isInstance : Ref → Ref → Bool) (args : List Ref) (bound : Nat) :
    let places := required ++ optional
    (collecting = none ∧ places.length < args.length ∧ s.matchArgs isInstance args bound =
      .error (.tooMany (places.length - bound) (args.length - bound))) ∨
    (collecting = none → args.length ≤ places.length) ∧
      ((∃ i e, s.matchArgs isInstance args bound = .error e ∧
          (∀ j < i, Served isInstance places args j) ∧ Unserved isInstance places args i e) ∨
        (∀ i < places.length, Served isInstance places args i) ∧
          ((∃ p type value, collecting = some p ∧
              s.matchArgs isInstance args bound = .error (.wrongType p.name type value) ∧
              value ∈ args.drop places.length ∧ ¬ p.Fits isInstance value) ∨
            ∃ m, s.matchArgs isInstance args bound = .ok m ∧
              (∀ p ∈ collecting, ∀ value ∈ args.drop places.length, p.Fits isInstance value) ∧
              m.fixed.length = places.length ∧ (∀ i < places.length, m.fixed[i]? = offer places args i) ∧
              m.rest = collecting.map fun _ => args.drop places.length)) := by
  intro places
  have positional : s.positional = places := grouped.positional
  have restParam := grouped.restParam?
  have hasRest := grouped.hasRest
  by_cases tooMany : collecting = none ∧ places.length < args.length
  · left
    refine ⟨tooMany.1, tooMany.2, ?_⟩
    rw [matchArgs, positional, hasRest, tooMany.1]
    simp [tooMany.2]
    rfl
  right
  have fits : collecting = none → args.length ≤ places.length := by
    intro none
    by_contra more
    exact tooMany ⟨none, Nat.lt_of_not_le more⟩
  -- the number of arguments fits, so what remains is to fill and to collect
  have goesOn : s.matchArgs isInstance args bound = fillAndCollect isInstance places collecting args := by
    rw [matchArgs, positional, hasRest, restParam]
    have few : (decide (places.length < args.length) && !collecting.isSome) = false := by
      cases collecting with
      | some p => simp
      | none => simpa using fits rfl
    rw [few]
    rfl
  refine ⟨fits, ?_⟩
  rcases fill_cases isInstance places args with
    ⟨values, filled, served, length, holds⟩ | ⟨i, e, refused, served, unserved⟩
  · right
    refine ⟨served, ?_⟩
    cases collecting with
    | none =>
      right
      refine ⟨⟨values, none⟩, ?_, ?_, length, holds, rfl⟩
      · rw [goesOn, fillAndCollect, filled]
        rfl
      · intro p same
        cases same
    | some p =>
      rcases checkAll_cases isInstance p (args.drop places.length) with
        ⟨checked, fit⟩ | ⟨type, value, refused, mem, misfit⟩
      · right
        refine ⟨⟨values, some (args.drop places.length)⟩, ?_, ?_, length, holds, rfl⟩
        · rw [goesOn, fillAndCollect, filled]
          simp only [bind, Except.bind, checked]
          rfl
        · intro q same
          cases same
          exact fit
      · left
        refine ⟨p, type, value, rfl, ?_, mem, misfit⟩
        rw [goesOn, fillAndCollect, filled]
        simp only [bind, Except.bind, refused]
  · left
    refine ⟨i, e, ?_, served, unserved⟩
    rw [goesOn, fillAndCollect, refused]
    rfl

end Grouped

theorem grouped_of_ofParams {s : Signature} (accepted : ofParams params = .ok s) :
    s.params = params ∧ ∃ required optional collecting, Grouped params required optional collecting := by
  rw [ofParams] at accepted
  split at accepted
  · cases accepted
  · rename_i faultless
    cases accepted
    exact ⟨rfl, grouped_of_faultFrom faultless⟩

/-- What fills the places, followed by what is left, is the arguments followed by the defaults of the places
that got none. -/
theorem map_some_values (length : values.length = params.length)
    (holds : ∀ i < params.length, values[i]? = offer params args i) :
    (values ++ args.drop params.length).map some = args.map some ++ (params.drop args.length).map Param.default := by
  apply List.ext_getElem?
  intro i
  rw [List.getElem?_map, List.getElem?_append, List.getElem?_append, List.getElem?_map, List.getElem?_map,
    List.getElem?_drop, List.getElem?_drop, List.length_map, length]
  by_cases place : i < params.length
  · have value : values[i]? = some values[i] := List.getElem?_eq_getElem (length ▸ place)
    have offered : offer params args i = some values[i] := (holds i place).symm.trans value
    rw [if_pos place, value]
    by_cases given : i < args.length
    · rw [offer_of_lt params given] at offered
      rw [if_pos given, List.getElem?_eq_getElem given, offered]
    · have behind : args.length ≤ i := Nat.le_of_not_lt given
      have there : args.length + (i - args.length) = i := by omega
      rw [offer, List.getElem?_eq_none behind, Option.none_or, List.getElem?_eq_getElem place,
        Option.bind_some] at offered
      rw [if_neg given, there, List.getElem?_eq_getElem place, Option.map_some, Option.map_some, offered]
  · have there : params.length + (i - params.length) = i := by omega
    rw [if_neg place, there]
    by_cases given : i < args.length
    · rw [if_pos given]
    · have more : params.length ≤ args.length + (i - args.length) := by omega
      rw [if_neg given, List.getElem?_eq_none (Nat.le_of_not_lt given), List.getElem?_eq_none more]
      rfl

end Signature

end ObjectMachine
