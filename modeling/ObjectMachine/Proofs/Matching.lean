import Mathlib.Data.Option.Basic
import ObjectMachine.Engine.Calls
import ObjectMachine.Heap.Boot
import ObjectMachine.Proofs.Filling
/-!
Matching of arguments. A call is served exactly if its number of arguments fits and each value is an instance of
the Type that its parameter declares, and a function with bound arguments is matched like the function itself
with these arguments in front.
-/
namespace ObjectMachine

/-! ### Bound arguments -/

namespace Mismatch

/-- The kind of error that a mismatch raises. -/
def kind : Mismatch → ErrorKind
  | tooMany .. | missing _ => .argumentCountError
  | wrongType .. => .typeError

/-- The mismatch as it is reported when so many more of the arguments were bound. -/
def hide (more : Nat) : Mismatch → Mismatch
  | tooMany expected actual => tooMany (expected - more) (actual - more)
  | other => other

end Mismatch

theorem Heap.type_mismatchError (h : Heap) (function : String) (e : Mismatch) :
    (h.mismatchError function e).type = .builtin e.kind := by
  cases e <;> rfl

namespace Signature

variable {isInstance : Ref → Ref → Bool} {params : List Param} {args : List Ref}

theorem Unserved.hide {i : Nat} {e : Mismatch} (unserved : Unserved isInstance params args i e) (more : Nat) :
    e.hide more = e := by
  cases unserved <;> rfl

/-- Bound arguments are counted only where too many are reported. -/
theorem matchArgs_add_bound (s : Signature) (isInstance : Ref → Ref → Bool) (args : List Ref)
    (bound more : Nat) : s.matchArgs isInstance args (bound + more) =
      (s.matchArgs isInstance args bound).mapError (Mismatch.hide more) := by
  rw [matchArgs, matchArgs]
  cases tooMany : decide (s.positional.length < args.length) && !s.hasRest with
  | true =>
    show Except.error (Mismatch.tooMany _ _) = Except.error (Mismatch.tooMany _ _)
    rw [Nat.sub_add_eq, Nat.sub_add_eq]
  | false =>
    simp only [Bool.false_eq_true, ↓reduceIte, bind, Except.bind, pure, Except.pure]
    rcases fill_cases isInstance s.positional args with ⟨values, filled, -⟩ | ⟨i, e, refused, -, unserved⟩
    · rw [filled]
      cases s.restParam? with
      | none => rfl
      | some p =>
        rcases checkAll_cases isInstance p (args.drop s.positional.length) with
          ⟨checked, -⟩ | ⟨type, value, refused, -⟩
        · simp only [checked]
          rfl
        · simp only [refused]
          rfl
    · rw [refused]
      show Except.error e = Except.error (e.hide more)
      rw [unserved.hide more]

end Signature

namespace Function

variable {f g : Function} {xs : List Ref}

/-- Successful binds lengthen the list of bound arguments, and change nothing else. -/
theorem eq_of_binds (binds : xs.foldlM Function.bind f = .ok g) : g = { f with bound := f.bound ++ xs } := by
  induction xs generalizing f with
  | nil =>
    cases binds
    rw [List.append_nil]
  | cons x later ih =>
    rw [List.foldlM_cons] at binds
    cases first : f.bind x with
    | error cause =>
      rw [first] at binds
      cases binds
    | ok f₁ =>
      rw [first] at binds
      have rest := ih binds
      rw [Function.bind] at first
      split at first
      · cases first
      · cases first
        rw [rest, List.append_assoc]
        rfl

theorem bind_eq_error_iff {this : Ref} : (∃ cause, f.bind this = .error cause) ↔ f.visibleParams = [] := by
  rw [Function.bind]
  cases visible : f.visibleParams with
  | nil => exact ⟨fun _ => rfl, fun _ => ⟨.unbindable f.name, rfl⟩⟩
  | cons p later =>
    constructor
    · rintro ⟨cause, refused⟩
      cases refused
    · intro none
      cases none

end Function

namespace Heap

variable {h : Heap} {c : Ref} {f : Function}

/-- What becomes of the call of a function, by the result of matching its arguments. -/
def prepared (h : Heap) (f : Function) : Except Mismatch Matched → Except Raised (Option Prepared)
  | .ok matched => .ok (some ⟨f, matched⟩)
  | .error e => .error (h.mismatchError f.name e)

theorem prepare_function (found : h.payload? c = some (.function f)) (args : List Ref) :
    h.prepare c args =
      h.prepared f (f.signature.matchArgs h.isInstance (f.bound ++ args) f.bound.length) := by
  rw [prepare, found]
  dsimp only
  cases f.signature.matchArgs h.isInstance (f.bound ++ args) f.bound.length <;> rfl

end Heap

/-! ### Accepted lists -/

namespace Signature.Grouped

variable {required optional : List Param} {collecting : Option Param} {s : Signature}
  {isInstance : Ref → Ref → Bool} {args : List Ref} {bound i : Nat}

/-- With too few arguments, the place behind the last one is not served. -/
theorem not_served_behind (grouped : Grouped s.params required optional collecting)
    (isInstance : Ref → Ref → Bool) (few : args.length < required.length) : ¬ Served isInstance (required ++ optional) args args.length := by
  rintro ⟨p, value, place, offered, -⟩
  have inPlaces : args.length < (required ++ optional).length := by
    rw [List.length_append]
    omega
  have nothing := (grouped.offer_eq_none_iff inPlaces).mpr ⟨Nat.le_refl _, few⟩
  rw [nothing] at offered
  cases offered

/-- A call is served exactly if its number of arguments fits, and all values that it gives or omits. -/
theorem exists_matched_iff (grouped : Grouped s.params required optional collecting)
    (isInstance : Ref → Ref → Bool) (args : List Ref) (bound : Nat) :
    (∃ m, s.matchArgs isInstance args bound = .ok m) ↔
      s.accepts args.length ∧
      (∀ (i : Nat) p value, (required ++ optional)[i]? = some p →
        offer (required ++ optional) args i = some value → p.Fits isInstance value) ∧
      ∀ p ∈ collecting, ∀ value ∈ args.drop (required ++ optional).length, p.Fits isInstance value := by
  rw [grouped.accepts_iff]
  constructor
  · rintro ⟨m, accepted⟩
    rcases grouped.matchArgs_cases isInstance args bound with
      ⟨-, -, refused⟩ | ⟨fits, ⟨i, e, refused, -, -⟩ | ⟨served, ⟨p, type, value, -, refused, -, -⟩ |
        ⟨m', -, fit, -⟩⟩⟩
    · rw [refused] at accepted
      cases accepted
    · rw [refused] at accepted
      cases accepted
    · rw [refused] at accepted
      cases accepted
    · refine ⟨⟨?_, ?_⟩, ?_, fit⟩
      · by_contra few
        have short : args.length < required.length := Nat.lt_of_not_le few
        apply grouped.not_served_behind isInstance short
        apply served
        rw [List.length_append]
        omega
      · cases collecting with
        | none => exact .inr (fits rfl)
        | some p => exact .inl rfl
      · intro i p value place offered
        obtain ⟨inPlaces, -⟩ := List.getElem?_eq_some_iff.mp place
        obtain ⟨q, v, place', offered', fits⟩ := served i inPlaces
        rw [place] at place'
        rw [offered] at offered'
        cases place'
        cases offered'
        exact fits
  · rintro ⟨⟨enough, few⟩, fit, fitRest⟩
    rcases grouped.matchArgs_cases isInstance args bound with
      ⟨none, more, -⟩ | ⟨-, ⟨i, e, -, -, unserved⟩ | ⟨-, ⟨p, type, value, collects, -, mem, misfit⟩ |
        ⟨m, accepted, -⟩⟩⟩
    · rcases few with collects | few
      · rw [none] at collects
        cases collects
      · exact absurd more (Nat.not_lt_of_le few)
    · cases unserved with
      | missing p place nothing =>
        obtain ⟨inPlaces, -⟩ := List.getElem?_eq_some_iff.mp place
        have behind := (grouped.offer_eq_none_iff inPlaces).mp nothing
        omega
      | wrongType p type value place offered declared foreign =>
        have is := fit i p value place offered type declared
        rw [foreign] at is
        cases is
    · exact absurd (fitRest p collects value mem) misfit
    · exact ⟨m, accepted⟩

/-- With too few arguments, the first one that does not fit is reported, or else the first parameter that got
none. -/
theorem matchArgs_of_few (grouped : Grouped s.params required optional collecting)
    (isInstance : Ref → Ref → Bool) (bound : Nat) (few : args.length < required.length) :
    ∃ i e, s.matchArgs isInstance args bound = .error e ∧
      (∀ j < i, Served isInstance (required ++ optional) args j) ∧
      ((i = args.length ∧ ∃ p, (required ++ optional)[i]? = some p ∧ e = .missing p.name) ∨
        ∃ p type value, (required ++ optional)[i]? = some p ∧ args[i]? = some value ∧ p.type = some type ∧
          isInstance value type = false ∧ e = .wrongType p.name type value) := by
  have behind : args.length < (required ++ optional).length := by
    rw [List.length_append]
    omega
  have unserved_behind := grouped.not_served_behind isInstance few
  rcases grouped.matchArgs_cases isInstance args bound with
    ⟨-, more, -⟩ | ⟨-, ⟨i, e, refused, served, unserved⟩ | ⟨served, -⟩⟩
  · exact absurd more (Nat.lt_asymm behind)
  · have upTo : i ≤ args.length := by
      by_contra later
      exact unserved_behind (served _ (Nat.lt_of_not_le later))
    refine ⟨i, e, refused, served, ?_⟩
    cases unserved with
    | missing p place nothing =>
      obtain ⟨inPlaces, -⟩ := List.getElem?_eq_some_iff.mp place
      have none := (grouped.offer_eq_none_iff inPlaces).mp nothing
      exact .inl ⟨Nat.le_antisymm upTo none.1, p, place, rfl⟩
    | wrongType p type value place offered declared foreign =>
      right
      have given : i < args.length := by
        apply Nat.lt_of_le_of_ne upTo
        rintro rfl
        have nothing := (grouped.offer_eq_none_iff behind).mpr ⟨Nat.le_refl _, few⟩
        rw [nothing] at offered
        cases offered
      rw [offer_of_lt _ given] at offered
      cases offered
      exact ⟨p, type, _, place, List.getElem?_eq_getElem given, declared, foreign, rfl⟩
  · exact absurd (served _ behind) unserved_behind

/-- With too few arguments that all fit, the first parameter that got none is reported. -/
theorem matchArgs_missing (grouped : Grouped s.params required optional collecting)
    (isInstance : Ref → Ref → Bool) (bound : Nat) (few : args.length < required.length)
    (fit : ∀ (i : Nat) p value, (required ++ optional)[i]? = some p → args[i]? = some value →
      p.Fits isInstance value) :
    ∃ p, (required ++ optional)[args.length]? = some p ∧
      s.matchArgs isInstance args bound = .error (.missing p.name) := by
  obtain ⟨i, e, refused, -, ⟨here, p, place, rfl⟩ | ⟨p, type, value, place, given, declared, foreign, rfl⟩⟩ :=
    grouped.matchArgs_of_few isInstance bound few
  · subst here
    exact ⟨p, place, refused⟩
  · have is := fit i p value place given type declared
    rw [foreign] at is
    cases is

/-- With too few arguments of which some do not fit, the first of these is reported. -/
theorem matchArgs_wrongType (grouped : Grouped s.params required optional collecting)
    (isInstance : Ref → Ref → Bool) (bound : Nat) (few : args.length < required.length)
    (misfit : ∃ (i : Nat) (p : Param) (value : Ref), (required ++ optional)[i]? = some p ∧ args[i]? = some value ∧
      ¬ p.Fits isInstance value) :
    ∃ (i : Nat) (p : Param) (type value : Ref), (required ++ optional)[i]? = some p ∧ args[i]? = some value ∧
      p.type = some type ∧ isInstance value type = false ∧
      (∀ j < i, Served isInstance (required ++ optional) args j) ∧
      s.matchArgs isInstance args bound = .error (.wrongType p.name type value) := by
  obtain ⟨i, e, refused, served, ⟨here, p, place, rfl⟩ | ⟨p, type, value, place, given, declared, foreign, rfl⟩⟩ :=
    grouped.matchArgs_of_few isInstance bound few
  · -- all arguments are served, the one that does not fit among them
    subst here
    obtain ⟨i, q, value, place', given, misfit⟩ := misfit
    obtain ⟨within, -⟩ := List.getElem?_eq_some_iff.mp given
    obtain ⟨q', v, place'', offered, fits⟩ := served i within
    rw [offer_of_lt _ within, ← List.getElem?_eq_getElem within, given] at offered
    rw [place'] at place''
    cases place''
    cases offered
    exact absurd fits misfit
  · exact ⟨i, p, type, value, place, given, declared, foreign, served, refused⟩

/-- With too many arguments and no parameter that collects, the numbers are reported. -/
theorem matchArgs_tooMany (grouped : Grouped s.params required optional none)
    (isInstance : Ref → Ref → Bool) (bound : Nat) (more : (required ++ optional).length < args.length) :
    s.matchArgs isInstance args bound =
      .error (.tooMany ((required ++ optional).length - bound) (args.length - bound)) := by
  rcases grouped.matchArgs_cases isInstance args bound with ⟨-, -, refused⟩ | ⟨fits, -⟩
  · exact refused
  · exact absurd more (Nat.not_lt_of_le (fits rfl))

/-- In a call that is served, each place holds its argument or else its default, and the arguments behind the
places are collected. -/
theorem of_matchArgs (grouped : Grouped s.params required optional collecting) {m : Matched}
    (matched : s.matchArgs isInstance args bound = .ok m) :
    let places := required ++ optional
    m.fixed.length = places.length ∧ (∀ i < places.length, m.fixed[i]? = offer places args i) ∧
      m.rest = (if collecting.isSome then some (args.drop places.length) else none) ∧
      m.toList.map some = args.map some ++ (places.drop args.length).map Param.default := by
  intro places
  rcases grouped.matchArgs_cases isInstance args bound with
    ⟨-, -, refused⟩ | ⟨fits, ⟨i, e, refused, -, -⟩ | ⟨-, ⟨p, type, value, -, refused, -, -⟩ |
      ⟨m', accepted, -, length, holds, rest⟩⟩⟩
  · rw [refused] at matched
    cases matched
  · rw [refused] at matched
    cases matched
  · rw [refused] at matched
    cases matched
  · rw [accepted] at matched
    cases matched
    have values := map_some_values length holds
    refine ⟨length, holds, ?_, ?_⟩
    · rw [rest]
      cases collecting <;> rfl
    · rw [Matched.toList, rest, ← values]
      cases collecting with
      | some p => rfl
      | none => rw [List.drop_eq_nil_of_le (fits rfl)]; rfl

/-- A parameter collects exactly if it is that of the last group. -/
theorem mem_rest_iff (grouped : Grouped s.params required optional collecting) (p : Param) :
    (p ∈ s.params ∧ p.rest) ↔ p ∈ collecting := by
  rw [← List.mem_filter, grouped.filter_rest, Option.mem_toList, Option.mem_def]

theorem any_rest (grouped : Grouped s.params required optional collecting) :
    s.params.any Param.rest = collecting.isSome := by
  rw [Bool.eq_iff_iff, List.any_eq_true, Option.isSome_iff_exists]
  exact exists_congr grouped.mem_rest_iff

/-- The parameters that no bound argument fills are the places behind, and the one that collects. -/
theorem visible_eq (grouped : Grouped s.params required optional collecting) (bound : Nat) :
    s.visible bound = (required ++ optional).drop bound ++ collecting.toList := by
  rw [visible, grouped.positional, grouped.split]
  rcases Nat.le_total bound (required ++ optional).length with within | beyond
  · rw [Nat.min_eq_left within, List.drop_append_of_le_length within]
  · rw [Nat.min_eq_right beyond, List.drop_append_of_le_length (Nat.le_refl _), List.drop_length,
      List.drop_eq_nil_of_le beyond]

end Signature.Grouped

namespace Signature

/-- For every accepted list of parameters. A call is served exactly if its number of arguments is accepted and
every value that is given, left to a default or collected is an instance of the Type that its parameter
declares. Then each place holds its argument or else its default, the arguments behind the places are collected
if a parameter collects, and all values in order are the arguments followed by the defaults of the places that
got none. Too many arguments are always refused as such; with too few, the first given value that does not fit
is reported, and if all fit, the first place that got none. A function with bound arguments is matched like the
function itself with these in front, they are only left out where a report counts too many, and it runs the
same; it can be bound further exactly if some parameter is not filled. -/
theorem arguments_matched {params : List Param} {s : Signature} (accepted : ofParams params = .ok s) :
    let places := params.filter fun p => !p.rest
    (∀ (h : Heap) (args : List Ref) (bound : Nat),
      ((∃ m, s.matchArgs h.isInstance args bound = .ok m) ↔
        s.accepts args.length ∧
        (∀ (i : Nat) p value, places[i]? = some p → offer places args i = some value →
          p.Fits h.isInstance value) ∧
        ∀ p ∈ params, p.rest → ∀ value ∈ args.drop places.length, p.Fits h.isInstance value) ∧
      (∀ m, s.matchArgs h.isInstance args bound = .ok m →
        m.fixed.length = places.length ∧ (∀ i < places.length, m.fixed[i]? = offer places args i) ∧
        m.rest = (if params.any Param.rest then some (args.drop places.length) else none) ∧
        m.toList.map some = args.map some ++ (places.drop args.length).map Param.default) ∧
      (params.any Param.rest = false → places.length < args.length →
        s.matchArgs h.isInstance args bound =
          .error (.tooMany (places.length - bound) (args.length - bound))) ∧
      (args.length < s.requiredCount →
        ((∀ (i : Nat) p value, places[i]? = some p → args[i]? = some value → p.Fits h.isInstance value) →
          ∃ p, places[args.length]? = some p ∧
            s.matchArgs h.isInstance args bound = .error (.missing p.name)) ∧
        ((∃ (i : Nat) (p : Param) (value : Ref), places[i]? = some p ∧ args[i]? = some value ∧
            ¬ p.Fits h.isInstance value) →
          ∃ (i : Nat) (p : Param) (type value : Ref), places[i]? = some p ∧ args[i]? = some value ∧
            p.type = some type ∧ h.isInstance value type = false ∧
            (∀ j < i, Served h.isInstance places args j) ∧
            s.matchArgs h.isInstance args bound = .error (.wrongType p.name type value))) ∧
      ∀ function e, (h.mismatchError function e).type = .builtin e.kind) ∧
    ∀ (f g : Function) (xs : List Ref), f.signature = s → xs.foldlM Function.bind f = .ok g →
      g.bound = f.bound ++ xs ∧
      (∀ (h : Heap) (c c' : Ref) (args : List Ref),
        h.payload? c = some (.function f) → h.payload? c' = some (.function g) →
        let result := s.matchArgs h.isInstance (f.bound ++ (xs ++ args)) f.bound.length
        h.prepare c (xs ++ args) = h.prepared f result ∧
          h.prepare c' args = h.prepared g (result.mapError (Mismatch.hide xs.length))) ∧
      (∀ k native m, Engine.invoke k native ⟨g, m⟩ = Engine.invoke k native ⟨f, m⟩) ∧
      g.visibleParams = places.drop g.bound.length ++ params.filter Param.rest ∧
      ∀ this, (∃ cause, g.bind this = .error cause) ↔ g.visibleParams = [] := by
  obtain ⟨rfl, required, optional, collecting, grouped⟩ := grouped_of_ofParams accepted
  intro places
  have isPlaces : places = required ++ optional := grouped.filter_places
  rw [isPlaces, grouped.any_rest]
  refine ⟨fun h args bound => ⟨?_, fun m => grouped.of_matchArgs, ?_, ?_, h.type_mismatchError⟩, ?_⟩
  · rw [grouped.exists_matched_iff]
    apply and_congr_right
    intro _
    apply and_congr_right
    intro _
    constructor
    · intro fit p mem rest
      exact fit p ((grouped.mem_rest_iff p).mp ⟨mem, rest⟩)
    · intro fit p collects
      obtain ⟨mem, rest⟩ := (grouped.mem_rest_iff p).mpr collects
      exact fit p mem rest
  · intro none more
    rw [Option.isSome_eq_false_iff, Option.isNone_iff_eq_none] at none
    subst none
    exact grouped.matchArgs_tooMany h.isInstance bound more
  · intro few
    rw [grouped.requiredCount] at few
    exact ⟨grouped.matchArgs_missing h.isInstance bound few, grouped.matchArgs_wrongType h.isInstance bound few⟩
  · rintro f g xs rfl binds
    obtain rfl := Function.eq_of_binds binds
    refine ⟨rfl, ?_, fun _ _ _ => rfl, ?_, fun this => Function.bind_eq_error_iff⟩
    · intro h c c' args found found' result
      refine ⟨h.prepare_function found _, ?_⟩
      rw [h.prepare_function found']
      show h.prepared _ (f.signature.matchArgs h.isInstance (f.bound ++ xs ++ args) (f.bound ++ xs).length) = _
      rw [List.append_assoc, List.length_append, matchArgs_add_bound]
    · rw [Function.visibleParams, grouped.visible_eq, grouped.filter_rest]

/-- A truth value serves a parameter that declares one, and the parameter behind it keeps its default; `null`
does not serve it. Bound to a truth value, the function has only the second parameter left. -/
theorem arguments_matched_truth :
    let x : Param := ⟨"x", some Kind.bool.ref, none, false⟩
    let y : Param := ⟨"y", none, some .null, false⟩
    let s : Signature := ⟨[x, y]⟩
    let f : Function := ⟨"f", s, .native (.global .print), []⟩
    ofParams [x, y] = .ok s ∧
      (∃ m, s.matchArgs Heap.boot.isInstance [.yes] 0 = .ok m ∧ m.toList = [.yes, .null]) ∧
      (¬ ∃ m, s.matchArgs Heap.boot.isInstance [.null] 0 = .ok m) ∧
      ∃ g, [Ref.yes].foldlM Function.bind f = .ok g ∧ g.visibleParams = [y] := by
  intro x y s f
  have accepted : ofParams [x, y] = .ok s := rfl
  obtain ⟨matching, binding⟩ := arguments_matched accepted
  obtain ⟨isTruth, noTruth⟩ : Heap.boot.isInstance .yes Kind.bool.ref = true ∧
      Heap.boot.isInstance .null Kind.bool.ref = false := by
    decide +kernel
  obtain ⟨served, placed, -⟩ := matching Heap.boot [.yes] 0
  refine ⟨accepted, ?_, ?_, ⟨_, rfl, (binding f _ [.yes] rfl rfl).2.2.2.1⟩⟩
  · have fit : ∀ (i : Nat) p value, [x, y][i]? = some p → offer [x, y] [.yes] i = some value →
        p.Fits Heap.boot.isInstance value := by
      intro i p value place offered type declared
      match i with
      | 0 =>
        cases place
        cases offered
        cases declared
        exact isTruth
      | 1 =>
        cases place
        cases declared
      | _ + 2 => cases place
    have noRest : ∀ p ∈ [x, y], p.rest → ∀ value ∈ [Ref.yes].drop 2, p.Fits Heap.boot.isInstance value := by
      intro p _ _ value mem
      cases mem
    obtain ⟨m, matched⟩ := served.mpr ⟨rfl, fit, noRest⟩
    obtain ⟨-, -, -, values⟩ := placed m matched
    refine ⟨m, matched, ?_⟩
    exact List.map_injective_iff.mpr (Option.some_injective _) values
  · obtain ⟨served, -⟩ := matching Heap.boot [.null] 0
    intro matched
    have is := (served.mp matched).2.1 0 x .null rfl rfl Kind.bool.ref rfl
    rw [noTruth] at is
    cases is

end Signature

end ObjectMachine
