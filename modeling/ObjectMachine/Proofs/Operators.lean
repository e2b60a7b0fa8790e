import Mathlib.Data.List.Forall2
import ObjectMachine.Engine.Operators
import ObjectMachine.Proofs.Balance
import ObjectMachine.Proofs.Matching
import ObjectMachine.Request
/-!
The choice of a method for an operator. The Types of the operands are asked in the order of their first
occurrence. Those that have no method, or one that does not take the operands, are passed over without running
anything; the first one whose method takes them answers, whatever comes of it.
-/
namespace ObjectMachine

/-! ### Types in order -/

/-- The second list holds what the first one does, each once, in the order of first occurrence. -/
structure FirstOccurrences (all kept : List Ref) : Prop where
  /-- Both hold the same. -/
  same : ∀ r, r ∈ kept ↔ r ∈ all
  /-- What is kept first occurred first. -/
  ordered : kept.Pairwise fun r s => all.idxOf r < all.idxOf s

/-- Of two members that a selection keeps, the one that is first in it was first before. -/
theorem idxOf_lt_of_filter {all : List Ref} {keeps : Ref → Bool} {r s : Ref} (r_kept : keeps r) (s_kept : keeps s)
    (first : (all.filter keeps).idxOf r < (all.filter keeps).idxOf s) : all.idxOf r < all.idxOf s := by
  induction all with
  | nil => exact absurd first (Nat.lt_irrefl _)
  | cons head later ih =>
    by_cases kept : keeps head
    · rw [List.filter_cons_of_pos kept] at first
      by_cases isSecond : head = s
      · rw [isSecond, List.idxOf_cons_self] at first
        exact absurd first (Nat.not_lt_zero _)
      rw [List.idxOf_cons_ne _ isSecond] at first ⊢
      by_cases isFirst : head = r
      · rw [isFirst, List.idxOf_cons_self]
        exact Nat.succ_pos _
      · rw [List.idxOf_cons_ne _ isFirst] at first ⊢
        exact Nat.succ_lt_succ (ih (Nat.lt_of_succ_lt_succ first))
    · -- the head is none of the two, and the selection is that of the rest
      rw [List.filter_cons_of_neg kept] at first
      have r_later : head ≠ r := fun same => kept (same ▸ r_kept)
      have s_later : head ≠ s := fun same => kept (same ▸ s_kept)
      rw [List.idxOf_cons_ne _ r_later, List.idxOf_cons_ne _ s_later]
      exact Nat.succ_lt_succ (ih first)

theorem ordered_eraseDups (all : List Ref) : all.eraseDups.Pairwise fun r s => all.idxOf r < all.idxOf s := by
  cases all with
  | nil => exact List.Pairwise.nil
  | cons head later =>
    rw [List.eraseDups_cons]
    have other : ∀ r ∈ (later.filter fun t => !t == head).eraseDups, (!r == head) = true ∧ head ≠ r := by
      intro r mem
      have kept := (List.mem_filter.mp (List.mem_eraseDups.mp mem)).2
      exact ⟨kept, fun same => by simp [same] at kept⟩
    apply List.Pairwise.cons
    · intro r mem
      rw [List.idxOf_cons_self, List.idxOf_cons_ne later (other r mem).2]
      exact Nat.succ_pos _
    · apply (ordered_eraseDups (later.filter fun t => !t == head)).imp_of_mem
      intro r s r_mem s_mem first
      obtain ⟨r_kept, r_later⟩ := other r r_mem
      obtain ⟨s_kept, s_later⟩ := other s s_mem
      rw [List.idxOf_cons_ne later r_later, List.idxOf_cons_ne later s_later]
      exact Nat.succ_lt_succ (idxOf_lt_of_filter r_kept s_kept first)
termination_by all.length
decreasing_by exact Nat.lt_succ_of_le (List.length_filter_le _ later)

theorem firstOccurrences_eraseDups (all : List Ref) : FirstOccurrences all all.eraseDups where
  same _ := List.mem_eraseDups
  ordered := ordered_eraseDups all

/-! ### The first method that takes the operands -/

namespace Heap

variable {h : Heap} {name : String} {args : List Ref} {type method : Ref} {f : Function}

/-- The member of a name that is found along the ancestors of a Type: the one of the first ancestor that has
it. -/
def FoundAlong (h : Heap) (type : Ref) (name : String) (method : Ref) : Prop :=
  ∃ before owner after, h.mro type = before ++ owner :: after ∧ h.ownMember? owner name = some method ∧
    ∀ ancestor ∈ before, h.ownMember? ancestor name = none

theorem memberIn?_eq_some_iff : h.memberIn? (h.mro type) name = some method ↔ h.FoundAlong type name method :=
  List.findSome?_eq_some_iff

theorem memberIn?_eq_none_iff :
    h.memberIn? (h.mro type) name = none ↔ ∀ ancestor ∈ h.mro type, h.ownMember? ancestor name = none :=
  List.findSome?_eq_none_iff

/-- A Type passes an operator over, and this is the error that says why. -/
inductive PassesOver (h : Heap) (name : String) (args : List Ref) (type : Ref) : Raised → Prop where
  /-- No ancestor has a member of that name. -/
  | absent (none : ∀ ancestor ∈ h.mro type, h.ownMember? ancestor name = none) :
    h.PassesOver name args type (.ofCause (.noTypeMember (h.nameOfType type) name))
  /-- The signature of the function that is found does not match the operands. -/
  | rejected (method : Ref) (f : Function) (e : Mismatch) (found : h.FoundAlong type name method)
    (function : h.payload? method = some (.function f))
    (refused : f.signature.matchArgs h.isInstance (f.bound ++ args) f.bound.length = .error e) :
    h.PassesOver name args type (h.mismatchError f.name e)

/-- The function that a Type has for an operator matches the operands, and this is the call of it. -/
inductive Implements (h : Heap) (name : String) (args : List Ref) (type : Ref) : Prepared → Prop where
  /-- The signature of the function that is found matches the operands. -/
  | intro (method : Ref) (f : Function) (matched : Matched) (found : h.FoundAlong type name method)
    (function : h.payload? method = some (.function f))
    (accepted : f.signature.matchArgs h.isInstance (f.bound ++ args) f.bound.length = .ok matched) :
    h.Implements name args type ⟨f, matched⟩

/-- The members of a name that are found for some Types are functions. -/
def HasFunctions (h : Heap) (name : String) (types : List Ref) : Prop :=
  ∀ type ∈ types, ∀ method, h.FoundAlong type name method → ∃ f, h.payload? method = some (.function f)

/-- A Type whose member is a function, if it has one, either passes over or implements an operator. -/
theorem passesOver_or_implements (args : List Ref)
    (functions : ∀ method, h.FoundAlong type name method → ∃ f, h.payload? method = some (.function f)) :
    (∃ e, h.PassesOver name args type e) ∨ ∃ call, h.Implements name args type call := by
  cases member : h.memberIn? (h.mro type) name with
  | none => exact .inl ⟨_, .absent (memberIn?_eq_none_iff.mp member)⟩
  | some method =>
    have found := memberIn?_eq_some_iff.mp member
    obtain ⟨f, function⟩ := functions method found
    cases matching : f.signature.matchArgs h.isInstance (f.bound ++ args) f.bound.length with
    | error e => exact .inl ⟨_, .rejected method f e found function matching⟩
    | ok matched => exact .inr ⟨_, .intro method f matched found function matching⟩

/-- Either some Types pass over and the one behind them implements the operator, or all pass over. -/
theorem exists_first_implements {types : List Ref} (functions : h.HasFunctions name types) :
    (∃ before type after call, types = before ++ type :: after ∧
      (∀ t ∈ before, ∃ e, h.PassesOver name args t e) ∧ h.Implements name args type call) ∨
    ∃ causes, List.Forall₂ (h.PassesOver name args) types causes := by
  induction types with
  | nil => exact .inr ⟨[], .nil⟩
  | cons type later ih =>
    have functionsLater : h.HasFunctions name later := fun t mem => functions t (List.mem_cons_of_mem type mem)
    rcases h.passesOver_or_implements args (functions type List.mem_cons_self) with ⟨e, passes⟩ | ⟨call, implements⟩
    · rcases ih functionsLater with ⟨before, t, after, call, rfl, pass, implements⟩ | ⟨causes, pass⟩
      · left
        refine ⟨type :: before, t, after, call, rfl, ?_, implements⟩
        exact List.forall_mem_cons.mpr ⟨⟨e, passes⟩, pass⟩
      · exact .inr ⟨e :: causes, .cons passes pass⟩
    · exact .inl ⟨[], type, later, call, rfl, List.forall_mem_nil _, implements⟩

theorem choose_cons_of_passesOver {e : Raised} (passes : h.PassesOver name args type e) (later : List Ref) :
    h.choose name args (type :: later) = (h.choose name args later).mapError (e.toErrorBody :: ·) := by
  rw [choose]
  cases passes with
  | absent none => rw [memberIn?_eq_none_iff.mpr none]
  | rejected method f e found function refused =>
    have result : h.prepare method args = .error (h.mismatchError f.name e) := by
      rw [h.prepare_function function, refused]
      rfl
    simp only [memberIn?_eq_some_iff.mpr found, result]

theorem choose_cons_of_implements {call : Prepared} (implements : h.Implements name args type call)
    (later : List Ref) : h.choose name args (type :: later) = .ok (.invoke call) := by
  rw [choose]
  obtain ⟨method, f, matched, found, function, accepted⟩ := implements
  have result : h.prepare method args = .ok (some ⟨f, matched⟩) := by
    rw [h.prepare_function function, accepted]
    rfl
  simp only [memberIn?_eq_some_iff.mpr found, result]

/-- The first Type that implements an operator is chosen. -/
theorem choose_of_implements {before later : List Ref} {call : Prepared}
    (pass : ∀ t ∈ before, ∃ e, h.PassesOver name args t e) (implements : h.Implements name args type call) :
    h.choose name args (before ++ type :: later) = .ok (.invoke call) := by
  induction before with
  | nil => exact choose_cons_of_implements implements later
  | cons t before ih =>
    obtain ⟨⟨e, passes⟩, pass⟩ := List.forall_mem_cons.mp pass
    rw [List.cons_append, choose_cons_of_passesOver passes, ih pass]
    rfl

/-- If all Types pass over, their errors are the causes, in order. -/
theorem choose_of_passesOver {types : List Ref} {causes : List Raised}
    (pass : List.Forall₂ (h.PassesOver name args) types causes) :
    h.choose name args types = .error (causes.map Raised.toErrorBody) := by
  induction pass with
  | nil => rfl
  | cons passes _ ih =>
    rw [choose_cons_of_passesOver passes, ih]
    rfl

/-- Where no member is found, the error is one of a missing member. -/
theorem PassesOver.found_or_attributeError {e : Raised} (passes : h.PassesOver name args type e) :
    (∃ method, h.FoundAlong type name method) ∨ e.type = .builtin .attributeError := by
  cases passes with
  | absent none => exact .inr rfl
  | rejected method f e found function refused => exact .inl ⟨method, found⟩

end Heap

/-! ### Operators -/

namespace Machine

/-- Dropping the roots that were just added leads back. -/
theorem truncateRoots_pushRoots (m : Machine) (nodes : List Node) :
    (m.pushRoots nodes).truncateRoots m.roots.size = m := by
  have added : (m.pushRoots nodes).AddsRoots ⟨false, false⟩ (m.pushRoots nodes) := .of_eq rfl
  have roots := added.truncate
  obtain ⟨heap, builtins, globals, depth, roots', printer, tracer⟩ := m
  rw [pushRoots, truncateRoots] at roots ⊢
  dsimp only at roots ⊢
  rw [roots]

end Machine

theorem Special.wrongOperands?_eq_none_iff {name : String} {given : Nat} :
    wrongOperands? name given = none ↔ ∀ count, arity? name = some (.exactly count) → count = given := by
  rw [wrongOperands?]
  cases arity? name with
  | none => simp
  | some arity =>
    cases arity with
    | variadic => simp
    | exactly count => simp

namespace Engine

variable {due : Schedule} {m : Machine} {k : Reentry} {name : String} {args : List Ref}
  {fallback : Option (Engine Ref)}

/-- An operator with another number of operands than it takes is refused, and nothing happens. -/
theorem runUnder_dispatch_of_wrongOperands {expected : Nat}
    (wrong : Special.wrongOperands? name args.length = some expected) :
    (dispatch k name args fallback).runUnder due m =
      .error (.raised (.ofCause (.operandCount name expected args.length))) m := by
  rw [dispatch, wrong]
  show dropRoots _ (.error _ (m.pushRoots (objectNodes args))) = _
  rw [dropRoots, m.truncateRoots_pushRoots]

variable (right : Special.wrongOperands? name args.length = none)
include right

theorem runUnder_dispatch_of_choose_ok {call : Prepared}
    (chosen : m.heap.choose name args (m.heap.operandTypes name args) = .ok (.invoke call)) :
    (dispatch k name args fallback).runUnder due m =
      dropRoots m.roots.size ((k.invoke call).runUnder due (m.pushRoots (objectNodes args))) := by
  have inside : (m.pushRoots (objectNodes args)).heap = m.heap := rfl
  rw [dispatch, right]
  show dropRoots _ (runUnder due _ (m.pushRoots (objectNodes args))) = _
  simp only [runUnder_bind, runUnder_ask, inside, chosen]
  rfl

theorem runUnder_dispatch_of_choose_error {causes : List ErrorBody}
    (chosen : m.heap.choose name args (m.heap.operandTypes name args) = .error causes) :
    (dispatch k name args fallback).runUnder due m =
      match fallback with
      | some x => dropRoots m.roots.size (x.runUnder due (m.pushRoots (objectNodes args)))
      | none =>
        let types := (m.heap.operandTypes name args).map m.heap.nameOfType
        .error (.raised { Raised.ofCause (.noImplementation name types) with causes }) m := by
  have inside : (m.pushRoots (objectNodes args)).heap = m.heap := rfl
  rw [dispatch, right]
  show dropRoots _ (runUnder due _ (m.pushRoots (objectNodes args))) = _
  simp only [runUnder_bind, runUnder_ask, inside, chosen]
  cases fallback with
  | some x => rfl
  | none =>
    simp only [runUnder_bind, runUnder_ask, inside]
    show dropRoots _ (.error _ (m.pushRoots (objectNodes args))) = _
    rw [dropRoots, m.truncateRoots_pushRoots]

omit right

/-- For every operator and all operands, with any way to call functions. If the operator takes an exact number of
operands and this is another one, an `ArgumentError` is raised and nothing happens. Otherwise the distinct Types of
the operands are asked in the order of first occurrence, only that of the first operand if the operator takes any
number. The call of the first function that matches is all that happens, with its value or its error, after Types
that pass over. If all pass over, the operator means what it means for every value, if it does and may. If not, an
`ArgumentError` is raised and nothing happens; its causes are the errors of the Types, one for each, in order. -/
theorem operator_dispatched (k : Reentry) (due : Schedule) (m : Machine) (name : String) (args : List Ref)
    (anyValue : Bool) :
    let h := m.heap
    let ran := (callOperator k name args anyValue).runUnder due m
    let during := m.pushRoots (objectNodes args)
    let types := h.operandTypes name args
    FirstOccurrences ((if Special.isVariadic name then args.take 1 else args).map h.typeOf) types ∧
    (∀ count, Special.arity? name = some (.exactly count) → count ≠ args.length →
      let e := Raised.ofCause (.operandCount name count args.length)
      ran = .error (.raised e) m ∧ e.type = .builtin .argumentError) ∧
    ((∀ count, Special.arity? name = some (.exactly count) → count = args.length) →
      (∀ before type after call, types = before ++ type :: after →
        (∀ t ∈ before, ∃ e, h.PassesOver name args t e) → h.Implements name args type call →
        ran = dropRoots m.roots.size ((k.invoke call).runUnder due during)) ∧
      (∀ causes, List.Forall₂ (h.PassesOver name args) types causes →
        match if anyValue then Special.fallback? name else none with
        | some default => ran = dropRoots m.roots.size ((meaning k args default).runUnder due during)
        | none =>
          let e := { Raised.ofCause (.noImplementation name (types.map h.nameOfType)) with
            causes := causes.map Raised.toErrorBody }
          ran = .error (.raised e) m ∧ e.type = .builtin .argumentError) ∧
      (∀ type e, h.PassesOver name args type e →
        (∃ method, h.FoundAlong type name method) ∨ e.type = .builtin .attributeError) ∧
      (h.HasFunctions name types →
        (∃ before type after call, types = before ++ type :: after ∧
          (∀ t ∈ before, ∃ e, h.PassesOver name args t e) ∧ h.Implements name args type call) ∨
        ∃ causes, List.Forall₂ (h.PassesOver name args) types causes)) := by
  intro h ran during types
  refine ⟨firstOccurrences_eraseDups _, ?_, ?_⟩
  · intro count exact other
    have wrong : Special.wrongOperands? name args.length = some count := by
      rw [Special.wrongOperands?, exact]
      exact if_neg other
    exact ⟨runUnder_dispatch_of_wrongOperands wrong, rfl⟩
  · intro exact
    have right := Special.wrongOperands?_eq_none_iff.mpr exact
    refine ⟨?_, ?_, ?_, Heap.exists_first_implements⟩
    · intro before type after call split pass implements
      have chosen : h.choose name args types = .ok (.invoke call) := by
        rw [split]
        exact Heap.choose_of_implements pass implements
      exact runUnder_dispatch_of_choose_ok right chosen
    · intro causes pass
      obtain ⟨default, isDefault⟩ : ∃ d, d = if anyValue then Special.fallback? name else none := ⟨_, rfl⟩
      have ran_eq : ran = (dispatch k name args (default.map (meaning k args))).runUnder due m := by
        rw [isDefault]
        cases anyValue <;> rfl
      rw [← isDefault, ran_eq, runUnder_dispatch_of_choose_error right (Heap.choose_of_passesOver pass)]
      cases default with
      | none => exact ⟨rfl, rfl⟩
      | some d => rfl
    · intro type e passes
      exact passes.found_or_attributeError

/-- The kind of error with which a method refuses arguments. -/
def refusal (h : Heap) (args : List Ref) (method : Ref) : Option ErrorKind :=
  match h.payload? method with
  | some (.function f) =>
    match f.signature.matchArgs h.isInstance (f.bound ++ args) f.bound.length with
    | .ok _ => none
    | .error e => some e.kind
  | _ => none

/-- The addition of `null` and an integer: `null` has no method for it, and that of integers does not take `null`,
so an error with two causes is raised. -/
theorem operator_dispatched_null :
    let m := Machine.boot .unlimited .silent
    let one : Ref := ⟨115⟩
    m.heap.payload? one = some (.int 1) ∧
      ∃ e, (callOperator (reentry Machine.fuel) "op_add" [.null, one] true).run m = .error (.raised e) m ∧
        e.causes.map ErrorBody.type = [.builtin .attributeError, .builtin .typeError] := by
  intro m one
  obtain ⟨integer, types, absent, rejected⟩ : m.heap.payload? one = some (.int 1) ∧
      m.heap.operandTypes "op_add" [.null, one] = [Kind.null.ref, Kind.int.ref] ∧
      m.heap.memberIn? (m.heap.mro Kind.null.ref) "op_add" = none ∧
      (m.heap.memberIn? (m.heap.mro Kind.int.ref) "op_add").map (refusal m.heap [.null, one]) =
        some (some .typeError) := by
    decide +kernel
  obtain ⟨method, member, refused⟩ := Option.map_eq_some_iff.mp rejected
  unfold refusal at refused
  split at refused
  · rename_i f function
    split at refused
    · cases refused
    rename_i e mismatch
    have pass : List.Forall₂ (m.heap.PassesOver "op_add" [.null, one]) [Kind.null.ref, Kind.int.ref]
        [_, _] :=
      .cons (.absent (Heap.memberIn?_eq_none_iff.mp absent))
        (.cons (.rejected method f e (Heap.memberIn?_eq_some_iff.mp member) function mismatch) .nil)
    obtain ⟨-, -, dispatched⟩ :=
      operator_dispatched (reentry Machine.fuel) Heap.collectionDue m "op_add" [.null, one] true
    have exact : ∀ count, Special.arity? "op_add" = some (.exactly count) → count = [Ref.null, one].length := by
      intro count exact
      cases exact
      rfl
    obtain ⟨-, noneMatches, -⟩ := dispatched exact
    rw [types] at noneMatches
    obtain ⟨ran, -⟩ := noneMatches _ pass
    refine ⟨integer, _, ran, ?_⟩
    rw [List.map_map, List.map_cons, List.map_cons, List.map_nil]
    show [ErrorType.builtin .attributeError, (m.heap.mismatchError f.name e).type] = _
    rw [Heap.type_mismatchError, Option.some.inj refused]
  · cases refused

end Engine

end ObjectMachine
