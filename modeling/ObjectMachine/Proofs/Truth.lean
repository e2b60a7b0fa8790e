import ObjectMachine.Proofs.Arithmetic
import ObjectMachine.Proofs.Maps
/-!
The truth of a value. The machine looks at the data of an object without a Type of its own and asks all others for
`op_bool`, the host looks at the data of a snapshot, and a program that applies `op_bool` runs the function that is
found for it. As long as the built-in Types have the `op_bool` that was declared for them, the three agree on every
object whose Type resolves `op_bool` as the Type of its data does, if the function that is found takes the object. If it
does not, there is no truth test for the object, so that the machine takes it for true whatever it holds.
-/
namespace ObjectMachine

/-! ### The truth of data -/

namespace Payload

/-- The truth of data: `null`, `false`, zero and what is empty are false. -/
def isTrue : Payload → Bool
  | null => false
  | bool b => b
  | int i => i != 0
  | num x => !x.isZero
  | str s => !s.isEmpty
  | list items => !items.isEmpty
  | map entries => entries.size != 0
  | _ => true

/-- The function that tests data for truth, if there is one for its kind. -/
def truthTest? : Payload → Option Native
  | null => some (.truth .nullBool)
  | bool _ => some (.truth .bool)
  | int _ | num _ => some (.number .bool)
  | str _ => some (.text .bool)
  | list _ => some (.list .bool)
  | map _ => some (.map .bool)
  | _ => none

variable {p : Payload} {native : Native}

/-- What cannot be tested is true. -/
theorem isTrue_of_untested (untested : p.truthTest? = none) : p.isTrue = true := by
  cases p <;> first | rfl | cases untested

end Payload

/-- The declaration of the member that tests data of a kind. -/
def Declaration.truthMember (kind : Kind) (native : Native) : Declaration :=
  ⟨"op_bool", [typed "self" kind], native⟩

namespace Declaration

variable {h : Heap} {kind : Kind} {native : Native} {f : Function} {d : Declaration} {p : Payload} {v : Ref}

/-- All members of that name are declared in this way. -/
theorem eq_truthMember (declared : d ∈ ofKind kind) (named : d.name = "op_bool") : d = truthMember kind d.native := by
  have all : ∀ k ∈ Kind.all, ∀ d ∈ ofKind k, d.name = "op_bool" → d = truthMember k d.native := by decide
  exact all kind kind.mem_all d declared named

/-- The Type of data that can be tested has such a member. -/
theorem exists_truthMember (tests : p.truthTest? = some native) :
    ∃ kind, p.typeRef = kind.ref ∧ truthMember kind native ∈ ofKind kind := by
  cases p with
  | null => cases tests; exact ⟨.null, rfl, by decide⟩
  | bool => cases tests; exact ⟨.bool, rfl, by decide⟩
  | int => cases tests; exact ⟨.int, rfl, by decide⟩
  | num => cases tests; exact ⟨.num, rfl, by decide⟩
  | str => cases tests; exact ⟨.string, rfl, by decide⟩
  | list => cases tests; exact ⟨.list, rfl, by decide⟩
  | map => cases tests; exact ⟨.map, rfl, by decide⟩
  | _ => cases tests

/-- The Type of other data has none, and neither has one that it extends. -/
theorem not_declared_of_untested (untested : p.truthTest? = none) :
    p.typeRef = ErrorKind.error.ref ∨
      ∃ kind : Kind, p.typeRef = kind.ref ∧ ∀ k ∈ kind.lineage, ∀ d ∈ ofKind k, d.name ≠ "op_bool" := by
  cases p with
  | plain => exact .inr ⟨.object, rfl, by decide⟩
  | range => exact .inr ⟨.range, rfl, by decide⟩
  | type => exact .inr ⟨.type, rfl, by decide⟩
  | function => exact .inr ⟨.function, rfl, by decide⟩
  | baseView => exact .inr ⟨.baseView, rfl, by decide⟩
  | iterator => exact .inr ⟨.iterator, rfl, by decide⟩
  | generator => exact .inr ⟨.generator, rfl, by decide⟩
  | error => exact .inl rfl
  | _ => cases untested

/-- A function that was declared so takes one argument, of the kind. -/
theorem Makes.exists_param (makes : (truthMember kind native).Makes f) :
    ∃ p, f.signature.params = [p] ∧ p.type = some kind.ref := by
  obtain ⟨p, rest, made, nothing, params⟩ := List.forall₂_cons_left_iff.mp makes.params
  cases nothing
  exact ⟨p, params, made.type⟩

end Declaration

/-! ### How it is resolved -/

namespace Heap

variable {h : Heap} {v : Ref} {o : Object} {p : Payload} {native : Native} {kind : Kind} {s : Snapshot}

/-- The built-in Types have the `op_bool` that was declared for them, and only where it was declared. -/
structure TruthStands (h : Heap) : Prop where
  /-- Where it was declared. -/
  furnished : ∀ k, ∀ d ∈ Declaration.ofKind k, d.name = "op_bool" → h.Furnished k.ref d
  /-- Where it was not. -/
  bare : ∀ k, (∀ d ∈ Declaration.ofKind k, d.name ≠ "op_bool") → h.ownMember? k.ref "op_bool" = none
  /-- Errors have none either. -/
  bareErrors : h.ownMember? ErrorKind.error.ref "op_bool" = none

instance : Decidable h.TruthStands :=
  decidable_of_iff
    ((∀ k ∈ Kind.all, ∀ d ∈ Declaration.ofKind k, d.name = "op_bool" → h.Furnished k.ref d) ∧
      (∀ k ∈ Kind.all, (∀ d ∈ Declaration.ofKind k, d.name ≠ "op_bool") → h.ownMember? k.ref "op_bool" = none) ∧
      h.ownMember? ErrorKind.error.ref "op_bool" = none)
    ⟨fun ⟨furnished, bare, bareErrors⟩ => ⟨fun k => furnished k k.mem_all, fun k => bare k k.mem_all, bareErrors⟩,
      fun ⟨furnished, bare, bareErrors⟩ => ⟨fun k _ => furnished k, fun k _ => bare k, bareErrors⟩⟩

/-- An object has no Type of its own, or one that resolves `op_bool` as the Type of its data does. -/
inductive ResolvesTruth (h : Heap) (v : Ref) (o : Object) : Prop where
  /-- The Type is the one of the data. -/
  | untyped (untyped : o.type = none)
  /-- For both Types a function is found that was declared, and the two do the same. -/
  | same {method own : Ref} {f g : Function} {kind : Kind} {d : Declaration}
    (found : h.FoundAlong (h.typeOf v) "op_bool" method) (function : h.payload? method = some (.function f))
    (declared : d ∈ Declaration.ofKind kind) (named : d.name = "op_bool") (makes : d.Makes f)
    (ownFound : h.FoundAlong o.payload.typeRef "op_bool" own) (ownFunction : h.payload? own = some (.function g))
    (body : f.body = g.body)
  /-- For neither Type anything is found. -/
  | nothing (absent : ∀ ancestor ∈ h.mro (h.typeOf v), h.ownMember? ancestor "op_bool" = none)
    (ownAbsent : ∀ ancestor ∈ h.mro o.payload.typeRef, h.ownMember? ancestor "op_bool" = none)

/-- An object is an instance of the Types for which a function that is found for `op_bool` declares its parameters. -/
def TakenByTest (h : Heap) (v : Ref) : Prop :=
  ∀ method f, h.FoundAlong (h.typeOf v) "op_bool" method → h.payload? method = some (.function f) →
    ∀ p ∈ f.signature.params, ∀ T, p.type = some T → h.isInstance v T

/-- What an object has for `op_bool` suits its data. -/
inductive TestsTruth (h : Heap) (v : Ref) (p : Payload) : Prop where
  /-- The function that tests such data is found. -/
  | declared {kind : Kind} {native : Native} {method : Ref} {f : Function} (tests : p.truthTest? = some native)
    (found : h.FoundAlong (h.typeOf v) "op_bool" method) (function : h.payload? method = some (.function f))
    (makes : (Declaration.truthMember kind native).Makes f)
  /-- There is none for such data, and nothing is found. -/
  | nothing (untested : p.truthTest? = none)
    (absent : ∀ ancestor ∈ h.mro (h.typeOf v), h.ownMember? ancestor "op_bool" = none)

theorem FoundAlong.unique {type method method' : Ref} {name : String} (found : h.FoundAlong type name method)
    (found' : h.FoundAlong type name method') : method = method' :=
  Option.some.inj ((memberIn?_eq_some_iff.mpr found).symm.trans (memberIn?_eq_some_iff.mpr found'))

theorem FoundAlong.not_absent {type method : Ref} {name : String} (found : h.FoundAlong type name method) :
    ¬ ∀ ancestor ∈ h.mro type, h.ownMember? ancestor name = none := by
  intro absent
  have member := memberIn?_eq_some_iff.mpr found
  rw [memberIn?_eq_none_iff.mpr absent] at member
  cases member

/-- For data that can be tested the test is found, for other data nothing is. -/
theorem TruthStands.foundAlong (stands : h.TruthStands) (types : h.BuiltinsStand) (tests : p.truthTest? = some native) :
    ∃ kind method f, p.typeRef = kind.ref ∧ h.FoundAlong p.typeRef "op_bool" method ∧
      h.payload? method = some (.function f) ∧ (Declaration.truthMember kind native).Makes f := by
  obtain ⟨kind, type, declared⟩ := Declaration.exists_truthMember tests
  obtain ⟨method, f, found, function, makes⟩ := (stands.furnished kind _ declared rfl).foundAlong types
  exact ⟨kind, method, f, type, type ▸ found, function, makes⟩

theorem TruthStands.absent (stands : h.TruthStands) (types : h.BuiltinsStand) (untested : p.truthTest? = none) :
    ∀ ancestor ∈ h.mro p.typeRef, h.ownMember? ancestor "op_bool" = none := by
  rcases Declaration.not_declared_of_untested untested with type | ⟨kind, type, none⟩
  · rw [type, types.mro_error]
    exact List.forall_mem_cons.mpr ⟨stands.bareErrors, List.forall_mem_singleton.mpr (stands.bare .object (by decide))⟩
  · rw [type, types.mro_kind]
    exact List.forall_mem_map.mpr fun k mem => stands.bare k (none k mem)

/-- An object whose Type resolves `op_bool` as the Type of its data does has what suits its data. -/
theorem ResolvesTruth.tests (resolves : h.ResolvesTruth v o) (live : h.object? v = some o) (stands : h.TruthStands)
    (types : h.BuiltinsStand) : h.TestsTruth v o.payload := by
  cases resolves with
  | untyped untyped =>
    have typeOf := typeOf_of_untyped live untyped
    cases tests : o.payload.truthTest? with
    | some native =>
      obtain ⟨kind, method, f, -, found, function, makes⟩ := stands.foundAlong types tests
      exact .declared tests (typeOf ▸ found) function makes
    | none => exact .nothing tests (typeOf ▸ stands.absent types tests)
  | @same method own f g kind d found function declared named makes ownFound ownFunction body =>
    cases tests : o.payload.truthTest? with
    | none => exact absurd (stands.absent types tests) ownFound.not_absent
    | some native =>
      obtain ⟨_, own', g', -, ownFound', ownFunction', ownMakes⟩ := stands.foundAlong types tests
      obtain rfl := ownFound.unique ownFound'
      cases ownFunction.symm.trans ownFunction'
      -- a function is made by one declaration only, up to its kind
      have runs : d.native = native :=
        FunctionBody.native.inj (makes.body.symm.trans (body.trans ownMakes.body))
      rw [Declaration.eq_truthMember declared named, runs] at makes
      exact .declared tests found function makes
  | nothing absent ownAbsent =>
    cases tests : o.payload.truthTest? with
    | none => exact .nothing tests absent
    | some native =>
      obtain ⟨-, own, -, -, found, -, -⟩ := stands.foundAlong types tests
      exact absurd ownAbsent found.not_absent

/-- It does if the same function that was declared is found for both. -/
theorem ResolvesTruth.of_shared {method : Ref} {f : Function}
    (found : h.memberIn? (h.mro (h.typeOf v)) "op_bool" = some method)
    (ownFound : h.memberIn? (h.mro o.payload.typeRef) "op_bool" = some method)
    (function : h.payload? method = some (.function f)) (makes : (Declaration.truthMember kind native).Makes f)
    (declared : Declaration.truthMember kind native ∈ Declaration.ofKind kind) : h.ResolvesTruth v o :=
  .same (memberIn?_eq_some_iff.mp found) function declared rfl makes (memberIn?_eq_some_iff.mp ownFound) function rfl

/-- What is found takes the instances of the kind for which it was declared. -/
theorem takenByTest_iff {method : Ref} {f : Function} (found : h.FoundAlong (h.typeOf v) "op_bool" method)
    (function : h.payload? method = some (.function f)) (makes : (Declaration.truthMember kind native).Makes f) :
    h.TakenByTest v ↔ h.isInstance v kind.ref := by
  obtain ⟨q, params, type⟩ := makes.exists_param
  constructor
  · intro taken
    exact taken method f found function q (params ▸ List.mem_singleton_self q) kind.ref type
  · intro fits method' f' found' function' p mem T declared
    obtain rfl := found.unique found'
    cases function.symm.trans function'
    rw [params, List.mem_singleton] at mem
    subst mem
    cases type.symm.trans declared
    exact fits

/-- An object without a Type of its own is taken. -/
theorem takenByTest_of_untyped (live : h.object? v = some o) (untyped : o.type = none) (stands : h.TruthStands)
    (types : h.BuiltinsStand) : h.TakenByTest v := by
  have typeOf := typeOf_of_untyped live untyped
  cases tests : o.payload.truthTest? with
  | none =>
    intro method f found
    rw [typeOf] at found
    exact absurd (stands.absent types tests) found.not_absent
  | some native =>
    obtain ⟨kind, method, f, ofKind, found, function, makes⟩ := stands.foundAlong types tests
    refine (takenByTest_iff (typeOf ▸ found) function makes).mpr ?_
    rw [isInstance, isSubtype, typeOf, ofKind, beq_self_eq_true, Bool.true_or]

/-! ### The host's view -/

/-- If there is a result for each item, there is one for none only if there are no items. -/
theorem isEmpty_of_mapM {α β : Type} {f : α → Option β} {l : List α} {l' : List β} (taken : l.mapM f = some l') :
    l'.isEmpty = l.isEmpty := by
  cases l with
  | nil =>
    cases taken
    rfl
  | cons a l =>
    rw [List.mapM_cons] at taken
    obtain ⟨b, -, taken⟩ := Option.bind_eq_some_iff.mp taken
    obtain ⟨rest, -, same⟩ := Option.bind_eq_some_iff.mp taken
    cases same
    rfl

/-- A snapshot is as true as the data of the object. -/
theorem isTruthy_of_snapshot? (live : h.object? v = some o) (noView : ∀ target cls, o.payload ≠ .baseView target cls)
    (taken : h.snapshot? v = some s) : s.isTruthy = o.payload.isTrue := by
  by_cases container : o.payload.isContainer
  · have whole : ¬ IsCut [] v := by simp [IsCut, snapshotDepth]
    rw [snapshot?, snapshotDepth, snapshotWithin?_of_whole live container whole] at taken
    cases payload : o.payload with
    | plain =>
      rw [payload] at taken
      obtain ⟨members, -, rfl⟩ := Option.map_eq_some_iff.mp taken
      rfl
    | list items =>
      rw [payload] at taken
      obtain ⟨shown, each, rfl⟩ := Option.map_eq_some_iff.mp taken
      rw [Snapshot.isTruthy, isEmpty_of_mapM each, Payload.isTrue, Array.isEmpty_toList]
    | map entries =>
      rw [payload] at taken
      obtain ⟨shown, each, rfl⟩ := Option.map_eq_some_iff.mp taken
      rw [Snapshot.isTruthy, isEmpty_of_mapM each, Payload.isTrue, Table.values, Table.size]
      cases entries.entries <;> rfl
    | baseView target cls => exact absurd payload (noView target cls)
    | _ =>
      rw [payload] at container
      cases container
  · obtain ⟨leaf, shown⟩ := Option.ne_none_iff_exists'.mp (mt leafSnapshot?_eq_none_iff.mp container)
    rw [snapshot?, snapshotWithin?_of_leaf live shown] at taken
    cases taken
    rw [leafSnapshot?] at shown
    cases payload : o.payload <;> rw [payload] at shown container <;> first | cases shown; rfl | cases shown

end Heap

/-! ### The machine's view -/

namespace Engine

variable {due : Schedule} {m m' : Machine} {k : Reentry} {h : Heap} {v r : Ref} {o : Object} {p : Payload}
  {native : Native} {b : Bool} {n : Nat}

/-- The function that tests data finds its truth. -/
theorem does_truthTest (due : Schedule) (k : Reentry) (singles : ∀ s ∈ Heap.singletonPayloads, h.payload? s.1 = some s.2)
    (holds : h.payload? v = some p) (tests : p.truthTest? = some native) :
    ∃ r, Does due (runNative k native [v]) h (.ok r, h) ∧ h.payload? r = some (.bool p.isTrue) := by
  have single (b : Bool) : h.payload? (.ofBool b) = some (.bool b) :=
    singles (.ofBool b, .bool b) (by cases b <;> decide)
  cases p with
  | null =>
    cases tests
    exact ⟨.no, does_pure due Ref.no h, single false⟩
  | bool b =>
    cases tests
    exact ⟨v, does_pure due v h, holds⟩
  | int i =>
    cases tests
    exact ⟨_, (does_numeric due holds rfl).bind (does_pure due _ h), single _⟩
  | num x =>
    cases tests
    exact ⟨_, (does_numeric due holds rfl).bind (does_pure due _ h), single _⟩
  | str s =>
    cases tests
    exact ⟨_, (does_textOf due holds).bind (does_pure due _ h), single _⟩
  | list items =>
    cases tests
    exact ⟨_, (does_itemsOf due holds).bind (does_pure due _ h), single _⟩
  | map entries =>
    cases tests
    exact ⟨_, does_hasEntries due k holds, single _⟩
  | _ => cases tests

/-- To apply `op_bool` to a value is to dispatch it, where a value is true for which nothing is found. -/
theorem callOperator_bool (k : Reentry) (v : Ref) :
    callOperator k "op_bool" [v] true = dispatch k "op_bool" [v] (some (pure .yes)) :=
  rfl

/-- Data that can be tested is not asked for a test. -/
theorem runUnder_truthy_of_untyped (live : m.heap.object? v = some o) (untyped : o.type = none)
    (tests : o.payload.truthTest? = some native) : (truthy k v).runUnder due m = .ok o.payload.isTrue m := by
  rw [truthy, runUnder_bind, runUnder_load live]
  dsimp only
  rw [untyped]
  cases payload : o.payload <;> rw [payload] at tests <;> first | rfl | cases tests

/-- All else is as true as its test says. -/
theorem runUnder_truthy_of_tested (live : m.heap.object? v = some o)
    (asked : o.type ≠ none ∨ o.payload.truthTest? = none)
    (ran : (callOperator k "op_bool" [v] true).runUnder due m = .ok r m')
    (told : m'.heap.payload? r = some (.bool b)) : (truthy k v).runUnder due m = .ok b m' := by
  rw [callOperator_bool] at ran
  have read : (payload r).runUnder due m' = .ok (.bool b) m' := by rw [runUnder_payload, told]
  rw [truthy, runUnder_bind, runUnder_load live]
  dsimp only
  cases type : o.type with
  | some T =>
    simp only [runUnder_bind, ran, read]
    rfl
  | none =>
    have untested := asked.resolve_left fun typed => typed type
    cases data : o.payload <;> rw [data] at untested <;>
      first
      | (simp only [runUnder_bind, ran, read]
         rfl)
      | cases untested

/-! ### The test -/

theorem operandTypes_bool (h : Heap) (v : Ref) : h.operandTypes "op_bool" [v] = [h.typeOf v] := by
  rw [Heap.operandTypes]
  split <;> rfl

/-- If nothing is found for the truth of a value that takes it, the value is true. -/
theorem runUnder_bool_of_passesOver {e : Raised} (passes : m.heap.PassesOver "op_bool" [v] (m.heap.typeOf v) e) :
    (callOperator k "op_bool" [v] true).runUnder due m = .ok .yes m := by
  have chosen : m.heap.choose "op_bool" [v] (m.heap.operandTypes "op_bool" [v]) = .error [e.toErrorBody] := by
    rw [operandTypes_bool]
    exact Heap.choose_of_passesOver (.cons passes .nil)
  rw [callOperator_bool, runUnder_dispatch_of_choose_error rfl chosen]
  exact congrArg (EStateM.Result.ok Ref.yes) (m.truncateRoots_pushRoots _)

/-- What has what suits its data is as true as its data if it is taken, and otherwise true. -/
theorem exists_runUnder_bool (n : Nat) (due : Schedule) (tests : m.heap.TestsTruth v p)
    (holds : m.heap.payload? v = some p) (orderly : m.heap.Orderly) (can : m.CanNest 1) :
    ∃ b r m', (callOperator (reentry (n + 1)) "op_bool" [v] true).runUnder due m = .ok r m' ∧
      m'.heap = m.heap ∧ m.heap.payload? r = some (.bool b) ∧
      (m.heap.TakenByTest v → b = p.isTrue) ∧ (¬ m.heap.TakenByTest v → b = true) := by
  have yes : m.heap.payload? .yes = some (.bool true) := orderly.singletons (.yes, .bool true) (by decide)
  cases tests with
  | nothing untested absent =>
    refine ⟨true, .yes, m, runUnder_bool_of_passesOver (.absent absent), rfl, yes, fun _ => ?_, fun _ => rfl⟩
    exact (Payload.isTrue_of_untested untested).symm
  | @declared kind native method f tests found function makes =>
    by_cases fits : m.heap.isInstance v kind.ref
    · have taken := (Heap.takenByTest_iff found function makes).mpr fits
      have takes : (Declaration.truthMember kind native).Takes m.heap [v] :=
        ⟨by simp [Declaration.truthMember, Declaration.typed], .cons (fun k same => by cases same; exact fits) .nil⟩
      have implements : m.heap.Implements "op_bool" [v] (m.heap.typeOf v) ⟨f, ⟨[v], none⟩⟩ :=
        .intro method f _ found function (makes.matchArgs_of_takes takes)
      have chosen : m.heap.choose "op_bool" [v] (m.heap.operandTypes "op_bool" [v]) = .ok (.invoke ⟨f, ⟨[v], none⟩⟩) := by
        rw [operandTypes_bool]
        exact Heap.choose_cons_of_implements implements []
      obtain ⟨r, does, told⟩ := does_truthTest due (reentry n) orderly.singletons holds tests
      obtain ⟨inner, entered, -⟩ := can.exists_enter
      have ran : (callOperator (reentry (n + 1)) "op_bool" [v] true).runUnder due m =
          m.called f.name [v] (.ok r, m.heap) := by
        rw [callOperator_bool, runUnder_dispatch_of_choose_ok rfl chosen, invoke_native makes.body]
        show (keepingObjects [v] (calling f.name [v] (runNative (reentry n) native [v]))).runUnder due m = _
        exact does.called (objectNodes [v])
      refine ⟨p.isTrue, r, m.answered f.name, ?_, rfl, told, fun _ => rfl, fun refused => absurd taken refused⟩
      rw [ran, Machine.called_of_enter entered]
      rfl
    · have refused : ¬ m.heap.TakenByTest v := mt (Heap.takenByTest_iff found function makes).mp fits
      obtain ⟨e, mismatch⟩ : ∃ e, f.signature.matchArgs m.heap.isInstance (f.bound ++ [v]) f.bound.length = .error e :=
        makes.exists_mismatch (by simp [Declaration.truthMember, Declaration.typed]) rfl rfl
          (Bool.eq_false_iff.mpr fits)
      refine ⟨true, .yes, m, runUnder_bool_of_passesOver (.rejected method f e found function mismatch), rfl, yes,
        fun taken => absurd taken refused, fun _ => rfl⟩

/-! ### The three agree -/

/-- At any time in a session, while the built-in Types have the `op_bool` that was declared for them and no other, the
truth of a value that is no view and whose Type resolves `op_bool` as the Type of its data does is what `op_bool` gives,
if one call can be nested. If the value has no Type of its own, or is an instance of the Type for which the function
that is found declares its parameter, then its snapshot is as true as that, whatever the value holds; a snapshot there
is unless a handle dangles. Otherwise the value is true. -/
theorem truth_agrees {budget : Budget} {tracer : Tracer} {actions : List HostAction}
    (reachable : m.heap ∈ (Machine.boot budget tracer).passage actions) (stands : m.heap.TruthStands)
    (live : m.heap.object? v = some o) (noView : ∀ target cls, o.payload ≠ .baseView target cls)
    (resolves : m.heap.ResolvesTruth v o) (can : m.CanNest 1) (n : Nat) (due : Schedule) :
    ∃ b r m₁ m₂, (truthy (reentry (n + 1)) v).runUnder due m = .ok b m₁ ∧
      (callOperator (reentry (n + 1)) "op_bool" [v] true).runUnder due m = .ok r m₂ ∧
      m₁.heap = m.heap ∧ m₂.heap = m.heap ∧ m.heap.payload? r = some (.bool b) ∧
      (o.type = none ∨ m.heap.TakenByTest v →
        (∀ s, m.heap.snapshot? v = some s → s.isTruthy = b) ∧
        ((∀ a c, m.heap.RefersTo a c → m.heap.Occupied c) → ∃ s, m.heap.snapshot? v = some s)) ∧
      (¬ (o.type = none ∨ m.heap.TakenByTest v) → b = true) := by
  have orderly := Machine.orderly_of_mem_passage reachable
  have types := Machine.builtinsStand_of_mem_passage reachable
  have tests := resolves.tests live stands types
  have holds : m.heap.payload? v = some o.payload := by rw [Heap.payload?, live, Option.map_some]
  obtain ⟨b, r, m', ran, same, told, taken, refused⟩ := exists_runUnder_bool n due tests holds orderly can
  have accepted (agrees : o.type = none ∨ m.heap.TakenByTest v) : b = o.payload.isTrue :=
    taken (agrees.elim (fun untyped => Heap.takenByTest_of_untyped live untyped stands types) id)
  obtain ⟨m₁, tested, same₁⟩ : ∃ m₁, (truthy (reentry (n + 1)) v).runUnder due m = .ok b m₁ ∧ m₁.heap = m.heap := by
    by_cases short : o.type = none ∧ o.payload.truthTest? ≠ none
    · obtain ⟨untyped, tested⟩ := short
      obtain ⟨native, tested⟩ := Option.ne_none_iff_exists'.mp tested
      exact ⟨m, accepted (.inl untyped) ▸ runUnder_truthy_of_untyped live untyped tested, rfl⟩
    · have asked : o.type ≠ none ∨ o.payload.truthTest? = none := by
        rw [not_and_or, not_not] at short
        exact short
      exact ⟨m', runUnder_truthy_of_tested live asked ran (same.symm ▸ told), same⟩
  refine ⟨b, r, m₁, m', tested, ran, same₁, same, told, fun agrees => ⟨fun s taken => ?_, fun closed => ?_⟩, ?_⟩
  · exact (Heap.isTruthy_of_snapshot? live noView taken).trans (accepted agrees).symm
  · have size : ([] : List Ref).length + Heap.snapshotDepth = Heap.snapshotDepth := rfl
    obtain ⟨s, taken, -⟩ := Heap.exists_unfolds (fun r o q live refers => closed _ _ (.object live refers)) size
      (Option.isSome_iff_exists.mpr ⟨o, live⟩)
    exact ⟨s, taken⟩
  · exact fun refuses => refused fun taken => refuses (.inr taken)

/-- A program that makes an empty list of a Type `X`. -/
def emptyListOf (type : List Statement) : Code :=
  assemble (type ++ [.get "list", .op (.getMember "create"), .get "X", .op (.call 1), .define "v"])

/-- A Type that extends the one of lists. -/
def extendingList : Code := emptyListOf [.get "list", .typeDef "X" 1 [], .define "X"]

/-- A Type that has the truth test of lists, but is not theirs. -/
def borrowingTest : Code :=
  emptyListOf [.typeDef "X" 0 [], .define "X", .get "X", .get "list", .op (.getMember "op_bool"),
    .op (.setMember "op_bool")]

/-- The function that tests lists. -/
def listTest : Function where
  name := "op_bool"
  signature := ⟨[⟨"self", some Kind.list.ref, none, false⟩]⟩
  body := .native (.list .bool)
  bound := []

theorem makes_listTest : (Declaration.truthMember .list (.list .bool)).Makes listTest := by decide

/-- An empty list of a Type that extends the one of lists is false. -/
theorem truth_agrees_inheriting :
    let m := (Machine.boot .unlimited .silent).afterSession [.request .discarding (.run extendingList)]
    ∃ v s m', m.getGlobal? "v" = some v ∧ m.heap.typeOf v ≠ Kind.list.ref ∧
      (truthy (reentry 1) v).run m = .ok false m' ∧ m.heap.snapshot? v = some s ∧ s.isTruthy = false := by
  intro m
  have reachable : m.heap ∈ (Machine.boot .unlimited .silent).passage [.request .discarding (.run extendingList)] :=
    (Machine.boot .unlimited .silent).heap_afterSession_mem_passage _
  obtain ⟨stands, global, live, found, ownFound, function, fits, other, shown, can⟩ : m.heap.TruthStands ∧
      m.getGlobal? "v" = some ⟨143⟩ ∧ m.heap.object? ⟨143⟩ = some (.ofPayload (.list #[]) (some ⟨142⟩)) ∧
      m.heap.memberIn? (m.heap.mro (m.heap.typeOf ⟨143⟩)) "op_bool" = some ⟨100⟩ ∧
      m.heap.memberIn? (m.heap.mro Kind.list.ref) "op_bool" = some ⟨100⟩ ∧
      m.heap.payload? ⟨100⟩ = some (.function listTest) ∧ m.heap.isInstance ⟨143⟩ Kind.list.ref ∧
      m.heap.typeOf ⟨143⟩ ≠ Kind.list.ref ∧ (m.heap.snapshot? ⟨143⟩).map Snapshot.isTruthy = some false ∧
      m.CanNest 1 := by
    decide +kernel
  clear_value m
  have resolves : m.heap.ResolvesTruth ⟨143⟩ (.ofPayload (.list #[]) (some ⟨142⟩)) :=
    .of_shared found ownFound function makes_listTest (by decide)
  have taken : m.heap.TakenByTest ⟨143⟩ :=
    (Heap.takenByTest_iff (Heap.memberIn?_eq_some_iff.mp found) function makes_listTest).mpr fits
  obtain ⟨b, r, m₁, m₂, tested, -, -, -, -, agrees, -⟩ :=
    truth_agrees reachable stands live (by simp [Object.ofPayload]) resolves can 0 Heap.collectionDue
  obtain ⟨s, snapshot, falsy⟩ := Option.map_eq_some_iff.mp shown
  have isFalse : b = false := ((agrees (.inr taken)).1 s snapshot).symm.trans falsy
  subst isFalse
  exact ⟨⟨143⟩, s, m₁, global, other, tested, snapshot, falsy⟩

/-- The truth test of lists does not take an empty list whose Type is no list. So this is true, although the host sees
an empty list. -/
theorem true_although_empty :
    let m := (Machine.boot .unlimited .silent).afterSession [.request .discarding (.run borrowingTest)]
    m.heap ∈ (Machine.boot .unlimited .silent).passage [.request .discarding (.run borrowingTest)] ∧
      m.heap.TruthStands ∧ m.CanNest 1 ∧
      ∃ v o s, m.getGlobal? "v" = some v ∧ m.heap.object? v = some o ∧ o.payload = .list #[] ∧
        m.heap.ResolvesTruth v o ∧ (∃ m', (truthy (reentry 1) v).run m = .ok true m') ∧
        m.heap.snapshot? v = some s ∧ s.isTruthy = false := by
  intro m
  have reachable : m.heap ∈ (Machine.boot .unlimited .silent).passage [.request .discarding (.run borrowingTest)] :=
    (Machine.boot .unlimited .silent).heap_afterSession_mem_passage _
  obtain ⟨stands, global, live, found, ownFound, function, foreign, shown, can⟩ : m.heap.TruthStands ∧
      m.getGlobal? "v" = some ⟨143⟩ ∧ m.heap.object? ⟨143⟩ = some (.ofPayload (.list #[]) (some ⟨142⟩)) ∧
      m.heap.memberIn? (m.heap.mro (m.heap.typeOf ⟨143⟩)) "op_bool" = some ⟨100⟩ ∧
      m.heap.memberIn? (m.heap.mro Kind.list.ref) "op_bool" = some ⟨100⟩ ∧
      m.heap.payload? ⟨100⟩ = some (.function listTest) ∧ ¬ m.heap.isInstance ⟨143⟩ Kind.list.ref ∧
      (m.heap.snapshot? ⟨143⟩).map Snapshot.isTruthy = some false ∧ m.CanNest 1 := by
    decide +kernel
  clear_value m
  have resolves : m.heap.ResolvesTruth ⟨143⟩ (.ofPayload (.list #[]) (some ⟨142⟩)) :=
    .of_shared found ownFound function makes_listTest (by decide)
  have refused : ¬ m.heap.TakenByTest ⟨143⟩ :=
    mt (Heap.takenByTest_iff (Heap.memberIn?_eq_some_iff.mp found) function makes_listTest).mp foreign
  have tests := resolves.tests live stands (Machine.builtinsStand_of_mem_passage reachable)
  have holds : m.heap.payload? ⟨143⟩ = some (.list #[]) := by rw [Heap.payload?, live]; rfl
  obtain ⟨b, r, m', ran, same, told, -, isTrue⟩ := exists_runUnder_bool 0 Heap.collectionDue tests holds
    (Machine.orderly_of_mem_passage reachable) can
  obtain rfl := isTrue refused
  obtain ⟨s, snapshot, falsy⟩ := Option.map_eq_some_iff.mp shown
  have typed : Object.type (.ofPayload (.list #[]) (some ⟨142⟩)) ≠ none := by simp [Object.ofPayload]
  exact ⟨reachable, stands, can, ⟨143⟩, _, s, global, live, rfl, resolves,
    ⟨m', runUnder_truthy_of_tested live (.inl typed) ran (same.symm ▸ told)⟩, snapshot, falsy⟩

end Engine

end ObjectMachine
