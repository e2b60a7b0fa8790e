import Mathlib.Data.List.Forall2
import ObjectMachine.Proofs.Furnishing
import ObjectMachine.Proofs.ReadBack
import ObjectMachine.Proofs.Succeeding
/-!
Operators on values of the built-in kinds. As long as a Type has the members that were declared for it, the one of
the operator's name is found first among the ancestors. If the operands are as its parameters say it runs, one call
deeper; if one is not, the Type is passed over.
-/
namespace ObjectMachine

/-- Lists that are related place by place. -/
theorem forall₂_of_getElem? {α β : Type} {R : α → β → Prop} {l : List α} {l' : List β} (length : l'.length = l.length)
    (each : ∀ (i : Nat) a b, l[i]? = some a → l'[i]? = some b → R a b) : List.Forall₂ R l l' :=
  List.forall₂_iff_get.mpr ⟨length.symm, fun i inside inside' =>
    each i _ _ (List.getElem?_eq_getElem inside) (List.getElem?_eq_getElem inside')⟩

namespace Heap

variable {h h' : Heap}

/-- Slots are in order, and the built-in Types are as they were at the start, with the members declared for them. -/
structure Equipped (h : Heap) : Prop where
  /-- New objects get vacant slots. -/
  objects : h.objects.WellFormed
  /-- The Types are there. -/
  stand : h.BuiltinsStand
  /-- They have their members. -/
  furnished : ∀ k, ∀ d ∈ Declaration.ofKind k, h.Furnished k.ref d

theorem Equipped.of_adds (equipped : h.Equipped) (adds : h.Adds h') : h'.Equipped where
  objects := adds.wellFormed
  stand := adds.builtinsStand equipped.stand
  furnished k d mem := (equipped.furnished k d mem).of_adds adds

theorem BuiltinsStand.mro_kind (stand : h.BuiltinsStand) (k : Kind) : h.mro k.ref = k.lineage.map Kind.ref := by
  rw [mro, stand _ k.ref_mem_builtinTypeRefs, mro_boot_kind, Option.getD_some]

theorem typeOf_of_untyped {r : Ref} {o : Object} (live : h.object? r = some o) (untyped : o.type = none) :
    h.typeOf r = o.payload.typeRef := by
  rw [typeOf, live, Option.map_some, Option.getD_some, Object.typeRef, untyped, Option.getD_none]

end Heap

/-- A machine has all objects of a heap as they are there, and can nest so many calls. -/
structure Machine.Extends (m : Machine) (h : Heap) (n : Nat) : Prop where
  /-- Objects were only added. -/
  adds : h.Adds m.heap
  /-- There is room for calls. -/
  can : m.CanNest n

namespace Machine.Extends

variable {m m' inner : Machine} {h : Heap} {n k : Nat}

theorem of_spends (ready : m.Extends h n) (spends : m.Spends k m') : m'.Extends h n :=
  ⟨ready.adds.trans spends.retains.adds, ready.can.of_nesting_eq spends.nesting⟩

theorem pushRoots (ready : m.Extends h n) (nodes : List Node) : (m.pushRoots nodes).Extends h n :=
  ⟨ready.adds, ready.can⟩

theorem exists_enter (ready : m.Extends h (n + 1)) (e : Nat → Event) :
    ∃ inner, m.enter = .ok inner ∧ (inner.observe e).Extends h n := by
  obtain ⟨inner, entered, can⟩ := ready.can.exists_enter
  refine ⟨inner, entered, ?_, can⟩
  show h.Adds inner.heap
  rw [Machine.heap_of_enter entered]
  exact ready.adds

end Machine.Extends

/-- So they are at the start. -/
theorem Machine.equipped_boot (budget : Budget) (tracer : Tracer) : (boot budget tracer).heap.Equipped := by
  have reachable : (boot budget tracer).heap ∈ (boot budget tracer).passage [] :=
    (boot budget tracer).heap_afterSession_mem_passage []
  refine ⟨(orderly_of_mem_passage reachable).objects, builtinsStand_of_mem_passage reachable, fun k d declared => ?_⟩
  rw [heap_boot]
  exact (Heap.furnished_boot k d declared).withBudget budget

/-- So they are after values were stored. -/
theorem Machine.equipped_stores (budget : Budget) (tracer : Tracer) (values : List Snapshot) :
    ((boot budget tracer).afterSession (values.map .store)).heap.Equipped := by
  have orderly : (boot budget tracer).heap.Orderly :=
    orderly_of_mem_passage ((boot budget tracer).heap_afterSession_mem_passage [])
  exact (equipped_boot budget tracer).of_adds (retains_of_stores orderly values).adds

/-! ### Operands -/

namespace Declaration

variable {h : Heap} {d : Declaration} {f : Function} {args more : List Ref} {r : Ref} {kind : Kind}
  {p : DeclaredParam} {later : List DeclaredParam}

/-- An argument is of the kind that is declared for its parameter, if one is. -/
def Fits (h : Heap) (p : DeclaredParam) (r : Ref) : Prop := ∀ kind ∈ p.type, h.isInstance r kind.ref

/-- The arguments of a call are one for each parameter, and none collects. -/
structure Takes (h : Heap) (d : Declaration) (args : List Ref) : Prop where
  /-- No parameter collects. -/
  single : ∀ p ∈ d.params, p.rest = false
  /-- Each argument fits its parameter. -/
  fits : List.Forall₂ (Fits h) d.params args

theorem fits_any (name : String) : Fits h (any name) r := fun _ none => by cases none

theorem fits_of_isInstance (name : String) (isInstance : h.isInstance r kind.ref) : Fits h (typed name kind) r :=
  fun _ same => Option.some.inj same ▸ isInstance

theorem fits_typed (name : String) (typeOf : h.typeOf r = kind.ref) : Fits h (typed name kind) r :=
  fits_of_isInstance name (by simp [Heap.isInstance, Heap.isSubtype, typeOf])

/-- If no parameter is declared to collect, all are places for one argument. -/
theorem Makes.places (makes : d.Makes f) (single : ∀ p ∈ d.params, p.rest = false) :
    f.signature.restParam? = none ∧ f.signature.positional = f.signature.params := by
  have noRest : f.signature.restParam? = none := by
    rw [Signature.restParam?]
    split
    · rename_i q last
      obtain ⟨i, inside, rfl⟩ := List.getElem_of_mem (List.mem_of_getLast? last)
      have inside' : i < d.params.length := makes.params.length_eq ▸ inside
      have made := makes.params.get inside' inside
      have rest : f.signature.params[i].rest = false := made.rest.trans (single _ (List.getElem_mem inside'))
      rw [rest]
      rfl
    · rfl
  refine ⟨noRest, ?_⟩
  rw [Signature.positional, Signature.hasRest, noRest]
  rfl

theorem checkType_eq {q : Param} (makes : p.Makes q) (fits : Fits h p r) :
    Signature.checkType h.isInstance q r = .ok () := by
  rw [Signature.checkType, makes.type]
  cases declared : p.type with
  | none => rfl
  | some kind => exact if_pos (fits kind declared)

theorem checkType_of_foreign {q : Param} (makes : p.Makes q) (type : p.type = some kind)
    (foreign : h.isInstance r kind.ref = false) :
    Signature.checkType h.isInstance q r = .error (.wrongType p.name kind.ref r) := by
  rw [Signature.checkType, makes.type, type, Option.map_some, ← makes.name]
  exact if_neg (by rw [foreign]; exact Bool.false_ne_true)

theorem fill_cons (isInstance : Ref → Ref → Bool) (q : Param) (made : List Param) (r : Ref) (args : List Ref) :
    Signature.fill isInstance (q :: made) (r :: args) =
      (do
        Signature.checkType isInstance q r
        let (values, left) ← Signature.fill isInstance made args
        return (r :: values, left)) :=
  rfl

theorem fill_eq {params : List DeclaredParam} {made : List Param} (makes : List.Forall₂ DeclaredParam.Makes params made)
    (fits : List.Forall₂ (Fits h) params args) : Signature.fill h.isInstance made args = .ok (args, []) := by
  induction makes generalizing args with
  | nil =>
    cases fits
    rfl
  | cons first _ ih =>
    cases fits with
    | cons fit fits =>
      rw [fill_cons, checkType_eq first fit, ih fits]
      rfl

/-- A function as it was declared takes such arguments as they are. -/
theorem Makes.matchArgs_of_takes (makes : d.Makes f) (takes : d.Takes h args) :
    f.signature.matchArgs h.isInstance (f.bound ++ args) f.bound.length = .ok ⟨args, none⟩ := by
  obtain ⟨noRest, positional⟩ := makes.places takes.single
  have length : f.signature.params.length = args.length := makes.params.length_eq.symm.trans takes.fits.length_eq
  have few : (decide (args.length < args.length) && !f.signature.hasRest) = false := by simp
  have filled := fill_eq makes.params takes.fits
  rw [makes.bound, List.nil_append, Signature.matchArgs, positional, length, few, filled, noRest]
  rfl

/-- It refuses arguments of which the first is not of the declared kind. -/
theorem Makes.exists_mismatch (makes : d.Makes f) (single : ∀ p ∈ d.params, p.rest = false)
    (params : d.params = p :: later) (type : p.type = some kind) (foreign : h.isInstance r kind.ref = false) :
    ∃ e, f.signature.matchArgs h.isInstance (f.bound ++ r :: more) f.bound.length = .error e := by
  obtain ⟨noRest, positional⟩ := makes.places single
  have made := makes.params
  rw [params] at made
  rw [makes.bound, List.nil_append, Signature.matchArgs, positional]
  cases places : f.signature.params with
  | nil =>
    rw [places] at made
    cases made
  | cons q others =>
    rw [places] at made
    cases made with
    | cons first _ =>
      split
      · exact ⟨_, rfl⟩
      · rw [fill_cons, checkType_of_foreign first type foreign]
        exact ⟨_, rfl⟩

/-- If they are as many as the parameters, it says so. -/
theorem Makes.matchArgs_of_foreign (makes : d.Makes f) (single : ∀ p ∈ d.params, p.rest = false)
    (params : d.params = p :: later) (type : p.type = some kind) (foreign : h.isInstance r kind.ref = false)
    (length : d.params.length = (r :: more).length) :
    f.signature.matchArgs h.isInstance (f.bound ++ r :: more) f.bound.length =
      .error (.wrongType p.name kind.ref r) := by
  obtain ⟨noRest, positional⟩ := makes.places single
  have made := makes.params
  rw [makes.params.length_eq] at length
  rw [params] at made
  rw [makes.bound, List.nil_append, Signature.matchArgs, positional]
  cases places : f.signature.params with
  | nil =>
    rw [places] at made
    cases made
  | cons q others =>
    rw [places] at made length
    cases made with
    | cons first _ =>
      have few : (decide ((q :: others).length < (r :: more).length) && !f.signature.hasRest) = false := by
        simp [length]
      rw [few, fill_cons, checkType_of_foreign first type foreign]
      rfl

end Declaration

/-! ### Types -/

namespace Heap

variable {h : Heap} {d : Declaration} {args more : List Ref} {r : Ref} {kind : Kind} {p : DeclaredParam}
  {later : List DeclaredParam}

/-- The member of a Type that was declared for it is the one that is found. -/
theorem Furnished.foundAlong (furnished : h.Furnished kind.ref d) (stand : h.BuiltinsStand) :
    ∃ method f, h.FoundAlong kind.ref d.name method ∧ h.payload? method = some (.function f) ∧ d.Makes f := by
  obtain ⟨method, member, f, function, makes⟩ := furnished
  obtain ⟨ancestors, mro⟩ : ∃ ancestors, h.mro kind.ref = kind.ref :: ancestors := by
    rw [stand.mro_kind]
    cases kind <;> exact ⟨_, rfl⟩
  exact ⟨method, f, ⟨[], kind.ref, ancestors, mro, member, List.forall_mem_nil _⟩, function, makes⟩

theorem Equipped.foundAlong (equipped : h.Equipped) (declared : d ∈ Declaration.ofKind kind) :
    ∃ method f, h.FoundAlong kind.ref d.name method ∧ h.payload? method = some (.function f) ∧ d.Makes f :=
  (equipped.furnished kind d declared).foundAlong equipped.stand

/-- For operands that it takes, it is the one that runs. -/
theorem Equipped.exists_implements (equipped : h.Equipped) (declared : d ∈ Declaration.ofKind kind)
    (takes : d.Takes h args) :
    ∃ f : Function, f.body = .native d.native ∧ h.Implements d.name args kind.ref ⟨f, ⟨args, none⟩⟩ := by
  obtain ⟨method, f, found, function, makes⟩ := equipped.foundAlong declared
  exact ⟨f, makes.body, .intro method f _ found function (makes.matchArgs_of_takes takes)⟩

/-- An object is no instance of a kind that its own does not extend. -/
theorem Equipped.isInstance_eq_false {own : Kind} (equipped : h.Equipped) (typeOf : h.typeOf r = own.ref)
    (other : kind ∉ own.lineage) : h.isInstance r kind.ref = false := by
  have self : own ∈ own.lineage := by cases own <;> decide
  have outside : kind.ref ∉ own.lineage.map Kind.ref := fun mem => other (Kind.mem_lineage_of_ref_mem mem)
  have different : own.ref ≠ kind.ref := fun same => outside (same ▸ List.mem_map_of_mem self)
  rw [isInstance.eq_def, isSubtype, typeOf, equipped.stand.mro_kind, beq_false_of_ne different, Bool.false_or]
  exact Bool.eq_false_iff.mpr fun contained => outside (List.contains_iff_mem.mp contained)

/-- For a first operand of another kind than was declared, the Type is passed over. -/
theorem Equipped.exists_passesOver (equipped : h.Equipped) (declared : d ∈ Declaration.ofKind kind)
    (single : ∀ p ∈ d.params, p.rest = false) (params : d.params = p :: later) (type : p.type = some kind)
    (foreign : h.isInstance r kind.ref = false) : ∃ e, h.PassesOver d.name (r :: more) kind.ref e := by
  obtain ⟨method, f, found, function, makes⟩ := equipped.foundAlong declared
  obtain ⟨e, refused⟩ := makes.exists_mismatch single params type foreign
  exact ⟨_, .rejected method f e found function refused⟩

end Heap

/-! ### Calls -/

namespace Engine

variable {due : Schedule} {m : Machine} {h : Heap} {d : Declaration} {args : List Ref} {before later : List Ref}
  {kind : Kind} {n cost fuel : Nat} {good : Ref → Heap → Prop} {fallback : Option (Engine Ref)}

/-- A native function that is chosen for an operator runs one call deeper. -/
theorem succeeds_dispatch_of_chosen {name : String} {f : Function} {native : Native}
    (right : Special.wrongOperands? name args.length = none) (body : f.body = .native native)
    (chosen : m.heap.choose name args (m.heap.operandTypes name args) = .ok (.invoke ⟨f, ⟨args, none⟩⟩))
    (ready : m.Extends h (n + 1))
    (inside : ∀ m' : Machine, m'.Extends h n → Succeeds due (runNative (reentry fuel) native args) cost good m') :
    Succeeds due (dispatch (reentry (fuel + 1)) name args fallback) cost good m := by
  have invoked : (reentry (fuel + 1)).invoke ⟨f, ⟨args, none⟩⟩ =
      calling f.name args (runNative (reentry fuel) native args) := by
    show invokeWith (fuel + 1) _ = _
    simp only [invokeWith, invoke, body, Matched.toList, Option.getD_none, List.append_nil]
    rfl
  obtain ⟨inner, entered, ready'⟩ := (ready.pushRoots (objectNodes args)).exists_enter (.call f.name)
  have called : Succeeds due (calling f.name args (runNative (reentry fuel) native args)) cost good _ :=
    (inside _ ready').calling entered
  rw [← invoked] at called
  exact called.keeping.of_runUnder_eq (runUnder_dispatch_of_choose_ok right chosen)

/-- After Types that pass over, the member that was declared for an operator runs one call deeper. -/
theorem succeeds_dispatch (equipped : h.Equipped) (declared : d ∈ Declaration.ofKind kind)
    (ready : m.Extends h (n + 1)) (right : Special.wrongOperands? d.name args.length = none)
    (types : m.heap.operandTypes d.name args = before ++ kind.ref :: later)
    (pass : ∀ t ∈ before, ∃ e, m.heap.PassesOver d.name args t e) (takes : d.Takes m.heap args)
    (inside : ∀ m' : Machine, m'.Extends h n →
      Succeeds due (runNative (reentry fuel) d.native args) cost good m') :
    Succeeds due (dispatch (reentry (fuel + 1)) d.name args fallback) cost good m := by
  obtain ⟨f, body, implements⟩ := (equipped.of_adds ready.adds).exists_implements declared takes
  have chosen : m.heap.choose d.name args (m.heap.operandTypes d.name args) = .ok (.invoke ⟨f, ⟨args, none⟩⟩) := by
    rw [types]
    exact Heap.choose_of_implements pass implements
  exact succeeds_dispatch_of_chosen right body chosen ready inside

end Engine

end ObjectMachine
