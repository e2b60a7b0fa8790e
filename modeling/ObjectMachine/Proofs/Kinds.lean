import Mathlib.Tactic.ByContra
import ObjectMachine.Proofs.Sessions
/-!
Kind agreement. An object fits its Type if the Type is one, has ancestors, and inherits from a built-in
Type of data only if the object holds such data. Every operation keeps all objects fitting, except for
the creation of an object with a given Type, which may not fit. So all objects of a machine fit their
Types throughout a computation exactly if every object fits when it is created.
-/
namespace ObjectMachine

/-! ### Fitting -/

namespace Payload

/-- The kind of data in a payload; plain objects and errors hold none. -/
def kind? : Payload → Option Kind
  | plain | error .. => none
  | null => some .null
  | bool _ => some .bool
  | int _ => some .int
  | num _ => some .num
  | str _ => some .string
  | list _ => some .list
  | map _ => some .map
  | range _ => some .range
  | type _ => some .type
  | function _ => some .function
  | baseView .. => some .baseView
  | iterator _ => some .iterator
  | generator .. => some .generator

/-- Whether a payload is data of a kind. Integers are numbers. -/
def isOf (p : Payload) (k : Kind) : Bool :=
  match p.kind? with
  | some own => own.lineage.contains k
  | none => false

theorem typeRef_of_kind? {p : Payload} {k : Kind} (h : p.kind? = some k) : p.typeRef = k.ref := by
  cases p <;> cases h <;> rfl

theorem plain_or_error_of_kind? {p : Payload} (h : p.kind? = none) :
    p = plain ∨ ∃ trace causes, p = error trace causes := by
  cases p with
  | plain => exact .inl rfl
  | error trace causes => exact .inr ⟨trace, causes, rfl⟩
  | _ => cases h

end Payload

namespace Heap

/-- An object fits its Type. -/
def Fits (h : Heap) (o : Object) : Prop :=
  ∃ info, h.typeInfo? o.typeRef = some info ∧ info.mro ≠ [] ∧
    ∀ k : Kind, k ≠ .object → k.ref ∈ info.mro → o.payload.isOf k

/-- All objects fit their Types. -/
def KindsAgree (h : Heap) : Prop := ∀ r o, h.object? r = some o → h.Fits o

/-- What keeps all objects fitting: the free list is well formed, the built-in Types are as they were
at the start, and all objects fit. -/
structure Agrees (h : Heap) : Prop where
  /-- New objects get vacant slots. -/
  wellFormed : h.objects.WellFormed
  /-- The built-in Types are as they were at the start. -/
  builtin : ∀ r ∈ builtinTypeRefs, h.typeInfo? r = boot.typeInfo? r
  /-- All objects fit. -/
  kinds : h.KindsAgree

end Heap

/-! ### Built-in Types -/

namespace Kind

theorem ref_injective {k k' : Kind} (h : k.ref = k'.ref) : k = k' := by
  cases k <;> cases k' <;> first | rfl | exact absurd h (by decide)

theorem mem_all (k : Kind) : k ∈ all := by
  cases k <;> decide

theorem ref_mem_builtinTypeRefs (k : Kind) : k.ref ∈ builtinTypeRefs :=
  List.mem_append_left _ (List.mem_map_of_mem k.mem_all)

theorem mem_lineage_of_ref_mem {k own : Kind} (h : k.ref ∈ own.lineage.map ref) :
    k ∈ own.lineage := by
  obtain ⟨k', mem, same⟩ := List.mem_map.mp h
  exact ref_injective same ▸ mem

end Kind

namespace ErrorKind

theorem mem_all (k : ErrorKind) : k ∈ all := by
  cases k <;> decide

theorem ref_mem_builtinTypeRefs (k : ErrorKind) : k.ref ∈ builtinTypeRefs :=
  List.mem_append_right _ (List.mem_map_of_mem k.mem_all)

end ErrorKind

theorem Payload.typeRef_mem_builtinTypeRefs (p : Payload) : p.typeRef ∈ builtinTypeRefs := by
  cases p with
  | error trace causes => exact ErrorKind.ref_mem_builtinTypeRefs .error
  | _ => exact Kind.ref_mem_builtinTypeRefs _

namespace Heap

/-- At the start, the Type of a kind of data has the lineage of the kind as its ancestors. -/
theorem mro_boot_kind (k : Kind) :
    (boot.typeInfo? k.ref).map TypeInfo.mro = some (k.lineage.map Kind.ref) := by
  have all : Kind.all.all (fun k =>
      (boot.typeInfo? k.ref).map TypeInfo.mro == some (k.lineage.map Kind.ref)) := by
    decide +kernel
  exact eq_of_beq (List.all_eq_true.mp all k k.mem_all)

/-- At the start, a Type of errors has the kinds it refines and the root as its ancestors. -/
theorem mro_boot_error (k : ErrorKind) :
    (boot.typeInfo? k.ref).map TypeInfo.mro =
      some (k.lineage.map ErrorKind.ref ++ [Kind.object.ref]) := by
  have all : ErrorKind.all.all (fun k => (boot.typeInfo? k.ref).map TypeInfo.mro ==
      some (k.lineage.map ErrorKind.ref ++ [Kind.object.ref])) := by
    decide +kernel
  exact eq_of_beq (List.all_eq_true.mp all k k.mem_all)

/-- A Type of errors does not inherit from a Type of data. -/
theorem not_mem_mro_error (e : ErrorKind) (k : Kind) (data : k ≠ .object) :
    k.ref ∉ e.lineage.map ErrorKind.ref ++ [Kind.object.ref] := by
  revert data
  cases e <;> cases k <;> decide

theorem typeInfo?_congr {h h' : Heap} {r : Ref} (same : h'.object? r = h.object? r) :
    h'.typeInfo? r = h.typeInfo? r := by
  simp only [typeInfo?, payload?, same]

theorem exists_object_of_typeInfo? {h : Heap} {r : Ref} {info : TypeInfo}
    (found : h.typeInfo? r = some info) : ∃ o, h.object? r = some o ∧ o.payload = .type info := by
  simp only [typeInfo?, payload?] at found
  split at found
  · rename_i payload
    cases found
    obtain ⟨o, at_r, same⟩ := Option.map_eq_some_iff.mp payload
    exact ⟨o, at_r, same⟩
  · cases found

theorem isSome_boot_typeInfo? {r : Ref} (mem : r ∈ builtinTypeRefs) :
    ∃ info, boot.typeInfo? r = some info := by
  rcases List.mem_append.mp mem with mem | mem
  · obtain ⟨k, -, rfl⟩ := List.mem_map.mp mem
    obtain ⟨info, found, -⟩ := Option.map_eq_some_iff.mp (mro_boot_kind k)
    exact ⟨info, found⟩
  · obtain ⟨k, -, rfl⟩ := List.mem_map.mp mem
    obtain ⟨info, found, -⟩ := Option.map_eq_some_iff.mp (mro_boot_error k)
    exact ⟨info, found⟩

variable {h h' : Heap}

/-! ### Objects without a given Type -/

/-- The built-in Type of a payload, with the ancestors it had at the start, is no Type of other data. -/
theorem fits_of_untyped (builtin : ∀ r ∈ builtinTypeRefs, h.typeInfo? r = boot.typeInfo? r)
    {o : Object} (untyped : o.type = none) : h.Fits o := by
  have typeRef : o.typeRef = o.payload.typeRef := by simp only [Object.typeRef, untyped, Option.getD]
  have ofKind (k : Kind) (same : o.payload.typeRef = k.ref)
      (holds : ∀ k' ∈ k.lineage, k' ≠ .object → o.payload.isOf k') : h.Fits o := by
    obtain ⟨info, found, mro⟩ := Option.map_eq_some_iff.mp (mro_boot_kind k)
    refine ⟨info, ?_, ?_, ?_⟩
    · rw [typeRef, same, builtin _ k.ref_mem_builtinTypeRefs, found]
    · rw [mro]
      cases k <;> decide
    · intro k' data mem
      rw [mro] at mem
      exact holds k' (Kind.mem_lineage_of_ref_mem mem) data
  cases data : o.payload.kind? with
  | some k =>
    refine ofKind k (Payload.typeRef_of_kind? data) ?_
    intro k' mem _
    simpa [Payload.isOf, data] using mem
  | none =>
    rcases Payload.plain_or_error_of_kind? data with plain | ⟨trace, causes, error⟩
    · exact ofKind .object (by rw [plain]; rfl) (by simp [Kind.lineage])
    · obtain ⟨info, found, mro⟩ := Option.map_eq_some_iff.mp (mro_boot_error .error)
      refine ⟨info, ?_, ?_, ?_⟩
      · rw [typeRef, error]
        exact (builtin _ (ErrorKind.ref_mem_builtinTypeRefs _)).trans found
      · simp [mro]
      · intro k data mem
        rw [mro] at mem
        exact absurd mem (not_mem_mro_error .error k data)

/-! ### Changes of the heap -/

theorem Fits.congr {o : Object} (fits : h.Fits o)
    (same : h'.typeInfo? o.typeRef = h.typeInfo? o.typeRef) : h'.Fits o := by
  obtain ⟨info, found, rest⟩ := fits
  exact ⟨info, same.trans found, rest⟩

/-- What does not touch objects keeps them fitting. -/
theorem Agrees.of_objects_eq (agrees : h.Agrees) (same : h'.objects = h.objects) : h'.Agrees := by
  have object (r : Ref) : h'.object? r = h.object? r := by simp only [object?, same]
  refine ⟨same ▸ agrees.wellFormed, ?_, ?_⟩
  · intro r mem
    rw [typeInfo?_congr (object r)]
    exact agrees.builtin r mem
  · intro r o found
    rw [object r] at found
    exact (agrees.kinds r o found).congr (typeInfo?_congr (object _))

/-- Storing an object that fits where it is then keeps all objects fitting. -/
theorem Agrees.of_stores {r : Ref} {o : Object} (agrees : h.Agrees) (stores : h.Stores r o h')
    (fits : o.type.isSome → h'.Fits o) : h'.Agrees := by
  have typeInfo {t : Ref} {info : TypeInfo} (found : h.typeInfo? t = some info) :
      h'.typeInfo? t = h.typeInfo? t := by
    obtain ⟨o', at_t, -⟩ := exists_object_of_typeInfo? found
    have ne : t ≠ r := by
      rintro rfl
      rw [stores.vacant] at at_t
      cases at_t
    exact typeInfo?_congr (by rw [stores.object?, if_neg ne])
  have builtin : ∀ r ∈ builtinTypeRefs, h'.typeInfo? r = boot.typeInfo? r := by
    intro t mem
    obtain ⟨info, found⟩ := isSome_boot_typeInfo? mem
    rw [typeInfo ((agrees.builtin t mem).trans found)]
    exact agrees.builtin t mem
  have old {o' : Object} (fits : h.Fits o') : h'.Fits o' := by
    obtain ⟨info, found, -⟩ := id fits
    exact fits.congr (typeInfo found)
  refine ⟨stores.wellFormed, builtin, ?_⟩
  intro t o' found
  rw [stores.object?] at found
  split at found
  · cases found
    cases typed : o.type with
    | none => exact old (fits_of_untyped agrees.builtin typed)
    | some type => exact fits (by simp [typed])
  · exact old (agrees.kinds t o' found)

theorem kind?_onPayload (c : Change) (p : Payload) : (c.onPayload p).kind? = p.kind? := by
  cases c <;> cases p <;> rfl

theorem typeRef_apply (c : Change) (o : Object) : (c.apply o).typeRef = o.typeRef := by
  obtain ⟨type, members, payload⟩ := o
  cases c <;> cases payload <;> rfl

/-- A change makes no Type and changes no Type. -/
theorem onPayload_eq_type_iff (c : Change) (p : Payload) (info : TypeInfo) :
    c.onPayload p = .type info ↔ p = .type info := by
  cases c <;> cases p <;> simp [Change.onPayload]

theorem payload?_modify (h : Heap) (r : Ref) (c : Change) (r' : Ref) :
    (h.modify r c.apply).payload? r' =
      if r = r' then (h.payload? r').map c.onPayload else h.payload? r' := by
  simp only [payload?, object?_modify]
  split
  · cases h.object? r' <;> rfl
  · rfl

theorem typeInfo?_eq_some_iff {h : Heap} {t : Ref} {info : TypeInfo} :
    h.typeInfo? t = some info ↔ h.payload? t = some (.type info) := by
  simp only [typeInfo?]
  split <;> simp_all

theorem typeInfo?_modify (h : Heap) (r : Ref) (c : Change) (t : Ref) :
    (h.modify r c.apply).typeInfo? t = h.typeInfo? t := by
  rw [Option.ext_iff]
  intro info
  rw [typeInfo?_eq_some_iff, typeInfo?_eq_some_iff, payload?_modify]
  split
  · cases h.payload? t with
    | none => rfl
    | some p => simp [onPayload_eq_type_iff]
  · rfl

/-- Changing an object keeps all objects fitting. -/
theorem Agrees.modify (agrees : h.Agrees) (r : Ref) (c : Change) : (h.modify r c.apply).Agrees := by
  refine ⟨agrees.wellFormed.modify _ _, ?_, ?_⟩
  · intro t mem
    rw [typeInfo?_modify]
    exact agrees.builtin t mem
  · intro t o found
    rw [object?_modify] at found
    have same : ∀ o', h.object? t = some o' → o.typeRef = o'.typeRef →
        o'.payload.kind? = o.payload.kind? → (h.modify r c.apply).Fits o := by
      intro o' found' type kind
      obtain ⟨info, at_type, mro, holds⟩ := agrees.kinds t o' found'
      refine ⟨info, ?_, mro, ?_⟩
      · rw [typeInfo?_modify, type, at_type]
      · intro k data mem
        rw [← holds k data mem]
        simp only [Payload.isOf, kind]
    split at found
    · obtain ⟨o', found', rfl⟩ := Option.map_eq_some_iff.mp found
      exact same o' found' (typeRef_apply c o') (kind?_onPayload c o'.payload).symm
    · exact same o found rfl rfl

/-- A collection keeps the Types of the objects that it keeps, and the built-in Types. -/
theorem Agrees.collect (agrees : h.Agrees) (roots : List Node) : (h.collect roots).2.Agrees := by
  have kept {t : Ref} (marked : (h.reached roots).marked (.object t)) :
      (h.collect roots).2.typeInfo? t = h.typeInfo? t :=
    typeInfo?_congr (by rw [object?_collect, if_pos marked])
  have builtin {t : Ref} (mem : t ∈ builtinTypeRefs) :
      (h.reached roots).marked (.object t) := by
    obtain ⟨info, found⟩ := isSome_boot_typeInfo? mem
    obtain ⟨o, at_t, -⟩ := exists_object_of_typeInfo? ((agrees.builtin t mem).trans found)
    have permanent : .object t ∈ permanentRoots :=
      List.mem_map_of_mem (List.mem_append_right _ mem)
    exact marked_reached_of_root (List.mem_append_left _ permanent) (hasSlot_of_object? at_t)
  refine ⟨wellFormed_collect agrees.wellFormed roots, ?_, ?_⟩
  · intro t mem
    rw [kept (builtin mem)]
    exact agrees.builtin t mem
  · intro r o found
    rw [object?_collect] at found
    split at found
    · rename_i marked
      have fits := agrees.kinds r o found
      refine fits.congr (kept ?_)
      obtain ⟨info, at_type, -⟩ := fits
      obtain ⟨o', at_t, -⟩ := exists_object_of_typeInfo? at_type
      cases typed : o.type with
      | none =>
        have typeRef : o.typeRef = o.payload.typeRef := by
          simp only [Object.typeRef, typed, Option.getD]
        rw [typeRef]
        exact builtin (Payload.typeRef_mem_builtinTypeRefs _)
      | some type =>
        have typeRef : o.typeRef = type := by simp only [Object.typeRef, typed, Option.getD]
        rw [typeRef] at at_t ⊢
        refine marked_reached_of_link marked ?_ (hasSlot_of_object? at_t)
        simp [linksOf, found, Object.links, objectNodes, typed]
    · cases found

/-! ### The start and the host -/

theorem wellFormed_boot : boot.objects.WellFormed :=
  .of_full (by decide +kernel) (by decide +kernel)

/-- At the start, no object has a Type other than the one of its payload. -/
theorem type_boot {r : Ref} {o : Object} (found : boot.object? r = some o) : o.type = none := by
  have untyped : boot.objects.slots.toList.all (fun x => x.all fun o => o.type.isNone) := by
    decide +kernel
  simp only [object?, Arena.get?, Option.join_eq_some_iff] at found
  have mem : some o ∈ boot.objects.slots.toList := by
    simpa using Array.mem_of_getElem? found
  simpa using List.all_eq_true.mp untyped (some o) mem

/-- At the start, all objects fit their Types. -/
theorem agrees_boot : boot.Agrees :=
  ⟨wellFormed_boot, fun _ _ => rfl, fun _ _ found => fits_of_untyped (fun _ _ => rfl) (type_boot found)⟩

theorem agrees_survivesEnds : SurvivesEnds Agrees :=
  fun _ r agrees => agrees.modify r _

/-- A host stores data without a given Type. -/
theorem agrees_survivesHost : SurvivesHost Agrees where
  store h p storable agrees := by
    cases stored : h.allocate (.ofPayload p none) with
    | mk result h' =>
      cases result with
      | error e => exact agrees.of_objects_eq (allocate_error stored).1
      | ok r => exact agrees.of_stores (stores_of_allocate agrees.wellFormed stored) (by simp [Object.ofPayload])
  vars _ _ same agrees := agrees.of_objects_eq same
  collect _ nodes agrees := agrees.collect nodes

end Heap

/-! ### Computations -/

/-- Whether a moment creates an object with a given Type that does not fit. -/
def Moment.Misfit (due : Schedule) : Moment → Prop
  | acts (.store o) _ m =>
    o.type.isSome ∧ ∃ r m', (Op.store o).perform due m = .ok r m' ∧ ¬ m'.heap.Fits o
  | forgiven moment => moment.Misfit due
  | _ => False

namespace Op

variable {due : Schedule} {α : Type} {m m' : Machine}

theorem heap_onHeap (f : Heap → Except Exhaustion α × Heap) (m : Machine) :
    (onHeap f m).machine.heap = (f m.heap).2 := by
  simp only [onHeap]
  split <;> rename_i changed <;> rw [changed] <;> rfl

/-- Every operation keeps all objects fitting, unless it creates one that does not fit. -/
theorem perform_agrees (o : Op α) (held : List Node) (agrees : m.heap.Agrees)
    (fits : ¬ (Moment.acts o held m).Misfit due) : (o.perform due m).machine.heap.Agrees := by
  cases o with
  | ask f => exact agrees
  | load r => simp only [perform]; split <;> exact agrees
  | loadScope s => simp only [perform]; split <;> exact agrees
  | store o =>
    cases stored : m.heap.allocate o with
    | mk result h' =>
      rw [perform, heap_onHeap, stored]
      cases result with
      | error e => exact agrees.of_objects_eq (Heap.allocate_error stored).1
      | ok r =>
        refine agrees.of_stores (Heap.stores_of_allocate agrees.wellFormed stored) ?_
        intro typed
        by_contra misfit
        refine fits ⟨typed, r, m.withHeap fun _ => h', ?_, misfit⟩
        simp only [perform, onHeap, stored, Machine.withHeap]
  | storeType name parents =>
    cases stored : m.heap.allocateType name parents with
    | mk result h' =>
      rw [perform, heap_onHeap, stored]
      cases result with
      | error e => exact agrees.of_objects_eq (Heap.allocateType_error stored)
      | ok result =>
        obtain ⟨r, info, stores, -⟩ := Heap.stores_of_allocateType agrees.wellFormed stored
        exact agrees.of_stores stores (by simp [Object.ofPayload])
  | openScope outer =>
    rw [perform, heap_onHeap]
    exact agrees.of_objects_eq (m.heap.objects_allocateScope _)
  | change r c =>
    simp only [perform]
    split
    · exact agrees.modify r c
    · exact agrees
  | define s name value => exact agrees.of_objects_eq (m.heap.objects_define s name value)
  | assign s name value => exact agrees.of_objects_eq (m.heap.objects_assign s name value)
  | undefine s name => exact agrees.of_objects_eq (m.heap.objects_undefine s name)
  | tick =>
    rw [perform, heap_onHeap]
    exact agrees.of_objects_eq rfl
  | collectIfDue nodes =>
    simp only [perform, Outcome.machine]
    split
    · exact agrees.collect _
    · exact agrees
  | pushRoots nodes => exact agrees
  | observe e => exact agrees
  | note n => exact agrees
  | print s => simp only [perform, printTo]; split <;> exact agrees
  | beginRequest => exact agrees.of_objects_eq rfl
  | raise c => exact agrees

end Op

namespace Moment

variable {due : Schedule} {moment : Moment}

/-- A moment keeps all objects fitting exactly if it creates none that does not fit. -/
theorem keeps_agrees (fits : ¬ moment.Misfit due) : moment.Keeps due Heap.Agrees := by
  induction moment with
  | acts o held m => exact fun agrees => o.perform_agrees held agrees fits
  | forgiven moment ih => exact ih fits
  | _ => exact id

/-- An object that does not fit when it is created is there afterwards. -/
theorem not_misfit (agrees : moment.machine.heap.Agrees)
    (after : (moment.heapAfter due).KindsAgree) : ¬ moment.Misfit due := by
  induction moment with
  | acts o held m =>
    cases o with
    | store o =>
      rintro ⟨-, r, m', stored, misfit⟩
      refine misfit ?_
      simp only [heapAfter, stored, Outcome.machine] at after
      cases allocated : m.heap.allocate o with
      | mk result h' =>
        simp only [Op.perform, Op.onHeap, allocated] at stored
        cases result with
        | error e => cases stored
        | ok r' =>
          cases stored
          have stores := Heap.stores_of_allocate agrees.wellFormed allocated
          exact after _ o (by rw [stores.object?, if_pos rfl])
    | _ => exact id
  | forgiven moment ih => exact ih agrees after
  | _ => exact id

end Moment

end ObjectMachine
