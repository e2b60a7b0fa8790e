import ObjectMachine.Proofs.Kinds
/-!
What objects rely on. An iterator relies on the kind of data it runs over, and the function object of a
built-in function on the declaration of that function: its parameters are declared with the kinds of
data that the function is going to read. Every operation keeps this for all objects, if the objects it
creates and the iterators it moves respect it.
-/
namespace ObjectMachine

/-! ### What built-in functions read -/

namespace Native

/-- The kind of data that a built-in function reads in each of its arguments. -/
def needs : Native → List (Option Kind)
  | .number .createNum | .number .createInt => []
  | .number .neg | .number .bool | .number .str | .number .eq => [some .num]
  | .number _ => [some .num, some .num]
  | .truth _ => []
  | .text .eq | .text .create => []
  | .text .add | .text .contains | .text .lt | .text .le | .text .gt | .text .ge =>
    [some .string, some .string]
  | .text .join => [some .string, some .list]
  | .text _ => [some .string]
  | .list .create => []
  | .list .add => [some .list, some .list]
  | .list _ => [some .list]
  | .map .create => []
  | .map _ => [some .map]
  | .range .create => []
  | .range _ => [some .range]
  | .object .bind | .object .functionStr => [some .function]
  | .object .iteratorNext => [some .iterator]
  | .object .generatorNext => [some .generator]
  | .object _ => []
  | .global .rawGet | .global .rawSet | .global .hasMember => [none, some .string]
  | .global _ => []

end Native

namespace Signature

/-- Whether leading parameters that do not collect are declared with kinds that refine given ones. -/
def declares : List (Option Kind) → List Param → Bool
  | [], _ => true
  | _ :: _, [] => false
  | need :: needs, p :: params =>
    !p.rest &&
      (match need with
      | none => true
      | some k => Kind.all.any fun own => p.type == some own.ref && own.lineage.contains k) &&
      declares needs params

end Signature

namespace Function

/-- Whether the parameters of a built-in function are declared with the kinds that it reads. -/
def isDeclared (f : Function) : Bool :=
  match f.body with
  | .native n => Signature.declares n.needs f.signature.params
  | .code .. => true

end Function

/-! ### What objects rely on -/

namespace Kind

theorem mem_lineage (k : Kind) : k ∈ k.lineage := by
  cases k <;> decide

theorem mem_lineage_trans {k k' k'' : Kind} (h : k ∈ k'.lineage) (h' : k' ∈ k''.lineage) :
    k ∈ k''.lineage := by
  cases k'' <;> cases k' <;> grind [lineage]

end Kind

namespace Heap

/-- A handle leads to data of a kind. -/
def Holds (h : Heap) (r : Ref) (k : Kind) : Prop := ∃ p, h.payload? r = some p ∧ p.isOf k

end Heap

namespace Cursor

/-- An iterator runs over the kind of data it was made for. -/
def Relies (h : Heap) : Cursor → Prop
  | list r _ => h.Holds r .list
  | text r _ => h.Holds r .string
  | keys r _ => h.Holds r .map
  | range .. => True

end Cursor

namespace Payload

/-- What a payload relies on. -/
def Relies (h : Heap) : Payload → Prop
  | iterator cursor => cursor.Relies h
  | function f => f.isDeclared
  | _ => True

end Payload

namespace Heap

/-- Everything that objects rely on is there. -/
def Reliable (h : Heap) : Prop := ∀ r o, h.object? r = some o → o.payload.Relies h

/-- All objects fit their Types, and everything that they rely on is there. -/
structure Sound (h : Heap) : Prop where
  /-- All objects fit their Types. -/
  agrees : h.Agrees
  /-- Everything that objects rely on is there. -/
  reliable : h.Reliable

variable {h h' : Heap} {r : Ref} {k : Kind}

theorem holds_of_payload? {p : Payload} (found : h.payload? r = some p) (kind : p.isOf k) : h.Holds r k :=
  ⟨p, found, kind⟩

theorem Holds.refines {own : Kind} (holds : h.Holds r own) (refines : k ∈ own.lineage) :
    h.Holds r k := by
  obtain ⟨p, found, kind⟩ := holds
  refine ⟨p, found, ?_⟩
  cases data : p.kind? with
  | none => simp [Payload.isOf, data] at kind
  | some k' =>
    simp only [Payload.isOf, data, List.contains_iff_mem] at kind ⊢
    exact Kind.mem_lineage_trans refines kind

theorem mro_of_typeInfo? {type : Ref} {info : TypeInfo} (found : h.typeInfo? type = some info) :
    h.mro type = info.mro := by
  simp only [mro, found, Option.map_some, Option.getD_some]

/-- The ancestors of a built-in Type of data. -/
theorem Agrees.mro_kind (agrees : h.Agrees) (k : Kind) : h.mro k.ref = k.lineage.map Kind.ref := by
  rw [mro, agrees.builtin _ k.ref_mem_builtinTypeRefs, mro_boot_kind, Option.getD_some]

/-- An instance of a Type of data holds such data. -/
theorem Agrees.holds_of_isInstance (agrees : h.Agrees) (data : k ≠ .object)
    (is : h.isInstance r k.ref) : h.Holds r k := by
  have inherits : k.ref ∈ h.mro (h.typeOf r) := by
    simp only [isInstance, isSubtype, Bool.or_eq_true, beq_iff_eq, List.contains_iff_mem] at is
    rcases is with same | mem
    · rw [same, agrees.mro_kind]
      exact List.mem_map_of_mem k.mem_lineage
    · exact mem
  cases found : h.object? r with
  | none =>
    simp only [typeOf, found, Option.map_none, Option.getD_none, agrees.mro_kind] at inherits
    exact absurd (List.mem_singleton.mp (Kind.mem_lineage_of_ref_mem inherits)) data
  | some o =>
    obtain ⟨info, type, -, fits⟩ := agrees.kinds r o found
    simp only [typeOf, found, Option.map_some, Option.getD_some, mro_of_typeInfo? type] at inherits
    exact ⟨o.payload, by simp [payload?, found], fits k data inherits⟩

/-! ### Data that stays -/

theorem holds_congr (same : h'.object? r = h.object? r) : h'.Holds r k ↔ h.Holds r k := by
  simp only [Holds, payload?, same]

/-- Data stays data of its kind while its slot is occupied. -/
theorem Holds.modify (holds : h.Holds r k) (t : Ref) (c : Change) : (h.modify t c.apply).Holds r k := by
  obtain ⟨p, found, kind⟩ := holds
  obtain ⟨o, at_r, rfl⟩ := Option.map_eq_some_iff.mp found
  by_cases same : t = r
  · refine ⟨c.onPayload o.payload, ?_, ?_⟩
    · simp [payload?, object?_modify, same, at_r, Change.apply]
    · simpa only [Payload.isOf, kind?_onPayload] using kind
  · exact ⟨o.payload, by simp [payload?, object?_modify, same, at_r], kind⟩

theorem Holds.of_stores {t : Ref} {o : Object} (holds : h.Holds r k) (stores : h.Stores t o h') :
    h'.Holds r k := by
  refine (holds_congr ?_).mpr holds
  have ne : r ≠ t := by
    rintro rfl
    obtain ⟨p, found, -⟩ := holds
    simp [payload?, stores.vacant] at found
  rw [stores.object?, if_neg ne]

end Heap

/-- Whatever keeps data keeps what a payload relies on. -/
theorem Payload.Relies.mono {h h' : Heap} {p : Payload} (relies : p.Relies h)
    (keeps : ∀ n ∈ p.links, ∀ r k, n = .object r → h.Holds r k → h'.Holds r k) : p.Relies h' := by
  cases p with
  | iterator cursor =>
    cases cursor with
    | range next stop step => trivial
    | _ => exact keeps _ List.mem_cons_self _ _ rfl relies
  | function f => exact relies
  | _ => trivial

namespace Heap

variable {h h' : Heap} {r : Ref}

theorem Reliable.of_objects_eq (reliable : h.Reliable) (same : h'.objects = h.objects) :
    h'.Reliable := by
  have object (r : Ref) : h'.object? r = h.object? r := by simp only [object?, same]
  intro r o found
  rw [object] at found
  exact (reliable r o found).mono fun _ _ _ _ _ holds => (holds_congr (object _)).mpr holds

theorem Reliable.of_stores {o : Object} (reliable : h.Reliable) (stores : h.Stores r o h')
    (relies : o.payload.Relies h) : h'.Reliable := by
  intro t o' found
  rw [stores.object?] at found
  split at found
  · cases found
    exact relies.mono fun _ _ _ _ _ holds => holds.of_stores stores
  · exact (reliable t o' found).mono fun _ _ _ _ _ holds => holds.of_stores stores

/-- A change keeps what objects rely on, unless it moves an iterator to data of another kind. -/
theorem Reliable.modify (reliable : h.Reliable) (r : Ref) (c : Change)
    (relies : ∀ cursor, c = .cursor cursor → cursor.Relies h) : (h.modify r c.apply).Reliable := by
  intro t o found
  rw [object?_modify] at found
  have old : o.payload.Relies h := by
    split at found
    · obtain ⟨o', found', rfl⟩ := Option.map_eq_some_iff.mp found
      have relies' := reliable t o' found'
      obtain ⟨type, members, payload⟩ := o'
      cases c <;> cases payload <;> first | exact relies' | exact relies _ rfl
    · exact reliable t o found
  exact old.mono fun _ _ _ _ _ holds => holds.modify r c

/-- A collection keeps what the objects that it keeps rely on. -/
theorem Reliable.collect (reliable : h.Reliable) (nodes : List Node) : (h.collect nodes).2.Reliable := by
  intro r o found
  rw [object?_collect] at found
  split at found
  · rename_i marked
    refine (reliable r o found).mono ?_
    rintro n mem t k rfl holds
    refine (holds_congr ?_).mpr holds
    obtain ⟨p, atTarget, -⟩ := holds
    obtain ⟨o', found', -⟩ := Option.map_eq_some_iff.mp atTarget
    have kept : (h.reached nodes).marked (.object t) := by
      refine marked_reached_of_link marked ?_ (hasSlot_of_object? found')
      simp only [linksOf, found]
      exact List.mem_append_right _ mem
    rw [object?_collect, if_pos kept]
  · cases found

/-! ### The start and the host -/

/-- At the start, each built-in function is declared with what it reads, and there are no iterators. -/
theorem reliable_boot : boot.Reliable := by
  have all : boot.objects.slots.toList.all (fun x => x.all fun o =>
      match o.payload with
      | .iterator _ => false
      | .function f => f.isDeclared
      | _ => true) := by
    decide +kernel
  intro r o found
  simp only [object?, Arena.get?, Option.join_eq_some_iff] at found
  have mem : some o ∈ boot.objects.slots.toList := by
    simpa using Array.mem_of_getElem? found
  have relies := List.all_eq_true.mp all (some o) mem
  obtain ⟨type, members, payload⟩ := o
  cases payload with
  | iterator cursor => cases relies
  | function f => exact relies
  | _ => trivial

theorem sound_boot : boot.Sound := ⟨agrees_boot, reliable_boot⟩

theorem Sound.of_objects_eq (sound : h.Sound) (same : h'.objects = h.objects) : h'.Sound :=
  ⟨sound.agrees.of_objects_eq same, sound.reliable.of_objects_eq same⟩

theorem sound_survivesEnds : SurvivesEnds Sound := by
  intro h r sound
  refine ⟨sound.agrees.modify r _, sound.reliable.modify r _ ?_⟩
  intro cursor same
  cases same

theorem sound_survivesHost : SurvivesHost Sound where
  store h p storable sound := by
    refine ⟨agrees_survivesHost.store h p storable sound.agrees, ?_⟩
    cases stored : h.allocate (.ofPayload p none) with
    | mk result h' =>
      cases result with
      | error e => exact sound.reliable.of_objects_eq (allocate_error stored).1
      | ok r =>
        refine sound.reliable.of_stores (stores_of_allocate sound.agrees.wellFormed stored) ?_
        cases p <;> trivial
  vars _ _ same sound := sound.of_objects_eq same
  collect _ nodes sound := ⟨sound.agrees.collect nodes, sound.reliable.collect nodes⟩

end Heap

/-! ### Operations -/

/-- Whether a cause is that of an object without numeric value. -/
def Cause.isMissingNumber : Cause → Bool
  | noNumber _ => true
  | _ => false

namespace Op

variable {α : Type} {due : Schedule} {m : Machine}

/-- An operation respects what objects rely on, and does not complain of an object without numeric
value. -/
def Respects (h : Heap) : Op α → Prop
  | store o => o.payload.Relies h
  | change _ (.cursor cursor) => cursor.Relies h
  | raise c => c.isMissingNumber = false
  | _ => True

/-- An operation that respects what objects rely on, and creates no object that does not fit, keeps the
heap sound. -/
theorem perform_sound (o : Op α) (held : List Node) (sound : m.heap.Sound) (respects : o.Respects m.heap)
    (fits : ¬ (Moment.acts o held m).Misfit due) : (o.perform due m).machine.heap.Sound := by
  refine ⟨o.perform_agrees held sound.agrees fits, ?_⟩
  have reliable := sound.reliable
  cases o with
  | ask f => exact reliable
  | load r => simp only [perform]; split <;> exact reliable
  | loadScope s => simp only [perform]; split <;> exact reliable
  | store o =>
    cases stored : m.heap.allocate o with
    | mk result h' =>
      rw [perform, heap_onHeap, stored]
      cases result with
      | error e => exact reliable.of_objects_eq (Heap.allocate_error stored).1
      | ok r => exact reliable.of_stores (Heap.stores_of_allocate sound.agrees.wellFormed stored) respects
  | storeType name parents =>
    cases stored : m.heap.allocateType name parents with
    | mk result h' =>
      rw [perform, heap_onHeap, stored]
      cases result with
      | error e => exact reliable.of_objects_eq (Heap.allocateType_error stored)
      | ok result =>
        obtain ⟨r, info, stores, -⟩ := Heap.stores_of_allocateType sound.agrees.wellFormed stored
        exact reliable.of_stores stores trivial
  | openScope outer =>
    rw [perform, heap_onHeap]
    exact reliable.of_objects_eq (m.heap.objects_allocateScope _)
  | change r c =>
    simp only [perform]
    split
    · refine reliable.modify r c ?_
      rintro cursor rfl
      exact respects
    · exact reliable
  | define s name value => exact reliable.of_objects_eq (m.heap.objects_define s name value)
  | assign s name value => exact reliable.of_objects_eq (m.heap.objects_assign s name value)
  | undefine s name => exact reliable.of_objects_eq (m.heap.objects_undefine s name)
  | tick =>
    rw [perform, heap_onHeap]
    exact reliable.of_objects_eq rfl
  | collectIfDue nodes =>
    simp only [perform, Outcome.machine]
    split
    · exact reliable.collect _
    · exact reliable
  | pushRoots nodes => exact reliable
  | observe e => exact reliable
  | note n => exact reliable
  | print s => simp only [perform, printTo]; split <;> exact reliable
  | beginRequest => exact reliable.of_objects_eq rfl
  | raise c => exact reliable

end Op

end ObjectMachine
