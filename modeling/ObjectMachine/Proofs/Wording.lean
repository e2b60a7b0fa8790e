import ObjectMachine.Proofs.Answering
import ObjectMachine.Proofs.Rendering
/-!
Texts that nothing but built-in members make. The member `op_str` that is found for a value may be the one that was
declared for its kind of data, or for errors, or there may be none. If so it is for all parts of the value, then the
text of the value is sure to be made where the budget has room for the texts of the parts and calls can be nested as
deeply as the value: no code of a program runs, and nothing is changed.
-/
namespace ObjectMachine

namespace Declaration

/-- The member that gives the text of an error. -/
def errorText : Declaration := ⟨"op_str", [any "self"], .object .errorStr⟩

end Declaration

namespace Heap

variable {h h' : Heap} {r t : Ref} {o : Object} {d : Declaration} {name : String} {n : Nat}

/-! ### What new objects leave as it is -/

/-- An object is there with its Type and the ancestors of its Type. -/
structure Placed (h : Heap) (r : Ref) (o : Object) : Prop where
  /-- The object. -/
  live : h.object? r = some o
  /-- The Type. -/
  type : h.isType (h.typeOf r)
  /-- The ancestors. -/
  ancestors : ∀ t ∈ h.mro (h.typeOf r), ∃ o, h.object? t = some o

theorem Adds.typeOf_eq (adds : h.Adds h') (live : h.object? r = some o) : h'.typeOf r = h.typeOf r := by
  rw [typeOf, typeOf, live, adds.kept r o live]

theorem Adds.mro_eq (adds : h.Adds h') (isType : h.isType t) : h'.mro t = h.mro t := by
  obtain ⟨info, found⟩ := Option.isSome_iff_exists.mp isType
  have found' : h'.typeInfo? t = some info := by
    rw [typeInfo?_eq_some_iff] at found ⊢
    exact adds.payload? found
  rw [mro, mro, found, found']

namespace Placed

/-- The members that its Type has are found as before. -/
theorem memberIn?_of_adds (placed : h.Placed r o) (adds : h.Adds h') (name : String) :
    h'.memberIn? (h'.mro (h'.typeOf r)) name = h.memberIn? (h.mro (h.typeOf r)) name := by
  rw [adds.typeOf_eq placed.live, adds.mro_eq placed.type, memberIn?, memberIn?]
  rw [← List.head?_filterMap, ← List.head?_filterMap]
  refine congrArg List.head? (List.filterMap_congr fun t mem => ?_)
  obtain ⟨o, live⟩ := placed.ancestors t mem
  rw [ownMember?, ownMember?, live, adds.kept t o live]

/-- It is an instance of the same Types. -/
theorem isInstance_of_adds (placed : h.Placed r o) (adds : h.Adds h') (t : Ref) :
    h'.isInstance r t = h.isInstance r t := by
  rw [isInstance, isInstance, isSubtype, isSubtype, adds.typeOf_eq placed.live, adds.mro_eq placed.type]

end Placed

/-- A value has a member as it was declared, which takes the value as its only argument. -/
structure Offers (h : Heap) (r : Ref) (d : Declaration) : Prop where
  /-- The member that is found is as it was declared. -/
  found : ∃ method f, h.FoundAlong (h.typeOf r) d.name method ∧ h.payload? method = some (.function f) ∧ d.Makes f
  /-- It takes the value. -/
  takes : d.Takes h [r]

theorem Offers.of_adds (offers : h.Offers r d) (placed : h.Placed r o) (adds : h.Adds h') : h'.Offers r d := by
  obtain ⟨⟨method, f, found, function, makes⟩, single, fits⟩ := offers
  refine ⟨⟨method, f, ?_, adds.payload? function, makes⟩, single, ?_⟩
  · rw [← memberIn?_eq_some_iff] at found ⊢
    rw [placed.memberIn?_of_adds adds, found]
  · generalize d.params = params at fits
    cases fits with
    | cons first rest =>
      cases rest
      exact .cons (fun kind declared => (placed.isInstance_of_adds adds kind.ref).trans (first kind declared)) .nil

/-- The Type of the value is asked for the member, and the member runs. -/
theorem Offers.exists_choose (offers : h.Offers r d) :
    ∃ f : Function, f.body = .native d.native ∧
      h.choose d.name [r] (h.operandTypes d.name [r]) = .ok (.invoke ⟨f, ⟨[r], none⟩⟩) := by
  obtain ⟨f, body, -, chosen⟩ := HasDeclared.exists_choose offers.found offers.takes
  exact ⟨f, body, chosen⟩

/-! ### Values -/

/-- The parts of a value that are shown in its text: the items of a list, and the keys and values of a map. The value
itself is abbreviated, except for a key. -/
def spoken (r : Ref) : Payload → List Ref
  | .list items => items.toList.filter fun q => q ≠ r
  | .map entries => entries.values.flatMap fun e => e.1 :: if e.2 = r then [] else [e.2]
  | _ => []

/-- The text of a value is made by nothing but built-in members, the calls of which are nested at most so deeply. -/
inductive Worded (h : Heap) : Nat → Ref → Prop where
  /-- A text without a Type of its own is its text. -/
  | text {n : Nat} {r : Ref} {o : Object} {s : String} (live : h.object? r = some o) (untyped : o.type = none)
    (payload : o.payload = .str s) : Worded h n r
  /-- Data has the member that was declared for its kind. Parts that are texts are quoted. -/
  | data {n : Nat} {r : Ref} {o : Object} {kind : Kind} {d : Declaration} (placed : h.Placed r o)
    (payload : o.payload.kind? = some kind) (declared : d ∈ Declaration.ofKind kind) (named : d.name = "op_str")
    (offers : h.Offers r d) (parts : ∀ q ∈ spoken r o.payload, h.str? q = none → Worded h n q) : Worded h (n + 1) r
  /-- An error has the member that was declared for errors, which shows its message. -/
  | error {n : Nat} {r : Ref} {o : Object} (placed : h.Placed r o) (offers : h.Offers r Declaration.errorText)
    (message : ∀ q, o.members.get? "message" = some q → Worded h n q) : Worded h (n + 1) r
  /-- No member is found. The text names the Type. -/
  | nameless {n : Nat} {r : Ref} {o : Object} (placed : h.Placed r o)
    (none : h.memberIn? (h.mro (h.typeOf r)) "op_str" = none) : Worded h n r

theorem Worded.exists_payload (worded : h.Worded n r) : ∃ p, h.payload? r = some p := by
  cases worded with
  | text live => exact ⟨_, Option.map_eq_some_iff.mpr ⟨_, live, rfl⟩⟩
  | data placed | error placed | nameless placed => exact ⟨_, Option.map_eq_some_iff.mpr ⟨_, placed.live, rfl⟩⟩

end Heap

/-! ### Runs -/

namespace Engine

variable {due : Schedule} {α β : Type} {m : Machine} {h : Heap} {r : Ref} {o : Object} {d : Declaration}
  {n cost cost' fuel : Nat} {k : Reentry}

/-- A computation gives a value on every machine with the objects of a heap and room for so many calls, at a cost of no
more than so many objects. -/
def Certain (due : Schedule) (h : Heap) (n cost : Nat) (x : Engine α) : Prop :=
  ∀ m : Machine, m.Extends h n → Succeeds due x cost (fun _ _ => True) m

theorem Certain.bind {x : Engine α} {f : α → Engine β} (first : Certain due h n cost x)
    (later : ∀ a, Certain due h n cost' (f a)) : Certain due h n (cost + cost') (x >>= f) :=
  fun m ready => (first m ready).bind fun a m' spends _ => later a m' (ready.of_spends spends)

end Engine

/-! ### Plain data -/

namespace Heap

variable {h : Heap} {r : Ref} {o : Object} {kind : Kind} {n : Nat}

theorem Equipped.isType (equipped : h.Equipped) (kind : Kind) : h.isType kind.ref := by
  rw [Heap.isType, equipped.stand _ kind.ref_mem_builtinTypeRefs]
  exact Option.isSome_iff_exists.mpr (isSome_boot_typeInfo? kind.ref_mem_builtinTypeRefs)

/-- Data without a Type of its own is there with its Type and the ancestors. -/
theorem Equipped.placed (equipped : h.Equipped) (live : h.object? r = some o) (untyped : o.type = none)
    (payload : o.payload.kind? = some kind) : h.Placed r o := by
  have typeOf : h.typeOf r = kind.ref :=
    (typeOf_of_untyped live untyped).trans (Payload.typeRef_of_kind? payload)
  refine ⟨live, typeOf ▸ equipped.isType kind, fun t mem => ?_⟩
  rw [typeOf, equipped.stand.mro_kind] at mem
  obtain ⟨ancestor, -, rfl⟩ := List.mem_map.mp mem
  obtain ⟨info, found⟩ := Option.isSome_iff_exists.mp (equipped.isType ancestor)
  obtain ⟨o, live, -⟩ := exists_object_of_typeInfo? found
  exact ⟨o, live⟩

/-- It has the member for its text. -/
theorem Equipped.offers {d : Declaration} (equipped : h.Equipped) (live : h.object? r = some o)
    (untyped : o.type = none) (payload : o.payload.kind? = some kind) (declared : d ∈ Declaration.ofKind kind)
    (self : d.params = [Declaration.typed "self" kind]) : h.Offers r d := by
  have typeOf : h.typeOf r = kind.ref :=
    (typeOf_of_untyped live untyped).trans (Payload.typeRef_of_kind? payload)
  refine ⟨typeOf ▸ equipped.foundAlong declared, ?_, ?_⟩
  · rw [self]
    exact List.forall_mem_singleton.mpr rfl
  · rw [self]
    exact .cons (Declaration.fits_typed "self" typeOf) .nil

/-- The texts of values that lists and maps build from plain data are made by built-in members, as long as these are
the ones that were declared. -/
theorem Equipped.worded (equipped : h.Equipped) (data : h.Data n r) : h.Worded (n + 1) r := by
  have ofMember {n : Nat} {r : Ref} {o : Object} {kind : Kind} (native : Native) (live : h.object? r = some o)
      (untyped : o.type = none) (payload : o.payload.kind? = some kind)
      (declared : Engine.textMember kind native ∈ Declaration.ofKind kind)
      (parts : ∀ q ∈ spoken r o.payload, h.Worded n q) : h.Worded (n + 1) r :=
    .data (equipped.placed live untyped payload) payload declared rfl
      (equipped.offers live untyped payload declared rfl) fun q mem _ => parts q mem
  induction data with
  | @plain n r o live untyped data =>
    obtain ⟨s, plain⟩ := Option.isSome_iff_exists.mp data
    cases noText : o.payload.isText with
    | true =>
      obtain ⟨t, text⟩ : ∃ t, o.payload = .str t := by
        cases payload : o.payload <;> rw [payload] at noText <;> first | exact ⟨_, rfl⟩ | cases noText
      exact .text live untyped text
    | false =>
      obtain ⟨kind, native, declared, typeRef, -⟩ := Engine.exists_textMember (r := r) plain noText
      have payload : o.payload.kind? = some kind ∧ spoken r o.payload = [] := by
        cases there : o.payload <;> rw [there] at plain noText typeRef <;> cases plain <;>
          exact ⟨congrArg some (Kind.ref_injective typeRef), rfl⟩
      exact ofMember native live untyped payload.1 declared fun q mem => by rw [payload.2] at mem; cases mem
  | @list n r o items live untyped payload parts ih =>
    refine ofMember (.list .str) live untyped (by rw [payload]; rfl) (by decide) fun q mem => ?_
    rw [payload] at mem
    exact ih q (List.mem_filter.mp mem).1
  | @map n r o entries live untyped payload keys values ihKeys ihValues =>
    refine ofMember (.map .str) live untyped (by rw [payload]; rfl) (by decide) fun q mem => ?_
    rw [payload] at mem
    obtain ⟨e, inside, part⟩ := List.mem_flatMap.mp mem
    obtain rfl | part := List.mem_cons.mp part
    · exact ihKeys e inside
    · split at part
      · cases part
      · exact List.mem_singleton.mp part ▸ ihValues e inside

end Heap

end ObjectMachine
