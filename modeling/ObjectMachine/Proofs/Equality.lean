import ObjectMachine.Proofs.Literals
import ObjectMachine.Proofs.Members
/-!
Equality of literals. Integers, texts and lists have a member that compares them, lists by their items; `null` and
the truth values have none, so that they are compared as objects. Whichever operand comes first, as long as the
built-in Types have the members that were declared for them and no others, two literals are equal just if they spell
the same.
-/
namespace ObjectMachine

/-! ### Types as they were declared -/

namespace Heap

variable {h h' : Heap} {a b : Ref} {s : Snapshot} {kind : Kind} {name : String}

/-- The built-in Types have the members that were declared for them, and no others. -/
structure Unmodified (h : Heap) : Prop where
  /-- They have these. -/
  furnished : ∀ k, ∀ d ∈ Declaration.ofKind k, h.Furnished k.ref d
  /-- They have no others. -/
  bare : ∀ k name, (∀ d ∈ Declaration.ofKind k, d.name ≠ name) → h.ownMember? k.ref name = none

/-- The built-in Types are there with the members that were declared for them and no others, and so are `null` and
the truth values, each by one object. -/
structure Pristine (h : Heap) : Prop where
  /-- The Types are there. -/
  equipped : h.Equipped
  /-- They have what was declared. -/
  unmodified : h.Unmodified
  /-- `null` and the truth values are there. -/
  orderly : h.Orderly
  /-- There are no others. -/
  singles : h.HasSingles

theorem BuiltinsStand.exists_object (stand : h.BuiltinsStand) (k : Kind) : ∃ o, h.object? k.ref = some o := by
  have proper : h.mro k.ref ≠ [] := by
    rw [stand.mro_kind]
    cases k <;> exact List.cons_ne_nil _ _
  obtain ⟨info, found, -⟩ := exists_typeInfo?_of_mro proper
  obtain ⟨o, live, -⟩ := exists_object_of_typeInfo? found
  exact ⟨o, live⟩

/-- New objects leave the members as they are. -/
theorem Unmodified.of_adds (unmodified : h.Unmodified) (stand : h.BuiltinsStand) (adds : h.Adds h') :
    h'.Unmodified where
  furnished k d mem := (unmodified.furnished k d mem).of_adds adds
  bare k name other := by
    obtain ⟨o, live⟩ := stand.exists_object k
    have none := unmodified.bare k name other
    rw [ownMember?, live] at none
    rw [ownMember?, adds.kept _ _ live]
    exact none

theorem unmodified_boot : boot.Unmodified where
  furnished := furnished_boot
  bare k name other := by
    have all : ∀ k ∈ Kind.all, ∀ o ∈ boot.object? k.ref, ∀ e ∈ o.members.entries,
        e.1 ∈ (Declaration.ofKind k).map Declaration.name := by
      decide +kernel
    rw [Option.eq_none_iff_forall_ne_some]
    intro method member
    obtain ⟨o, live, own⟩ := Option.bind_eq_some_iff.mp member
    obtain ⟨d, declared, same⟩ := List.mem_map.mp (all k k.mem_all o live _ (Table.get?_eq_some_iff.mp own))
    exact other d declared same

/-- Members do not depend on the budget. -/
theorem Unmodified.withBudget (unmodified : h.Unmodified) (budget : Budget) : (h.withBudget budget).Unmodified :=
  ⟨unmodified.furnished, unmodified.bare⟩

/-- A Type passes an operator over that is declared for none of its ancestors. -/
theorem Pristine.exists_passesOver (pristine : h.Pristine) (adds : h.Adds h') (args : List Ref)
    (other : ∀ k ∈ kind.lineage, ∀ d ∈ Declaration.ofKind k, d.name ≠ name) :
    ∃ e, h'.PassesOver name args kind.ref e := by
  have unmodified := pristine.unmodified.of_adds pristine.equipped.stand adds
  refine ⟨_, .absent ?_⟩
  rw [(pristine.equipped.of_adds adds).stand.mro_kind]
  exact List.forall_mem_map.mpr fun k mem => unmodified.bare k name (other k mem)

/-- The objects of the truth values are there. -/
theorem Pristine.exists_truth (pristine : h.Pristine) (x : Bool) :
    ∃ o, h.object? (.ofBool x) = some o ∧ o.type = none ∧ o.payload = .bool x := by
  have mem : (Ref.ofBool x, Payload.bool x) ∈ singletonPayloads := by cases x <;> decide
  exact pristine.singles.exists_object pristine.orderly mem

/-! ### Operands -/

/-- The kinds of literals. -/
def literalKinds : List Kind := [.null, .bool, .int, .string, .list]

/-- A literal is of one of these kinds. -/
theorem Literal.exists_kind (literal : h.Literal a s) (adds : h.Adds h') :
    ∃ kind ∈ literalKinds, h'.typeOf a = kind.ref := by
  cases literal with
  | atom live untyped data =>
    rw [typeOf_of_untyped (adds.kept _ _ live) untyped]
    cases payload : Object.payload _ with
    | null => exact ⟨.null, by decide, rfl⟩
    | bool => exact ⟨.bool, by decide, rfl⟩
    | int => exact ⟨.int, by decide, rfl⟩
    | str => exact ⟨.string, by decide, rfl⟩
    | _ =>
      rw [payload] at data
      cases data
  | list live untyped payload =>
    rw [typeOf_of_untyped (adds.kept _ _ live) untyped, payload]
    exact ⟨.list, by decide, rfl⟩

/-- What a list of literals holds are literals. -/
theorem Literal.exists_items {shown : List Snapshot} (literal : h.Literal a (.list shown)) :
    ∃ o items, h.object? a = some o ∧ o.type = none ∧ o.payload = .list items ∧
      List.Forall₂ h.Literal items.toList shown := by
  cases literal with
  | atom _ _ data => exact absurd data (atom?_ne_list _)
  | @list _ o items _ live untyped payload length literals =>
    refine ⟨o, items, live, untyped, payload, forall₂_of_getElem? (length.trans Array.length_toList.symm) ?_⟩
    intro i q v item shown_i
    exact literals i q v (Array.getElem?_toList.symm.trans item) shown_i

/-- Of the Types of two operands that of the first one is asked first. -/
theorem exists_operandTypes (h : Heap) (a b : Ref) (fixed : Special.isVariadic name = false) :
    ∃ later, h.operandTypes name [a, b] = h.typeOf a :: later := by
  rw [operandTypes, fixed]
  exact ⟨_, List.eraseDups_cons⟩

/-- No other Types than those of the operands are asked. -/
theorem forall_mem_operandTypes (h : Heap) {P : Ref → Prop} (first : P (h.typeOf a)) (second : P (h.typeOf b))
    (fixed : Special.isVariadic name = false) : ∀ t ∈ h.operandTypes name [a, b], P t := by
  intro t mem
  rw [operandTypes, fixed, List.mem_eraseDups] at mem
  rcases List.mem_pair.mp mem with rfl | rfl
  · exact first
  · exact second

end Heap

/-! ### Answers -/

namespace Engine

variable {due : Schedule} {m : Machine} {h : Heap} {a b : Ref} {s t : Snapshot} {n fuel : Nat} {k : Reentry}
  {kind : Kind} {native : Native} {p : Prop} {i : Int64} {o : Object}

/-- A result is the truth value that answers a question. -/
def Tells (p : Prop) (r : Ref) (_ : Heap) : Prop := ∃ x : Bool, r = .ofBool x ∧ (x = true ↔ p)

/-- Two objects are compared with this result, on every machine that has the objects of a heap and room for calls. -/
def Compares (due : Schedule) (k : Reentry) (h : Heap) (n : Nat) (a b : Ref) (p : Prop) : Prop :=
  ∀ m : Machine, m.Extends h n → Succeeds due (callOperator k "op_eq" [a, b] true) 0 (Tells p) m

/-- Two values are taken for equal just if they are. -/
def Equates (due : Schedule) (k : Reentry) (h : Heap) (n : Nat) (a b : Ref) (p : Prop) : Prop :=
  ∀ m : Machine, m.Extends h n → Succeeds due (equals k a b) 0 (fun x _ => x = true ↔ p) m

/-- A truth value is as true as it says. -/
theorem runUnder_truthy (pristine : h.Pristine) (adds : h.Adds m.heap) (x : Bool) :
    (truthy k (.ofBool x)).runUnder due m = .ok x m := by
  obtain ⟨o, live, untyped, payload⟩ := pristine.exists_truth x
  simp only [truthy, runUnder_bind, runUnder_load (adds.kept _ o live), untyped, payload]
  rfl

/-- An object is equal to itself, others are compared. -/
theorem Compares.equates (compares : Compares due k h n a b (s = t)) (pristine : h.Pristine) (left : h.Literal a s)
    (right : h.Literal b t) : Equates due k h n a b (s = t) := by
  intro m ready
  rw [equals]
  split
  · rename_i same
    have equal := left.spells.unique (same ▸ right.spells)
    exact .pure due ready.adds.wellFormed (iff_of_true rfl equal)
  · refine (compares m ready).bind (k := 0) fun r m' spends tells => ?_
    obtain ⟨x, rfl, exact⟩ := tells
    have answered : Succeeds due (pure x) 0 (fun x _ => x = true ↔ s = t) m' := .pure due spends.wellFormed exact
    exact answered.of_runUnder_eq (runUnder_truthy pristine (ready.of_spends spends).adds x)

/-! ### Members that compare -/

/-- The declaration of a member of a kind that takes any second operand. -/
def binaryMember (name other : String) (kind : Kind) (native : Native) : Declaration :=
  ⟨name, [Declaration.typed "self" kind, Declaration.any other], native⟩

theorem binaryMember_single {name other : String} :
    ∀ p ∈ (binaryMember name other kind native).params, p.rest = false :=
  List.forall_mem_cons.mpr ⟨rfl, List.forall_mem_singleton.mpr rfl⟩

/-- The declaration of the member that compares data of a kind. -/
def eqMember (kind : Kind) (native : Native) : Declaration := binaryMember "op_eq" "other" kind native

/-- The declared member of the first operand runs, one call deeper. -/
theorem succeeds_of_declared {name other : String} {good : Ref → Heap → Prop} (pristine : h.Pristine)
    (declared : binaryMember name other kind native ∈ Declaration.ofKind kind)
    (right : Special.wrongOperands? name 2 = none) (fixed : Special.isVariadic name = false)
    (ready : m.Extends h (n + 1)) (live : h.object? a = some o) (untyped : o.type = none)
    (ofKind : o.payload.typeRef = kind.ref)
    (inside : ∀ m' : Machine, m'.Extends h n → Succeeds due (runNative (reentry fuel) native [a, b]) 0 good m') :
    Succeeds due (callOperator (reentry (fuel + 1)) name [a, b] true) 0 good m := by
  have typeOf : m.heap.typeOf a = kind.ref :=
    (Heap.typeOf_of_untyped (ready.adds.kept a o live) untyped).trans ofKind
  obtain ⟨later, types⟩ := m.heap.exists_operandTypes a b fixed
  have first : m.heap.operandTypes name [a, b] = [] ++ kind.ref :: later := typeOf ▸ types
  have takes : (binaryMember name other kind native).Takes m.heap [a, b] :=
    ⟨binaryMember_single, .cons (Declaration.fits_typed "self" typeOf) (.cons (Declaration.fits_any other) .nil)⟩
  exact succeeds_dispatch pristine.equipped declared ready right first (List.forall_mem_nil _) takes inside

theorem runUnder_payload_of (live : h.object? a = some o) (adds : h.Adds m.heap) :
    (payload a).runUnder due m = .ok o.payload m := by
  rw [runUnder_payload, Heap.payload?, adds.kept a o live]
  rfl

theorem exists_causes {name : String} {args types : List Ref}
    (pass : ∀ t ∈ types, ∃ e, m.heap.PassesOver name args t e) :
    ∃ causes, List.Forall₂ (m.heap.PassesOver name args) types causes := by
  induction types with
  | nil => exact ⟨[], .nil⟩
  | cons t types ih =>
    obtain ⟨⟨e, passes⟩, pass⟩ := List.forall_mem_cons.mp pass
    obtain ⟨causes, all⟩ := ih pass
    exact ⟨e :: causes, .cons passes all⟩

/-- If the Types of the operands pass an operator over, it means what it means for all values. -/
theorem runUnder_dispatch_of_pass {name : String} {args : List Ref} (x : Engine Ref)
    (right : Special.wrongOperands? name args.length = none)
    (pass : ∀ t ∈ m.heap.operandTypes name args, ∃ e, m.heap.PassesOver name args t e) :
    (dispatch k name args (some x)).runUnder due m = (keepingObjects args x).runUnder due m := by
  obtain ⟨causes, all⟩ := exists_causes pass
  rw [runUnder_dispatch_of_choose_error right (Heap.choose_of_passesOver all)]
  rfl

/-- The Types of literals do not compare `null` and the truth values: they have no member for it, or one that does not
take these. -/
theorem exists_passesOver_of_single {other : Kind} (pristine : h.Pristine) (adds : h.Adds m.heap)
    (typeOf : m.heap.typeOf a = kind.ref) (single : kind ∈ [Kind.null, Kind.bool]) (mem : other ∈ Heap.literalKinds) :
    ∃ e, m.heap.PassesOver "op_eq" [a, b] other.ref e := by
  have equipped := pristine.equipped.of_adds adds
  have unrelated : ∀ kind ∈ [Kind.null, Kind.bool], ∀ other ∈ [Kind.int, Kind.string, Kind.list],
      other ∉ kind.lineage := by
    decide
  have refused {other : Kind} (native : Native) (declared : eqMember other native ∈ Declaration.ofKind other)
      (foreign : other ∈ [Kind.int, Kind.string, Kind.list]) : ∃ e, m.heap.PassesOver "op_eq" [a, b] other.ref e :=
    equipped.exists_passesOver declared binaryMember_single rfl rfl
      (equipped.isInstance_eq_false typeOf (unrelated kind single other foreign))
  simp only [Heap.literalKinds, List.mem_cons, List.not_mem_nil, or_false] at mem
  rcases mem with rfl | rfl | rfl | rfl | rfl
  · exact pristine.exists_passesOver adds _ (by decide)
  · exact pristine.exists_passesOver adds _ (by decide)
  · exact refused (.number .eq) (by decide) (by decide)
  · exact refused (.text .eq) (by decide) (by decide)
  · exact refused (.list .eq) (by decide) (by decide)

/-- `null` and the truth values are compared as objects. -/
theorem compares_single (pristine : h.Pristine) (live : h.object? a = some o) (single : o.payload.isSingle)
    (data : o.payload.atom? = some s) (right : h.Literal b t) : Compares due k h n a b (s = t) := by
  intro m ready
  obtain ⟨here, untyped⟩ := pristine.singles a o live single
  obtain ⟨kind, ofSingle, typeOf⟩ : ∃ kind ∈ [Kind.null, Kind.bool], m.heap.typeOf a = kind.ref := by
    rw [Heap.typeOf_of_untyped (ready.adds.kept a o live) untyped]
    cases payload : o.payload with
    | null => exact ⟨.null, by decide, rfl⟩
    | bool => exact ⟨.bool, by decide, rfl⟩
    | _ =>
      rw [payload] at single
      cases single
  have pass : ∀ t ∈ m.heap.operandTypes "op_eq" [a, b], ∃ e, m.heap.PassesOver "op_eq" [a, b] t e := by
    have passes {other : Kind} (mem : other ∈ Heap.literalKinds) : ∃ e, m.heap.PassesOver "op_eq" [a, b] other.ref e :=
      exists_passesOver_of_single pristine ready.adds typeOf ofSingle mem
    have all : ∀ kind ∈ [Kind.null, Kind.bool], kind ∈ Heap.literalKinds := by decide
    obtain ⟨other, isLiteral, typeOf'⟩ := right.exists_kind ready.adds
    refine m.heap.forall_mem_operandTypes ?_ ?_ (by decide)
    · exact typeOf ▸ passes (all kind ofSingle)
    · exact typeOf' ▸ passes isLiteral
  have same : a = b ↔ s = t := by
    constructor
    · rintro rfl
      exact (Heap.Literal.atom live untyped data).spells.unique right.spells
    · rintro rfl
      exact right.eq_of_single pristine.singles live single data
  have tells : Tells (s = t) (Ref.ofBool (a == b)) m.heap := ⟨a == b, rfl, beq_iff_eq.trans same⟩
  have identity : Succeeds due (pure (Ref.ofBool (a == b))) 0 (Tells (s = t)) (m.pushRoots (objectNodes [a, b])) :=
    .pure due (ready.pushRoots _).adds.wellFormed tells
  exact identity.keeping.of_runUnder_eq (runUnder_dispatch_of_pass _ rfl pass)

/-- An integer is compared by its value. -/
theorem compares_int (pristine : h.Pristine) (live : h.object? a = some o) (untyped : o.type = none)
    (data : o.payload = .int i) (right : h.Literal b t) :
    Compares due (reentry (fuel + 1)) h (n + 1) a b (.int i = t) := by
  intro m ready
  have declared : eqMember .int (.number .eq) ∈ Declaration.ofKind .int := by decide
  refine succeeds_of_declared pristine declared rfl (by decide) ready live untyped (by rw [data]; rfl) fun m ready => ?_
  have readsLeft : (numeric a).runUnder due m = .ok (.int i) m := by
    rw [numeric, runUnder_bind, runUnder_payload_of live ready.adds, data]
    rfl
  show Succeeds due (runNumber .eq [a, b]) 0 _ m
  rw [runNumber]
  cases right with
  | @atom _ o' _ live' untyped' data' =>
    refine .bind_of_ok (runUnder_payload_of live' ready.adds) ?_
    cases payload : o'.payload with
    | int j =>
      rw [payload] at data'
      cases data'
      refine .bind_of_ok readsLeft (.pure due ready.adds.wellFormed ⟨i == j, rfl, ?_⟩)
      rw [beq_iff_eq, Snapshot.int.injEq]
    | _ =>
      rw [payload] at data'
      cases data' <;> exact .pure due ready.adds.wellFormed ⟨false, rfl, by simp⟩
  | list live' untyped' payload =>
    refine .bind_of_ok (runUnder_payload_of live' ready.adds) ?_
    rw [payload]
    exact .pure due ready.adds.wellFormed ⟨false, rfl, by simp⟩

/-- A text is compared by its characters. -/
theorem compares_text {u : String} (pristine : h.Pristine) (live : h.object? a = some o)
    (untyped : o.type = none) (data : o.payload = .str u) (right : h.Literal b t) :
    Compares due (reentry (fuel + 1)) h (n + 1) a b (.str u = t) := by
  intro m ready
  have declared : eqMember .string (.text .eq) ∈ Declaration.ofKind .string := by decide
  refine succeeds_of_declared pristine declared rfl (by decide) ready live untyped (by rw [data]; rfl) fun m ready => ?_
  show Succeeds due (runText (reentry fuel) .eq [a, b]) 0 _ m
  have same : Succeeds due (sameText a b) 0 (fun x _ => x = true ↔ .str u = t) m := by
    rw [sameText]
    refine .bind_of_ok (runUnder_payload_of live ready.adds) ?_
    rw [data]
    cases right with
    | @atom _ o' _ live' untyped' data' =>
      refine .bind_of_ok (runUnder_payload_of live' ready.adds) ?_
      cases payload : o'.payload with
      | str v =>
        rw [payload] at data'
        cases data'
        refine .pure due ready.adds.wellFormed ?_
        rw [beq_iff_eq, Snapshot.str.injEq]
      | _ =>
        rw [payload] at data'
        cases data' <;> exact .pure due ready.adds.wellFormed (by simp)
    | list live' untyped' payload =>
      refine .bind_of_ok (runUnder_payload_of live' ready.adds) ?_
      rw [payload]
      exact .pure due ready.adds.wellFormed (by simp)
  exact same.bind (k := 0) fun x m' spends exact => .pure due spends.wellFormed ⟨x, rfl, exact⟩

/-! ### Lists -/

/-- Items are compared one by one. -/
theorem succeeds_equalItems {pairs : List (Ref × Ref)} {shown : List (Snapshot × Snapshot)}
    (each : List.Forall₂ (fun q v => Equates due k h n q.1 q.2 (v.1 = v.2)) pairs shown) (ready : m.Extends h n) :
    Succeeds due (equalItems k pairs) 0 (fun x _ => x = true ↔ ∀ v ∈ shown, v.1 = v.2) m := by
  induction each generalizing m with
  | nil => exact .pure due ready.adds.wellFormed (iff_of_true rfl (List.forall_mem_nil _))
  | @cons q v pairs shown first _ ih =>
    obtain ⟨a, b⟩ := q
    rw [equalItems]
    refine (first m ready).bind (k := 0) fun x m' spends same => ?_
    cases x with
    | true =>
      refine (ih (ready.of_spends spends)).mono fun y _ all => ?_
      rw [List.forall_mem_cons, all, ← same]
      exact (and_iff_right rfl).symm
    | false =>
      refine .pure due spends.wellFormed (iff_of_false Bool.false_ne_true fun all => ?_)
      exact absurd (same.mpr (all v List.mem_cons_self)) Bool.false_ne_true

/-- An item that is equal to a value is looked for. -/
theorem succeeds_containsItem {value : Ref} {items : List Ref} {shown : List Snapshot}
    (each : List.Forall₂ (fun q v => Equates due k h n q value (v = t)) items shown) (ready : m.Extends h n) :
    Succeeds due (containsItem k value items) 0 (fun x _ => x = true ↔ t ∈ shown) m := by
  induction each generalizing m with
  | nil => exact .pure due ready.adds.wellFormed (iff_of_false Bool.false_ne_true List.not_mem_nil)
  | @cons q v items shown first _ ih =>
    rw [containsItem]
    refine (first m ready).bind (k := 0) fun x m' spends same => ?_
    cases x with
    | true => exact .pure due spends.wellFormed (iff_of_true rfl (same.mp rfl ▸ List.mem_cons_self))
    | false =>
      have other : t ≠ v := fun equal => absurd (same.mpr equal.symm) Bool.false_ne_true
      refine (ih (ready.of_spends spends)).mono fun y _ some => ?_
      rw [some, List.mem_cons, or_iff_right other]

/-- Two lists of literals are compared by their items, if these are. -/
theorem compares_list {items : Array Ref} {shown : List Snapshot} (pristine : h.Pristine)
    (live : h.object? a = some o) (untyped : o.type = none) (data : o.payload = .list items)
    (length : shown.length = items.size) (right : h.Literal b t)
    (parts : ∀ shown', t = .list shown' → ∀ (i : Nat) q q' s s', items[i]? = some q → shown[i]? = some s →
      shown'[i]? = some s' → h.Literal q' s' → Equates due (reentry fuel) h n q q' (s = s')) :
    Compares due (reentry (fuel + 1)) h (n + 1) a b (.list shown = t) := by
  intro m ready
  have declared : eqMember .list (.list .eq) ∈ Declaration.ofKind .list := by decide
  refine succeeds_of_declared pristine declared rfl (by decide) ready live untyped (by rw [data]; rfl) fun m ready => ?_
  have readsLeft : (itemsOf a).runUnder due m = .ok items m := by
    rw [itemsOf, runUnder_bind, runUnder_payload_of live ready.adds, data]
    rfl
  show Succeeds due (runList (reentry fuel) .eq [a, b]) 0 _ m
  rw [runList]
  cases right with
  | @atom _ o' _ live' untyped' data' =>
    refine .bind_of_ok (runUnder_payload_of live' ready.adds) ?_
    cases payload : o'.payload <;> rw [payload] at data' <;> cases data' <;>
      exact .pure due ready.adds.wellFormed ⟨false, rfl, by simp⟩
  | @list _ o' items' shown' live' untyped' data' length' literals' =>
    refine .bind_of_ok (runUnder_payload_of live' ready.adds) ?_
    rw [data']
    refine .bind_of_ok readsLeft ?_
    rw [Snapshot.list.injEq]
    by_cases sizes : items.size = items'.size
    · have lengths : shown.length = shown'.length := by rw [length, length', sizes]
      have each : List.Forall₂ (fun q v => Equates due (reentry fuel) h n q.1 q.2 (v.1 = v.2))
          (items.toList.zip items'.toList) (shown.zip shown') := by
        refine forall₂_of_getElem? (by simp [length, length']) fun i q v item shown_i => ?_
        obtain ⟨item, item'⟩ := List.getElem?_zip_eq_some.mp item
        obtain ⟨shown_i, shown'_i⟩ := List.getElem?_zip_eq_some.mp shown_i
        rw [Array.getElem?_toList] at item item'
        exact parts shown' rfl i _ _ _ _ item shown_i shown'_i (literals' i _ _ item' shown'_i)
      have all : (∀ v ∈ shown.zip shown', v.1 = v.2) ↔ shown = shown' := by
        rw [← List.forall₂_eq_eq_eq, List.forall₂_iff_zip]
        exact ⟨fun all => ⟨lengths, all _⟩, fun both v mem => both.2 mem⟩
      rw [if_neg (by simpa using sizes)]
      refine ((succeeds_equalItems each (ready.pushRoots _)).keeping).bind (k := 0) fun x m' spends same => ?_
      exact .pure due spends.wellFormed ⟨x, rfl, same.trans all⟩
    · rw [if_pos (by simpa using sizes)]
      refine .pure due ready.adds.wellFormed ⟨false, rfl, iff_of_false Bool.false_ne_true fun same => sizes ?_⟩
      rw [← length, ← length', same]

/-- Two literals are compared by what they spell, if calls can be nested more deeply than one of them. -/
theorem compares_of_literal (due : Schedule) (pristine : h.Pristine) (left : h.Literal a s) (right : h.Literal b t)
    (shallow : min s.nesting t.nesting ≤ n) (enough : n < fuel) :
    Compares due (reentry fuel) h (n + 1) a b (s = t) := by
  obtain ⟨fuel, rfl⟩ : ∃ f, fuel = f + 1 := ⟨fuel - 1, by omega⟩
  induction left generalizing b t n fuel with
  | @atom r o s live untyped data =>
    cases payload : o.payload with
    | null | bool => exact compares_single pristine live (by rw [payload]; rfl) data right
    | int =>
      rw [payload] at data
      cases data
      exact compares_int pristine live untyped payload right
    | str =>
      rw [payload] at data
      cases data
      exact compares_text pristine live untyped payload right
    | _ =>
      rw [payload] at data
      cases data
  | @list r o items shown live untyped payload length literals ih =>
    refine compares_list pristine live untyped payload length right ?_
    rintro shown' rfl i q q' s s' item shown_i shown'_i right'
    -- the items of both are nested less deeply, and are compared one call deeper
    rw [Snapshot.nesting, Snapshot.nesting, Nat.add_min_add_right] at shallow
    obtain ⟨n, rfl⟩ : ∃ n', n = n' + 1 := ⟨n - 1, by omega⟩
    obtain ⟨fuel, rfl⟩ : ∃ f, fuel = f + 1 := ⟨fuel - 1, by omega⟩
    have less := Snapshot.nesting_le_items (List.mem_of_getElem? shown_i)
    have less' := Snapshot.nesting_le_items (List.mem_of_getElem? shown'_i)
    have compares := ih i q s item shown_i right' (n := n) (by omega) fuel (by omega)
    exact compares.equates pristine (literals i q s item shown_i) right'

/-! ### The other operators -/

/-- No built-in Type has a member for inequality, so that two values are unequal if they are not equal. -/
theorem succeeds_unequal (compares : Compares due k h n a b p) (pristine : h.Pristine) (left : h.Literal a s)
    (right : h.Literal b t) (ready : m.Extends h n) :
    Succeeds due (callOperator k "op_ne" [a, b] true) 0 (Tells ¬p) m := by
  have bare (kind : Kind) : ∃ e, m.heap.PassesOver "op_ne" [a, b] kind.ref e := by
    have none : ∀ k ∈ Kind.all, ∀ d ∈ Declaration.ofKind k, d.name ≠ "op_ne" := by decide
    exact pristine.exists_passesOver ready.adds _ fun k _ => none k k.mem_all
  have pass : ∀ t ∈ m.heap.operandTypes "op_ne" [a, b], ∃ e, m.heap.PassesOver "op_ne" [a, b] t e := by
    obtain ⟨kind, -, typeOf⟩ := left.exists_kind ready.adds
    obtain ⟨kind', -, typeOf'⟩ := right.exists_kind ready.adds
    exact m.heap.forall_mem_operandTypes (typeOf ▸ bare kind) (typeOf' ▸ bare kind') (by decide)
  -- `op_eq` is asked instead, and its answer inverted
  have inverse : Succeeds due (meaning k [a, b] .unequal) 0 (Tells ¬p) (m.pushRoots (objectNodes [a, b])) := by
    have ready := ready.pushRoots (objectNodes [a, b])
    refine (compares _ ready).bind (k := 0) fun r m' spends tells => ?_
    obtain ⟨x, rfl, exact⟩ := tells
    refine .bind_of_ok (runUnder_truthy pristine (ready.of_spends spends).adds x) ?_
    refine .pure due spends.wellFormed ⟨!x, rfl, ?_⟩
    rw [← exact, Bool.not_eq_true', Bool.not_eq_true]
  exact inverse.keeping.of_runUnder_eq (runUnder_dispatch_of_pass _ rfl pass)

/-- A list contains what one of its items is equal to. -/
theorem succeeds_contains {items : Array Ref} {shown : List Snapshot} (pristine : h.Pristine)
    (live : h.object? a = some o) (untyped : o.type = none) (data : o.payload = .list items)
    (each : List.Forall₂ (fun q v => Equates due (reentry fuel) h n q b (v = t)) items.toList shown)
    (ready : m.Extends h (n + 1)) :
    Succeeds due (callOperator (reentry (fuel + 1)) "op_contains" [a, b] true) 0 (Tells (t ∈ shown)) m := by
  have declared : binaryMember "op_contains" "item" .list (.list .contains) ∈ Declaration.ofKind .list := by decide
  refine succeeds_of_declared pristine declared rfl (by decide) ready live untyped (by rw [data]; rfl) fun m ready => ?_
  have reads : (itemsOf a).runUnder due m = .ok items m := by
    rw [itemsOf, runUnder_bind, runUnder_payload_of live ready.adds, data]
    rfl
  show Succeeds due (runList (reentry fuel) .contains [a, b]) 0 _ m
  rw [runList]
  refine .bind_of_ok reads ?_
  refine ((succeeds_containsItem each (ready.pushRoots _)).keeping).bind (k := 0) fun x m' spends some => ?_
  exact .pure due spends.wellFormed ⟨x, rfl, some⟩

/-! ### Equality -/

/-- A computation answers a question with a truth value, and stores nothing for it. -/
def Answers (due : Schedule) (m : Machine) (x : Engine Ref) (p : Prop) : Prop :=
  ∃ (yes : Bool) (m' : Machine), x.runUnder due m = .ok (.ofBool yes) m' ∧ m.Spends 0 m' ∧ (yes = true ↔ p)

theorem Succeeds.answers {x : Engine Ref} (succeeds : Succeeds due x 0 (Tells p) m) : Answers due m x p := by
  obtain ⟨r, m', ran, spends, x, rfl, exact⟩ := succeeds m.heap.hasRoom_zero
  exact ⟨x, m', ran, spends, exact⟩

/-- Questions that come to the same have the same answer. -/
theorem Answers.congr {x : Engine Ref} {q : Prop} (answers : Answers due m x p) (same : q ↔ p) :
    Answers due m x q := by
  obtain ⟨yes, m', ran, spends, exact⟩ := answers
  exact ⟨yes, m', ran, spends, exact.trans same.symm⟩

/-- A computation answers yes just if this is the answer. -/
theorem Answers.yes_iff {x : Engine Ref} (answers : Answers due m x p) :
    (∃ m', x.runUnder due m = .ok .yes m') ↔ p := by
  obtain ⟨yes, m', ran, -, exact⟩ := answers
  rw [← exact, ran]
  cases yes with
  | true => exact iff_of_true ⟨m', rfl⟩ rfl
  | false =>
    refine iff_of_false ?_ Bool.false_ne_true
    rintro ⟨m'', same⟩
    cases same

/-- At any time in a session the members are all that can have changed. -/
theorem pristine_of_mem_passage {budget : Budget} {tracer : Tracer} {actions : List HostAction}
    (reachable : h ∈ (Machine.boot budget tracer).passage actions) (unmodified : h.Unmodified) : h.Pristine := by
  have orderly := Machine.orderly_of_mem_passage reachable
  have equipped : h.Equipped :=
    ⟨orderly.objects, Machine.builtinsStand_of_mem_passage reachable, unmodified.furnished⟩
  exact ⟨equipped, unmodified, orderly, Machine.hasSingles_of_mem_passage reachable⟩

theorem exists_mem_iff_of_forall₂ {α β : Type} {P : α → Prop} {Q : β → Prop} {l : List α} {l' : List β}
    (each : List.Forall₂ (fun a b => P a ↔ Q b) l l') : (∃ a ∈ l, P a) ↔ ∃ b ∈ l', Q b := by
  induction each with
  | nil => exact iff_of_false (by simp) (by simp)
  | cons first _ ih => rw [List.exists_mem_cons_iff, List.exists_mem_cons_iff, first, ih]

/-- At any time in a session, while the built-in Types have the members that were declared for them and no others,
`op_eq` is true of two literals just if they spell the same, and `op_ne` just if they do not, if calls can be nested
more deeply than one of the two; so `op_eq` is an equivalence. A list contains a literal, according to `op_contains`,
just if one of its items spells the same. If the snapshots do not cut both of what is compared, what spells the same
is what has the same snapshot. -/
theorem equality_is_structural {budget : Budget} {tracer : Tracer} {actions : List HostAction} {m : Machine}
    (reachable : m.heap ∈ (Machine.boot budget tracer).passage actions) (unmodified : m.heap.Unmodified) {n fuel : Nat}
    (can : m.CanNest (n + 1)) (enough : n < fuel) (due : Schedule) :
    let eq := fun a b => callOperator (reentry fuel) "op_eq" [a, b] true
    let ne := fun a b => callOperator (reentry fuel) "op_ne" [a, b] true
    let contains := fun l x => callOperator (reentry fuel) "op_contains" [l, x] true
    (∀ a b s t, m.heap.Literal a s → m.heap.Literal b t → min s.nesting t.nesting ≤ n →
      Answers due m (eq a b) (s = t) ∧ Answers due m (ne a b) (s ≠ t) ∧
      m.heap.snapshot? a = some (s.cut Heap.snapshotDepth) ∧ m.heap.snapshot? b = some (t.cut Heap.snapshotDepth) ∧
      (min s.nesting t.nesting ≤ Heap.snapshotDepth →
        Answers due m (eq a b) (m.heap.snapshot? a = m.heap.snapshot? b) ∧
        Answers due m (ne a b) (m.heap.snapshot? a ≠ m.heap.snapshot? b))) ∧
    (∀ l x shown t, m.heap.Literal l (.list shown) → m.heap.Literal x t → (∀ v ∈ shown, min v.nesting t.nesting < n) →
      Answers due m (contains l x) (t ∈ shown) ∧
      ((∀ v ∈ shown, min v.nesting t.nesting ≤ Heap.snapshotDepth) →
        ∃ items, m.heap.payload? l = some (.list items) ∧
          Answers due m (contains l x) (∃ q ∈ items, m.heap.snapshot? q = m.heap.snapshot? x))) ∧
    Equivalence fun a b : {r // ∃ s, m.heap.Literal r s ∧ s.nesting ≤ n} =>
      ∃ m', (eq a b).runUnder due m = .ok .yes m' := by
  intro eq ne contains
  have pristine := pristine_of_mem_passage reachable unmodified
  have start : m.Extends m.heap (n + 1) := ⟨.refl pristine.equipped.objects, can⟩
  have compares {a b : Ref} {s t : Snapshot} (left : m.heap.Literal a s) (right : m.heap.Literal b t)
      (shallow : min s.nesting t.nesting ≤ n) : Compares due (reentry fuel) m.heap (n + 1) a b (s = t) :=
    compares_of_literal due pristine left right shallow enough
  refine ⟨fun a b s t left right shallow => ?_, fun l x shown t list literal shallow => ?_, ?_⟩
  · have equal := (compares left right shallow m start).answers
    have unequal := (succeeds_unequal (compares left right shallow) pristine left right start).answers
    refine ⟨equal, unequal, left.snapshot?, right.snapshot?, fun shown => ?_⟩
    have same := left.snapshot?_eq_iff right shown
    exact ⟨equal.congr same, unequal.congr (not_congr same)⟩
  · obtain ⟨o, items, live, untyped, payload, literals⟩ := list.exists_items
    obtain ⟨length, literals⟩ := List.forall₂_iff_zip.mp literals
    obtain ⟨fuel, rfl⟩ : ∃ f, fuel = f + 1 := ⟨fuel - 1, by omega⟩
    have each : List.Forall₂ (fun q v => Equates due (reentry fuel) m.heap n q x (v = t)) items.toList shown := by
      refine List.forall₂_iff_zip.mpr ⟨length, fun {q v} mem => ?_⟩
      have less := shallow v (List.of_mem_zip mem).2
      obtain ⟨n, rfl⟩ : ∃ n', n = n' + 1 := ⟨n - 1, by omega⟩
      have compares := compares_of_literal due pristine (literals mem) literal (Nat.le_of_lt_succ less)
        (Nat.lt_of_succ_lt_succ enough)
      exact compares.equates pristine (literals mem) literal
    have answers := (succeeds_contains pristine live untyped payload each start).answers
    refine ⟨answers, fun shallow => ⟨items, by rw [Heap.payload?, live, Option.map_some, payload], ?_⟩⟩
    have same : List.Forall₂ (fun q v => m.heap.snapshot? q = m.heap.snapshot? x ↔ v = t) items.toList shown :=
      List.forall₂_iff_zip.mpr ⟨length, fun {q v} mem =>
        (literals mem).snapshot?_eq_iff literal (shallow v (List.of_mem_zip mem).2)⟩
    have some := exists_mem_iff_of_forall₂ same
    simp only [exists_eq_right, Array.mem_toList_iff] at some
    exact answers.congr some
  · have equal {a b : Ref} {s t : Snapshot} (left : m.heap.Literal a s) (right : m.heap.Literal b t)
        (shallow : s.nesting ≤ n) : (∃ m', (eq a b).runUnder due m = .ok .yes m') ↔ s = t :=
      (compares left right ((min_le_left _ _).trans shallow) m start).answers.yes_iff
    constructor
    · rintro ⟨a, s, literal, shallow⟩
      exact (equal literal literal shallow).mpr rfl
    · rintro ⟨a, s, left, shallow⟩ ⟨b, t, right, shallow'⟩ yes
      exact (equal right left shallow').mpr ((equal left right shallow).mp yes).symm
    · rintro ⟨a, s, first, shallow⟩ ⟨b, t, second, shallow'⟩ ⟨c, u, third, shallow''⟩ yes yes'
      have same := (equal first second shallow).mp yes
      exact (equal first third shallow).mpr (same.trans ((equal second third shallow').mp yes'))

/-- As long as the built-in Types have the members that they had at the start, these are the ones that were declared. -/
theorem unmodified_of_untouched {budget : Budget} {tracer : Tracer} {actions : List HostAction}
    (untouched : ∀ h ∈ (Machine.boot budget tracer).passage actions, ∀ k name,
      h.ownMember? (Kind.ref k) name = Heap.boot.ownMember? k.ref name) :
    ∀ h ∈ (Machine.boot budget tracer).passage actions, h.Unmodified := by
  intro h reachable
  refine ⟨fun k d declared => ?_, fun k name other => ?_⟩
  · exact Machine.furnished_of_untouched declared (fun h reachable => untouched h reachable k d.name) h reachable
  · rw [untouched h reachable]
    exact Heap.unmodified_boot.bare k name other

/-- To store values leaves the members of the built-in Types as they were declared. -/
theorem unmodified_of_stores (budget : Budget) (tracer : Tracer) (values : List Snapshot) :
    ((Machine.boot budget tracer).afterSession (values.map .store)).heap.Unmodified := by
  have equipped := Machine.equipped_boot budget tracer
  have orderly : (Machine.boot budget tracer).heap.Orderly := by
    rw [Machine.heap_boot]
    exact Heap.orderly_boot.withBudget budget
  have unmodified : (Machine.boot budget tracer).heap.Unmodified := by
    rw [Machine.heap_boot]
    exact Heap.unmodified_boot.withBudget budget
  exact unmodified.of_adds equipped.stand (Machine.retains_of_stores orderly values).adds

/-- An integer and a list of a text and `null`. -/
def pairedList : Snapshot := .list [.int 1, .list [.str "k", .null]]

/-- The list is stored twice, and the two are equal. -/
theorem equality_is_structural_paired :
    let start := Machine.boot (.ofLimits .standard) .silent
    let actions := [pairedList, pairedList].map HostAction.store
    let m := start.afterSession actions
    let a : Ref := ⟨145⟩
    let b : Ref := ⟨149⟩
    m.heap ∈ start.passage actions ∧ m.heap.Unmodified ∧ m.heap.Literal a pairedList ∧ m.heap.Literal b pairedList ∧
      m.CanNest 3 ∧ ∃ m', (callOperator (reentry Machine.fuel) "op_eq" [a, b] true).run m = .ok .yes m' := by
  intro start actions m a b
  have reachable : m.heap ∈ start.passage actions := start.heap_afterSession_mem_passage _
  have unmodified : m.heap.Unmodified := unmodified_of_stores _ _ [pairedList, pairedList]
  obtain ⟨null, one, key, inner, outer, one', key', inner', outer', can⟩ :
      m.heap.object? .null = some (.ofPayload .null none) ∧
      m.heap.object? ⟨142⟩ = some (.ofPayload (.int 1) none) ∧
      m.heap.object? ⟨143⟩ = some (.ofPayload (.str "k") none) ∧
      m.heap.object? ⟨144⟩ = some (.ofPayload (.list #[⟨143⟩, .null]) none) ∧
      m.heap.object? a = some (.ofPayload (.list #[⟨142⟩, ⟨144⟩]) none) ∧
      m.heap.object? ⟨146⟩ = some (.ofPayload (.int 1) none) ∧
      m.heap.object? ⟨147⟩ = some (.ofPayload (.str "k") none) ∧
      m.heap.object? ⟨148⟩ = some (.ofPayload (.list #[⟨147⟩, .null]) none) ∧
      m.heap.object? b = some (.ofPayload (.list #[⟨146⟩, ⟨148⟩]) none) ∧ m.CanNest 3 := by
    decide +kernel
  have ofNull : m.heap.Literal .null .null := .atom null rfl rfl
  have left : m.heap.Literal a pairedList :=
    .of_items outer rfl rfl (.cons (.atom one rfl rfl) (.cons
      (.of_items inner rfl rfl (.cons (.atom key rfl rfl) (.cons ofNull .nil))) .nil))
  have right : m.heap.Literal b pairedList :=
    .of_items outer' rfl rfl (.cons (.atom one' rfl rfl) (.cons
      (.of_items inner' rfl rfl (.cons (.atom key' rfl rfl) (.cons ofNull .nil))) .nil))
  have shallow : min pairedList.nesting pairedList.nesting ≤ 2 := by decide
  have enough : 2 < Machine.fuel := by decide +kernel
  obtain ⟨compared, -, -⟩ := equality_is_structural reachable unmodified can enough Heap.collectionDue
  obtain ⟨answers, -⟩ := compared a b _ _ left right shallow
  exact ⟨reachable, unmodified, left, right, can, answers.yes_iff.mpr rfl⟩

/-- Lists around a snapshot. -/
def wrapped (s : Snapshot) : Nat → Snapshot
  | 0 => s
  | n + 1 => .list [wrapped s n]

theorem nesting_wrapped (s : Snapshot) (n : Nat) : (wrapped s n).nesting = s.nesting + n := by
  induction n with
  | zero => rfl
  | succ n ih =>
    rw [wrapped, Snapshot.nesting, Snapshot.nestingItems, Snapshot.nestingItems, Nat.max_zero, ih, Nat.add_assoc]

/-- What lists are around is not shown if they are nested too deeply. -/
theorem cut_wrapped (s : Snapshot) (n : Nat) : (wrapped s (n + 1)).cut n = wrapped (.cycle "[...]") n := by
  induction n with
  | zero => rfl
  | succ n ih => rw [wrapped, Snapshot.cut_succ_list, List.map_singleton, ih, wrapped]

theorem wrapped_injective {s t : Snapshot} {n : Nat} (same : wrapped s n = wrapped t n) : s = t := by
  induction n with
  | zero => exact same
  | succ n ih => exact ih (List.singleton_inj.mp (Snapshot.list.inj same))

theorem isLiteral_wrapped {s : Snapshot} (isLiteral : s.IsLiteral) (n : Nat) : (wrapped s n).IsLiteral := by
  induction n with
  | zero => exact isLiteral
  | succ n ih => exact .list _ (List.forall_mem_singleton.mpr ih)

/-- Two integers are stored in so many lists that the snapshots do not show them. They are not equal, although their
snapshots are. -/
theorem unequal_behind_cut :
    let start := Machine.boot (.ofLimits .standard) .silent
    let values := [wrapped (.int 1) 101, wrapped (.int 2) 101]
    let actions := values.map HostAction.store
    let m := start.afterSession actions
    m.heap ∈ start.passage actions ∧ m.heap.Unmodified ∧ m.CanNest 102 ∧
      ∃ a b, List.Forall₂ m.heap.Literal [a, b] values ∧ m.heap.snapshot? a = m.heap.snapshot? b ∧
        ∃ m', (callOperator (reentry Machine.fuel) "op_eq" [a, b] true).run m = .ok .no m' := by
  intro start values actions m
  have reachable : m.heap ∈ start.passage actions := start.heap_afterSession_mem_passage _
  have unmodified : m.heap.Unmodified := unmodified_of_stores _ _ values
  have can : m.CanNest 102 := by decide +kernel
  obtain ⟨refs, literals⟩ : ∃ refs, List.Forall₂ m.heap.Literal refs values := by
    refine Machine.exists_literals_of_stores ?_ ?_
    · rw [Machine.heap_boot]
      exact Heap.ample_withBudget Heap.orderly_boot Heap.hasSingles_boot fun n limit none => by cases none
    · exact List.forall_mem_cons.mpr ⟨isLiteral_wrapped (.int 1) 101,
        List.forall_mem_singleton.mpr (isLiteral_wrapped (.int 2) 101)⟩
  obtain ⟨a, refs, left, literals', rfl⟩ := List.forall₂_cons_right_iff.mp literals
  obtain ⟨b, refs, right, rest, rfl⟩ := List.forall₂_cons_right_iff.mp literals'
  obtain rfl := List.forall₂_nil_right_iff.mp rest
  have shallow : min (wrapped (.int 1) 101).nesting (wrapped (.int 2) 101).nesting ≤ 101 := by
    rw [nesting_wrapped, nesting_wrapped]
    decide
  have enough : 101 < Machine.fuel := by decide +kernel
  have pristine := pristine_of_mem_passage reachable unmodified
  have compares := compares_of_literal Heap.collectionDue pristine left right shallow enough
  obtain ⟨yes, m', ran, -, exact⟩ := (compares m ⟨.refl pristine.equipped.objects, can⟩).answers
  obtain rfl : yes = false := by
    refine Bool.eq_false_iff.mpr fun equal => ?_
    have same := Snapshot.int.inj (wrapped_injective (exact.mp equal))
    exact absurd same (by decide)
  have cuts : m.heap.snapshot? a = m.heap.snapshot? b := by
    rw [left.snapshot?, right.snapshot?]
    exact congrArg some ((cut_wrapped _ 100).trans (cut_wrapped _ 100).symm)
  exact ⟨reachable, unmodified, can, a, b, literals, cuts, m', ran⟩

end Engine

end ObjectMachine
