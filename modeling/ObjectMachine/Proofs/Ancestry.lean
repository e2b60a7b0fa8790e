import Mathlib.Logic.Relation
import ObjectMachine.Proofs.Arenas
import ObjectMachine.Proofs.Linearization
/-!
Subtyping is ancestry. The ancestors of a Type are the Types that its parents lead to, in an order that
keeps the orders of all of them, from the Type itself to the root of all Types. This is so throughout a
session as long as whatever serves as a Type has ancestors; a Type whose parents have no common order is
left without ancestors, and nothing is to hold it. What a Type is never changes while it lives.
-/
namespace ObjectMachine

namespace Lineage

variable {α : Type} {self : α} {parents order : List α} {orderOf orderOf' : α → List α}

theorem IsCommonOrder.congr (common : IsCommonOrder parents orderOf order)
    (same : ∀ p ∈ parents, orderOf' p = orderOf p) : IsCommonOrder parents orderOf' order where
  nodup := common.nodup
  mem_iff x := by
    rw [common.mem_iff]
    exact exists_congr fun p => and_congr_right fun mem => by rw [same p mem]
  keeps_orders p mem := same p mem ▸ common.keeps_orders p mem
  keeps_parents := common.keeps_parents

/-- The order of a single parent is an order for its children. -/
theorem IsCommonOrder.single {p : α} (nodup : (orderOf p).Nodup) (mem : p ∈ orderOf p) :
    IsCommonOrder [p] orderOf (orderOf p) where
  nodup := nodup
  mem_iff x := by simp
  keeps_orders q mem := List.mem_singleton.mp mem ▸ .refl _
  keeps_parents := List.singleton_sublist.mpr mem

variable [DecidableEq α]

theorem not_mem_of_linearize (some : parents ≠ [])
    (linear : linearize self parents orderOf = .ok order) : self ∉ parents := by
  intro mem
  simp [linearize, some, mem] at linear

/-- An ancestor order starts with the Type itself, and then keeps the order of the parents. -/
theorem starts_of_linearize (some : parents ≠ [])
    (linear : linearize self parents orderOf = .ok order) :
    ∃ rest, order = self :: rest ∧ parents.Sublist rest := by
  obtain ⟨rest, starts, merged⟩ := exists_of_linearize (not_mem_of_linearize some linear) linear
  obtain ⟨-, -, keeps, -⟩ := merge_eq_ok (Nat.lt_succ_self _) merged
  refine ⟨rest, starts, keeps parents ?_⟩
  exact List.mem_append_right _ (List.mem_singleton_self _)

end Lineage

/-- If the last item of a list occurs in a sublist of it, it is the last there too. -/
theorem getLast?_of_sublist {α : Type} {l rest : List α} {x : α} (sublist : l.Sublist rest)
    (nodup : rest.Nodup) (last : rest.getLast? = some x) (mem : x ∈ l) : l.getLast? = some x := by
  obtain ⟨before, rfl⟩ := List.getLast?_eq_some_iff.mp last
  obtain ⟨first, tail, rfl, inBefore, inLast⟩ := List.sublist_append_iff.mp sublist
  have fresh : x ∉ before := by
    intro again
    exact (List.nodup_append.mp nodup).2.2 x again x List.mem_cons_self rfl
  have inTail : x ∈ tail := by
    rcases List.mem_append.mp mem with early | late
    · exact absurd (inBefore.subset early) fresh
    · exact late
  have tail_eq : tail = [x] := by
    rcases List.sublist_singleton.mp inLast with none | one
    · rw [none] at inTail
      cases inTail
    · exact one
  rw [tail_eq, List.getLast?_concat]

namespace Heap

variable {h h' : Heap} {T U V P : Ref} {info : TypeInfo}

/-! ### What a step does to the Types -/

/-- What a step does to the Types: nothing, or it makes one, or it releases some. A new Type has the
ancestors that follow from its parents, or neither parents nor ancestors. -/
inductive Retypes (h h' : Heap) : Prop where
  | same (types : ∀ T, h'.typeInfo? T = h.typeInfo? T)
  | new (T : Ref) (info : TypeInfo) (vacant : h.object? T = none)
    (types : ∀ U, h'.typeInfo? U = if U = T then some info else h.typeInfo? U)
    (ancestors : info.parents = [] ∧ info.mro = [] ∨
      info.parents ≠ [] ∧ Lineage.linearize T info.parents h.mro = .ok info.mro)
  | fewer (types : ∀ T info, h'.typeInfo? T = some info → h.typeInfo? T = some info)

theorem typeInfo?_of_vacant (vacant : h.object? T = none) : h.typeInfo? T = none := by
  simp only [typeInfo?, payload?, vacant, Option.map_none]

theorem mro_of_typeInfo?_none (none : h.typeInfo? T = none) : h.mro T = [] := by
  rw [mro, none, Option.map_none, Option.getD_none]

theorem mro_congr (same : h'.typeInfo? T = h.typeInfo? T) : h'.mro T = h.mro T := by
  rw [mro, mro, same]

theorem exists_typeInfo?_of_mro (proper : h.mro T ≠ []) :
    ∃ info, h.typeInfo? T = some info ∧ info.mro = h.mro T := by
  cases found : h.typeInfo? T with
  | none => exact absurd (mro_of_typeInfo?_none found) proper
  | some info => exact ⟨info, rfl, (mro_of_typeInfo? found).symm⟩

/-- The Types after an object is stored. -/
theorem Stores.typeInfo?_of_ne {r : Ref} {o : Object} (stores : h.Stores r o h') (other : T ≠ r) :
    h'.typeInfo? T = h.typeInfo? T :=
  typeInfo?_congr (by rw [stores.object?, if_neg other])

theorem Stores.payload? {r : Ref} {o : Object} (stores : h.Stores r o h') :
    h'.payload? r = some o.payload := by
  rw [Heap.payload?, stores.object?, if_pos rfl, Option.map_some]

theorem retypes_of_allocateType {name : String} {parents : List Ref} {result : Except Lineage.Fault Ref}
    (some : parents ≠ []) (w : h.objects.WellFormed)
    (stored : h.allocateType name parents = (.ok result, h')) : h.Retypes h' := by
  simp only [allocateType] at stored
  split at stored
  · cases stored
  · rename_i T h₁ allocated
    have stores := stores_of_allocate w allocated
    have placeholder := typeInfo?_eq_some_iff.mpr stores.payload?
    -- the Type is without ancestors while they are looked for
    have same : h₁.mro = h.mro := by
      funext U
      rcases eq_or_ne U T with rfl | other
      · rw [mro_of_typeInfo? placeholder, mro_of_typeInfo?_none (typeInfo?_of_vacant stores.vacant)]
      · exact mro_congr (stores.typeInfo?_of_ne other)
    rw [same] at stored
    split at stored
    · cases stored
      refine .new T ⟨name, [], []⟩ stores.vacant (fun U => ?_) (.inl ⟨rfl, rfl⟩)
      rcases eq_or_ne U T with rfl | other
      · rw [if_pos rfl, placeholder]
      · rw [if_neg other, stores.typeInfo?_of_ne other]
    · rename_i mro linear
      cases stored
      refine .new T ⟨name, parents, mro⟩ stores.vacant (fun U => ?_) (.inr ⟨some, linear⟩)
      rcases eq_or_ne U T with rfl | other
      · simp only [Heap.typeInfo?, payload?, object?_modify, stores.object?, ↓reduceIte, Option.map_some]
      · have kept : (h₁.modify T fun o => { o with payload := .type ⟨name, parents, mro⟩ }).object? U =
            h₁.object? U := by
          rw [object?_modify, if_neg (Ne.symm other)]
        rw [if_neg other, typeInfo?_congr kept, stores.typeInfo?_of_ne other]

theorem typeInfo?_changeAll (h : Heap) (changes : List (Ref × Change)) (T : Ref) :
    (h.changeAll changes).typeInfo? T = h.typeInfo? T := by
  induction changes generalizing h with
  | nil => rfl
  | cons c later ih => exact (ih (h.modify c.1 c.2.apply)).trans (h.typeInfo?_modify c.1 c.2 T)

/-- Storing other data changes no Type. -/
theorem typeInfo?_allocate {o : Object} (w : h.objects.WellFormed) (data : o.payload.isReserved = false) (T : Ref) :
    (h.allocate o).2.typeInfo? T = h.typeInfo? T := by
  cases stored : h.allocate o with
  | mk result h₁ =>
    cases result with
    | error e => rw [eq_of_allocate_error stored]
    | ok r =>
      have stores := stores_of_allocate w stored
      rcases eq_or_ne T r with rfl | other
      · rw [typeInfo?_of_vacant stores.vacant, Option.eq_none_iff_forall_ne_some]
        intro info found
        rw [typeInfo?_eq_some_iff, stores.payload?, Option.some_inj] at found
        rw [found] at data
        cases data
      · exact stores.typeInfo?_of_ne other

/-- The Types that a collection leaves are as they were. -/
theorem typeInfo?_of_collect {roots : List Node} (found : (h.collect roots).2.typeInfo? T = some info) :
    h.typeInfo? T = some info := by
  obtain ⟨o, at_T, type⟩ := exists_object_of_typeInfo? found
  rw [typeInfo?_eq_some_iff, Heap.payload?, object?_of_collect at_T, Option.map_some, type]

theorem Step.retypes (step : h.Step h') (w : h.objects.WellFormed) : h.Retypes h' := by
  cases step with
  | store o data => exact .same (typeInfo?_allocate w data)
  | storeType name parents some =>
    cases stored : h.allocateType name parents with
    | mk result h₁ =>
      cases result with
      | error e =>
        rw [eq_of_allocateType_error stored]
        exact .same fun _ => rfl
      | ok result => exact retypes_of_allocateType some w stored
  | openScope s =>
    refine .same fun T => typeInfo?_congr ?_
    simp only [Heap.object?, objects_allocateScope]
  | change changes => exact .same (typeInfo?_changeAll h changes)
  | bind s f => exact .same fun _ => rfl
  | tick => exact .same fun _ => rfl
  | beginRequest => exact .same fun _ => rfl
  | collect roots => exact .fewer fun _ _ => typeInfo?_of_collect

/-- A Type stays what it is until its slot is vacated. -/
theorem Step.typeInfo? (step : h.Step h') (w : h.objects.WellFormed)
    (found : h.typeInfo? T = some info) : h'.typeInfo? T = some info ∨ h'.object? T = none := by
  rw [typeInfo?_eq_some_iff] at found ⊢
  have kept := step.payload? w (Payload.constant_type info) found
  exact kept.imp_right And.left

/-! ### Types made from their parents -/

/-- How a Type was made: without ancestors, as the root of all Types, or from its parents. -/
inductive Made (T : Ref) (info : TypeInfo) : Prop where
  | abandoned (parents : info.parents = []) (mro : info.mro = [])
  | root (self : T = Kind.object.ref) (parents : info.parents = []) (mro : info.mro = [T])
  | derived (rest : List Ref) (some : info.parents ≠ []) (mro : info.mro = T :: rest)
    (keeps : info.parents.Sublist rest)

/-- All Types of a heap were made in one of these ways. -/
def TypesMade (h : Heap) : Prop := ∀ T info, h.typeInfo? T = some info → Made T info

/-- The parents of all Types have ancestors. -/
def ParentsHaveAncestors (h : Heap) : Prop :=
  ∀ T info, h.typeInfo? T = some info → ∀ P ∈ info.parents, h.mro P ≠ []

/-- The ancestors of each Type that has parents are the Type and then a common order of its parents. -/
def InOrder (h : Heap) : Prop :=
  ∀ T info rest, h.typeInfo? T = some info → info.parents ≠ [] → info.mro = T :: rest →
    T ∉ rest ∧ Lineage.IsCommonOrder info.parents h.mro rest

theorem Made.starts (made : Made T info) (proper : info.mro ≠ []) : info.mro.head? = some T := by
  cases made with
  | abandoned _ mro => exact absurd mro proper
  | root _ _ mro => rw [mro, List.head?_cons]
  | derived rest _ mro _ => rw [mro, List.head?_cons]

theorem TypesMade.starts (made : h.TypesMade) (proper : h.mro T ≠ []) : (h.mro T).head? = some T := by
  obtain ⟨info, found, mro⟩ := exists_typeInfo?_of_mro proper
  rw [← mro] at proper ⊢
  exact (made T info found).starts proper

theorem TypesMade.retyped (made : h.TypesMade) (retypes : h.Retypes h') : h'.TypesMade := by
  intro T info found
  cases retypes with
  | same types => exact made T info (types T ▸ found)
  | new T₁ info₁ _ types ancestors =>
    rw [types] at found
    split at found
    · rename_i here
      cases found
      rcases ancestors with ⟨parents, mro⟩ | ⟨some, linear⟩
      · exact .abandoned parents mro
      · obtain ⟨rest, mro, keeps⟩ := Lineage.starts_of_linearize some linear
        exact .derived rest some (here ▸ mro) keeps
    · exact made T info found
  | fewer types => exact made T info (types T info found)

/-- One Type names another among its parents. -/
def Extends (h : Heap) (T P : Ref) : Prop := ∃ info, h.typeInfo? T = some info ∧ P ∈ info.parents

/-- What all Types of a heap are founded on. -/
structure Founded (h : Heap) : Prop where
  /-- All Types were made in one of the ways there are. -/
  made : h.TypesMade
  /-- Parents have ancestors. -/
  parents : h.ParentsHaveAncestors
  /-- Ancestors are in order. -/
  inOrder : h.InOrder

namespace Founded

/-- Induction on ancestry: what the root has, and what each Type has from its parents, all Types have
that have ancestors. The parents of a Type have fewer ancestors than the Type. -/
theorem induction (founded : h.Founded) {motive : Ref → Prop}
    (root : h.mro Kind.object.ref = [Kind.object.ref] →
      (∀ info, h.typeInfo? Kind.object.ref = some info → info.parents = []) → motive Kind.object.ref)
    (derived : ∀ T info rest, h.typeInfo? T = some info → h.mro T = T :: rest → T ∉ rest →
      info.parents ≠ [] → Lineage.IsCommonOrder info.parents h.mro rest →
      (∀ P ∈ info.parents, h.mro P ≠ [] ∧ motive P) → motive T)
    (proper : h.mro T ≠ []) : motive T := by
  induction count : (h.mro T).length using Nat.strong_induction_on generalizing T with
  | _ n ih =>
    obtain ⟨info, found, mro⟩ := exists_typeInfo?_of_mro proper
    cases founded.made T info found with
    | abandoned _ none => exact absurd (mro ▸ none) proper
    | root self parents single =>
      subst self
      refine root (mro ▸ single) fun info' found' => ?_
      cases found.symm.trans found'
      exact parents
    | derived rest some starts keeps =>
      obtain ⟨fresh, common⟩ := founded.inOrder T info rest found some starts
      rw [starts] at mro
      refine derived T info rest found mro.symm fresh some common fun P mem => ?_
      have ancestors := founded.parents T info found P mem
      have shorter : (h.mro P).length < n := by
        have within := (common.keeps_orders P mem).length_le
        rw [← mro, List.length_cons] at count
        omega
      exact ⟨ancestors, ih _ shorter ancestors rfl⟩

/-- The ancestors of an ancestor are ancestors, in the same order. -/
theorem ancestor (founded : h.Founded) (proper : h.mro T ≠ []) :
    ∀ U ∈ h.mro T, h.mro U ≠ [] ∧ (h.mro U).Sublist (h.mro T) := by
  refine founded.induction (motive := fun T => ∀ U ∈ h.mro T, h.mro U ≠ [] ∧ (h.mro U).Sublist (h.mro T))
    ?root ?derived proper
  case root =>
    intro mro _ U mem
    rw [mro, List.mem_singleton] at mem
    rw [mem]
    exact ⟨by simp [mro], .refl _⟩
  case derived =>
    intro T info rest _ mro _ _ common parents U mem
    rw [mro] at mem
    rcases List.mem_cons.mp mem with rfl | mem
    · exact ⟨by simp [mro], .refl _⟩
    · -- an ancestor beyond the Type itself comes from a parent
      obtain ⟨P, isParent, inP⟩ := (common.mem_iff U).mp mem
      obtain ⟨ancestors, sublist⟩ := (parents P isParent).2 U inP
      refine ⟨ancestors, sublist.trans ?_⟩
      rw [mro]
      exact (common.keeps_orders P isParent).cons T

theorem nodup (founded : h.Founded) (proper : h.mro T ≠ []) : (h.mro T).Nodup := by
  refine founded.induction (motive := fun T => (h.mro T).Nodup) ?root ?derived proper
  case root =>
    intro mro _
    rw [mro]
    exact List.nodup_singleton _
  case derived =>
    intro T info rest _ mro fresh _ common _
    rw [mro]
    exact List.nodup_cons.mpr ⟨fresh, common.nodup⟩

/-- The last ancestor is the root of all Types. -/
theorem ends (founded : h.Founded) (proper : h.mro T ≠ []) :
    (h.mro T).getLast? = some Kind.object.ref := by
  refine founded.induction (motive := fun T => (h.mro T).getLast? = some Kind.object.ref)
    ?root ?derived proper
  case root =>
    intro mro _
    rw [mro, List.getLast?_singleton]
  case derived =>
    intro T info rest _ mro _ some common parents
    -- the last of the common order is the last of the order of some parent
    have nonempty : rest ≠ [] := by
      rintro rfl
      exact some (List.sublist_nil.mp common.keeps_parents)
    obtain ⟨x, last⟩ := Option.isSome_iff_exists.mp (List.getLast?_isSome.mpr nonempty)
    obtain ⟨P, isParent, inP⟩ := (common.mem_iff x).mp (List.mem_of_getLast? last)
    have inherited := getLast?_of_sublist (common.keeps_orders P isParent) common.nodup last inP
    have root : x = Kind.object.ref := Option.some.inj (inherited.symm.trans (parents P isParent).2)
    rw [mro, List.getLast?_cons, last, root]
    rfl

theorem reaches_of_mem (founded : h.Founded) (proper : h.mro T ≠ []) :
    ∀ U ∈ h.mro T, Relation.ReflTransGen h.Extends T U := by
  refine founded.induction (motive := fun T => ∀ U ∈ h.mro T, Relation.ReflTransGen h.Extends T U)
    ?root ?derived proper
  case root =>
    intro mro _ U mem
    rw [mro, List.mem_singleton] at mem
    rw [mem]
  case derived =>
    intro T info rest found mro _ _ common parents U mem
    rw [mro] at mem
    rcases List.mem_cons.mp mem with rfl | mem
    · exact .refl
    · obtain ⟨P, isParent, inP⟩ := (common.mem_iff U).mp mem
      exact .head ⟨info, found, isParent⟩ ((parents P isParent).2 U inP)

/-- Whatever a Type names as a parent is an ancestor of it, with all its own ancestors. -/
theorem parent (founded : h.Founded) (extends_ : h.Extends T P) :
    h.mro P ≠ [] ∧ P ∈ h.mro T ∧ (h.mro P).Sublist (h.mro T) := by
  obtain ⟨info, found, isParent⟩ := extends_
  have ancestors := founded.parents T info found P isParent
  have some : info.parents ≠ [] := List.ne_nil_of_mem isParent
  cases founded.made T info found with
  | abandoned none _ => exact absurd none some
  | root _ none _ => exact absurd none some
  | derived rest _ mro keeps =>
    obtain ⟨-, common⟩ := founded.inOrder T info rest found some mro
    rw [← mro_of_typeInfo? found] at mro
    rw [mro]
    exact ⟨ancestors, List.mem_cons_of_mem T (keeps.subset isParent),
      (common.keeps_orders P isParent).cons T⟩

theorem mem_of_reaches (founded : h.Founded) (reaches : Relation.ReflTransGen h.Extends T U)
    (proper : h.mro T ≠ []) : U ∈ h.mro T := by
  induction reaches using Relation.ReflTransGen.head_induction_on with
  | refl => exact List.mem_of_head? (founded.made.starts proper)
  | head extends_ _ ih =>
    obtain ⟨ancestors, -, sublist⟩ := founded.parent extends_
    exact sublist.subset (ih ancestors)

end Founded

/-- The ancestors of a Type are what its parents lead to, in order. -/
structure Descends (h : Heap) (T : Ref) : Prop where
  /-- The Type itself comes first. -/
  starts : (h.mro T).head? = some T
  /-- No ancestor is named twice. -/
  nodup : (h.mro T).Nodup
  /-- The root of all Types comes last. -/
  ends : (h.mro T).getLast? = some Kind.object.ref
  /-- The ancestors are the Types that parents lead to. -/
  mem_iff : ∀ U, U ∈ h.mro T ↔ h.isType U ∧ Relation.ReflTransGen h.Extends T U
  /-- The ancestors of an ancestor stand in the same order. -/
  sublist : ∀ U ∈ h.mro T, (h.mro U).Sublist (h.mro T)

theorem isType_of_mro (proper : h.mro T ≠ []) : h.isType T := by
  obtain ⟨info, found, -⟩ := exists_typeInfo?_of_mro proper
  exact Option.isSome_iff_exists.mpr ⟨info, found⟩

theorem Founded.descends (founded : h.Founded) (proper : h.mro T ≠ []) : h.Descends T where
  starts := founded.made.starts proper
  nodup := founded.nodup proper
  ends := founded.ends proper
  mem_iff U := by
    constructor
    · intro mem
      exact ⟨isType_of_mro (founded.ancestor proper U mem).1, founded.reaches_of_mem proper U mem⟩
    · exact fun reached => founded.mem_of_reaches reached.2 proper
  sublist U mem := (founded.ancestor proper U mem).2

namespace Descends

theorem isSubtype_iff (descends : h.Descends T) : h.isSubtype T U ↔ U ∈ h.mro T := by
  rw [isSubtype, Bool.or_eq_true, beq_iff_eq, List.contains_iff_mem, or_iff_right_iff_imp]
  rintro rfl
  exact List.mem_of_head? descends.starts

theorem trans (descends : h.Descends T) (first : h.isSubtype T U) (second : h.isSubtype U V) :
    h.isSubtype T V := by
  rw [descends.isSubtype_iff] at first ⊢
  rw [isSubtype, Bool.or_eq_true, beq_iff_eq, List.contains_iff_mem] at second
  rcases second with rfl | mem
  · exact first
  · exact (descends.sublist U first).subset mem

theorem antisymm (descends : h.Descends T) (descends' : h.Descends U) (up : h.isSubtype T U)
    (down : h.isSubtype U T) : T = U := by
  rw [descends.isSubtype_iff] at up
  rw [descends'.isSubtype_iff] at down
  have same : h.mro T = h.mro U := (descends'.sublist T down).antisymm (descends.sublist U up)
  have first := descends.starts
  rw [same, descends'.starts] at first
  exact (Option.some.inj first).symm

end Descends

/-! ### Every step keeps Types founded -/

theorem Founded.retyped (founded : h.Founded) (retypes : h.Retypes h') (parents : h'.ParentsHaveAncestors) :
    h'.Founded := by
  refine ⟨founded.made.retyped retypes, parents, ?_⟩
  intro T info rest found some mro
  cases retypes with
  | same types =>
    obtain ⟨fresh, common⟩ := founded.inOrder T info rest (types T ▸ found) some mro
    exact ⟨fresh, common.congr fun P _ => mro_congr (types P)⟩
  | new T₁ info₁ vacant types ancestors =>
    have none₁ : h.mro T₁ = [] := mro_of_typeInfo?_none (typeInfo?_of_vacant vacant)
    have kept {P : Ref} (other : P ≠ T₁) : h'.mro P = h.mro P :=
      mro_congr ((types P).trans (if_neg other))
    have found' := found
    rw [types] at found
    split at found
    · rename_i here
      subst here
      cases found
      rcases ancestors with ⟨none, -⟩ | ⟨_, linear⟩
      · exact absurd none some
      -- the parents were there before, with the same ancestors, and none of these is the new Type
      have fresh := Lineage.not_mem_of_linearize some linear
      have same {P : Ref} (isParent : P ∈ info.parents) : h'.mro P = h.mro P :=
        kept fun eq => fresh (eq ▸ isParent)
      have proper {P : Ref} (isParent : P ∈ info.parents) : h.mro P ≠ [] :=
        same isParent ▸ parents T info found' P isParent
      obtain ⟨rest', starts, merged⟩ := Lineage.exists_of_linearize fresh linear
      cases starts.symm.trans mro
      obtain ⟨common, -⟩ := Lineage.isCommonOrder_of_merge
        (fun P isParent => founded.made.starts (proper isParent)) (Nat.lt_succ_self _) merged
      refine ⟨fun mem => ?_, common.congr fun P isParent => same isParent⟩
      obtain ⟨P, isParent, inP⟩ := (common.mem_iff T).mp mem
      exact (founded.ancestor (proper isParent) T inP).1 none₁
    · obtain ⟨fresh, common⟩ := founded.inOrder T info rest found some mro
      refine ⟨fresh, common.congr fun P isParent => kept ?_⟩
      rintro rfl
      exact founded.parents T info found P isParent none₁
  | fewer types =>
    obtain ⟨fresh, common⟩ := founded.inOrder T info rest (types T info found) some mro
    refine ⟨fresh, common.congr fun P isParent => ?_⟩
    obtain ⟨infoP, foundP, ancestors⟩ := exists_typeInfo?_of_mro (parents T info found P isParent)
    rw [← ancestors, mro_of_typeInfo? (types P infoP foundP)]

/-! ### The start -/

/-- Whether a Type, if it is one, is the root or continues the ancestors of a single parent. -/
def rooted (h : Heap) (T : Ref) : Bool :=
  match h.typeInfo? T with
  | none => true
  | some info =>
    match info.parents with
    | [] => T == Kind.object.ref && info.mro == [T]
    | [P] => info.mro == T :: h.mro P && (h.mro P).head? == some P && decide info.mro.Nodup
    | _ => false

/-- Types that have at most one parent are founded slot by slot. -/
theorem founded_of_rooted (all : ∀ i < h.objects.size, h.rooted ⟨i⟩) : h.Founded := by
  have rooted {T : Ref} {info : TypeInfo} (found : h.typeInfo? T = some info) :
      info.parents = [] ∧ T = Kind.object.ref ∧ info.mro = [T] ∨
        ∃ P, info.parents = [P] ∧ info.mro = T :: h.mro P ∧ P ∈ h.mro P ∧ info.mro.Nodup := by
    obtain ⟨o, at_T, -⟩ := exists_object_of_typeInfo? found
    have check := all T.slot (Arena.lt_size_of_get? at_T)
    simp only [Heap.rooted, found] at check
    split at check
    · rename_i none
      simp only [Bool.and_eq_true, beq_iff_eq] at check
      exact .inl ⟨none, check⟩
    · rename_i P one
      simp only [Bool.and_eq_true, beq_iff_eq, decide_eq_true_eq] at check
      obtain ⟨⟨mro, starts⟩, nodup⟩ := check
      exact .inr ⟨P, one, mro, List.mem_of_head? starts, nodup⟩
    · cases check
  refine ⟨fun T info found => ?_, fun T info found P isParent => ?_, fun T info rest found some mro => ?_⟩
  · rcases rooted found with ⟨none, self, mro⟩ | ⟨P, one, mro, mem, -⟩
    · exact .root self none mro
    · exact .derived (h.mro P) (one ▸ List.cons_ne_nil _ _) mro (one ▸ List.singleton_sublist.mpr mem)
  · rcases rooted found with ⟨none, -, -⟩ | ⟨P', one, -, mem, -⟩
    · rw [none] at isParent
      cases isParent
    · rw [one, List.mem_singleton] at isParent
      exact isParent ▸ List.ne_nil_of_mem mem
  · rcases rooted found with ⟨none, -, -⟩ | ⟨P, one, starts, mem, nodup⟩
    · exact absurd none some
    · rw [mro] at starts nodup
      cases starts
      obtain ⟨fresh, nodup⟩ := List.nodup_cons.mp nodup
      exact ⟨fresh, one ▸ .single nodup mem⟩

theorem founded_boot : boot.Founded := by
  refine founded_of_rooted fun i lt => ?_
  have all : (List.range boot.objects.size).all fun i => boot.rooted ⟨i⟩ := by decide +kernel
  exact List.all_eq_true.mp all i (List.mem_range.mpr lt)

/-- Types depend on the objects alone. -/
theorem Founded.withBudget (founded : h.Founded) (budget : Budget) : (h.withBudget budget).Founded :=
  ⟨founded.made, founded.parents, founded.inOrder⟩

/-- A Type holds its parents and its ancestors. -/
theorem refersTo_of_typeInfo? (found : h.typeInfo? T = some info) {U : Ref}
    (mem : U ∈ info.parents ++ info.mro) : h.RefersTo (.object T) (.object U) := by
  obtain ⟨o, at_T, type⟩ := exists_object_of_typeInfo? found
  rw [← mem_linksOf_iff]
  simp only [linksOf, at_T, Option.map_some, Option.getD_some, Object.links, type, Payload.links,
    List.mem_append, mem_objectNodes, Node.object.injEq, exists_eq_right'] at mem ⊢
  exact .inr mem

end Heap

/-! ### Sessions -/

/-- The nodes whose handles an operation is given. -/
def Op.handles {α : Type} : Op α → List Node
  | load r | change r _ => [.object r]
  | store o => o.links
  | storeType _ parents => objectNodes parents
  | define _ _ value | assign _ _ value => [.object value]
  | collectIfDue nodes => nodes ()
  | pushRoots nodes => nodes
  | _ => []

/-- A computation names a node at a moment: it keeps or holds the node, or an operation is given its
handle. Every instruction gives all handles of its frame to the collection that may be due before it. -/
def Moment.Names : Moment → Node → Prop
  | acts o held m, n => n ∈ m.roots.toList ∨ n ∈ held ∨ n ∈ o.handles
  | forgiven moment, n => moment.Names n
  | _, _ => False

theorem Moment.Names.heap_mem {moment : Moment} {n : Node} (names : moment.Names n) (due : Schedule) :
    moment.machine.heap ∈ moment.heaps due := by
  induction moment with
  | acts o held m => exact List.mem_cons_self
  | forgiven moment ih => exact ih names
  | _ => exact names.elim

namespace Machine

/-- Code can hold an object in a heap of a session: something in the heap refers to it, or a computation
under way names it. -/
inductive Holds (m : Machine) (actions : List HostAction) : Heap → Ref → Prop where
  | stored {h : Heap} {n : Node} {r : Ref} (mem : h ∈ m.passage actions)
    (refers : h.RefersTo n (.object r)) : Holds m actions h r
  | used {moment : Moment} {r : Ref} (mem : moment ∈ m.sessionHistory actions)
    (names : moment.Names (.object r)) : Holds m actions moment.machine.heap r

theorem Holds.mem {m : Machine} {actions : List HostAction} {h : Heap} {r : Ref}
    (holds : m.Holds actions h r) : h ∈ m.passage actions := by
  cases holds with
  | stored mem _ => exact mem
  | used mem names => exact mem_passage_of_moment mem (names.heap_mem _)

/-- Throughout a session, the ancestors of every Type that code can hold are what its parents lead to, and
among such Types subtyping is an order. -/
structure SubtypingIsAncestry (m : Machine) (actions : List HostAction) : Prop where
  descends : ∀ h T, m.Holds actions h T → h.isType T → h.Descends T
  refl : ∀ h T, m.Holds actions h T → h.isType T → h.isSubtype T T
  trans : ∀ h T U V, m.Holds actions h T → h.isType T → h.isSubtype T U → h.isSubtype U V →
    h.isSubtype T V
  antisymm : ∀ h T U, m.Holds actions h T → h.isType T → m.Holds actions h U → h.isType U →
    h.isSubtype T U → h.isSubtype U T → T = U

variable {budget : Budget} {tracer : Tracer} {actions : List HostAction} {h : Heap}

theorem typesMade_of_mem_passage (mem : h ∈ (boot budget tracer).passage actions) : h.TypesMade := by
  refine (boot budget tracer).invariant_passage actions ?_ (fun h mem _ _ step made => ?_) h mem
  · rw [heap_boot]
    exact (Heap.founded_boot.withBudget budget).made
  · exact made.retyped (step.retypes (orderly_of_mem_passage mem).objects)

theorem founded_of_mem_passage
    (parents : ∀ h ∈ (boot budget tracer).passage actions, h.ParentsHaveAncestors)
    (mem : h ∈ (boot budget tracer).passage actions) : h.Founded := by
  refine (boot budget tracer).invariant_passage actions ?_ (fun h mem h' mem' step founded => ?_) h mem
  · rw [heap_boot]
    exact Heap.founded_boot.withBudget budget
  · exact founded.retyped (step.retypes (orderly_of_mem_passage mem).objects) (parents h' mem')

/-- Subtyping is ancestry throughout a session exactly if whatever serves as a Type has ancestors: each
Type that code can hold, and each parent of a Type. Whether or not this is so, a Type keeps its parents and
its ancestors until it is released. -/
theorem subtyping_is_ancestry_iff (budget : Budget) (tracer : Tracer) (actions : List HostAction) :
    ((boot budget tracer).SubtypingIsAncestry actions ↔
      (∀ h T, (boot budget tracer).Holds actions h T → h.isType T → h.mro T ≠ []) ∧
        ∀ h ∈ (boot budget tracer).passage actions, h.ParentsHaveAncestors) ∧
    ((boot budget tracer).passage actions).IsChain fun h h' =>
      ∀ T info, h.typeInfo? T = some info → h'.typeInfo? T = some info ∨ h'.object? T = none := by
  refine ⟨⟨fun ancestry => ?_, fun ⟨held, parents⟩ => ?_⟩, ?_⟩
  · have held (h : Heap) (T : Ref) (holds : (boot budget tracer).Holds actions h T) (type : h.isType T) :
        h.mro T ≠ [] :=
      List.ne_nil_of_mem (List.mem_of_head? (ancestry.descends h T holds type).starts)
    refine ⟨held, fun h mem T info found P isParent => ?_⟩
    -- the Type is an ancestor of its own, and so is held by itself; and it holds its parents
    have some : info.parents ≠ [] := List.ne_nil_of_mem isParent
    have refers {U : Ref} (named : U ∈ info.parents ++ info.mro) :
        (boot budget tracer).Holds actions h U :=
      .stored mem (Heap.refersTo_of_typeInfo? found named)
    cases typesMade_of_mem_passage mem T info found with
    | abandoned none _ => exact absurd none some
    | root _ none _ => exact absurd none some
    | derived rest _ mro keeps =>
      have self : T ∈ info.mro := mro ▸ List.mem_cons_self
      have ancestor : P ∈ info.mro := mro ▸ List.mem_cons_of_mem T (keeps.subset isParent)
      have descends := ancestry.descends h T (refers (List.mem_append_right _ self))
        (Option.isSome_iff_exists.mpr ⟨info, found⟩)
      rw [← Heap.mro_of_typeInfo? found, descends.mem_iff] at ancestor
      exact held h P (refers (List.mem_append_left _ isParent)) ancestor.1
  · have descends (h : Heap) (T : Ref) (holds : (boot budget tracer).Holds actions h T)
        (type : h.isType T) : h.Descends T :=
      (founded_of_mem_passage parents holds.mem).descends (held h T holds type)
    refine ⟨descends, fun h T _ _ => ?_, fun h T U V holds type => ?_, fun h T U holds type holds' type' => ?_⟩
    · simp only [Heap.isSubtype, beq_self_eq_true, Bool.true_or]
    · exact (descends h T holds type).trans
    · exact (descends h T holds type).antisymm (descends h U holds' type')
  · refine ((boot budget tracer).isChain_passage actions).imp_of_mem_imp ?_
    intro h h' mem _ step T info found
    exact step.typeInfo? (orderly_of_mem_passage mem).objects found

/-- A program that extends an abandoned Type. While the constructor of `A` runs, the initialiser that was
looked up before is held by nothing: it is released, and a Type that is refused its ancestors gets its
slot. That Type is then called for the initialiser, and what calling a Type was made to do names it. -/
def extendsAbandoned : Code :=
  let self : ParamSpec := ⟨"self", false, false, none⟩
  assemble
    [.get "object", .define "held",
    .typeDef "X" 0 [], .define "X", .get "X", .typeDef "Y" 1 [], .define "Y",
    .function "f" [self] false [.get "self", .op (.setVar "held"), .op .pushNull, .op .returnValue],
    .define "f", .typeDef "A" 0 [], .define "A",
    .get "A", .function "init" [self] false [], .op (.setMember "init"),
    .get "A",
    .function "create" [⟨"cls", false, false, none⟩] false
      [.get "type", .get "f", .op (.setMember "op_call"), .get "cls", .op (.deleteMember "init"),
      .int 5, .op (.pop 1), .get "X", .get "Y",
      .protect none [.get "X", .get "Y", .typeDef "P" 2 []] (some []) none],
    .op (.setMember "create"), .get "A", .op (.call 0), .op (.pop 1),
    .get "held", .typeDef "B" 1 [], .define "B", .get "mro", .get "B", .op (.call 1), .op .returnValue]

/-- The text of the value that a program gives the host. -/
def answer? (m : Machine) (code : Code) : Option String :=
  match m.run .discarding code with
  | (.ok value, m) => (m.snapshot? value).map Snapshot.display
  | (.error _, _) => none

/-- The machine at its start, when garbage is collected after each so many allocations. -/
def collecting (gcInterval : Option Nat) : Machine :=
  boot (.ofLimits { Limits.standard with gcInterval }) .silent

/-- What the program gives when garbage is collected at the wrong moment, and what `B` is then. -/
theorem extendsAbandoned_collected :
    let m := collecting (some 11)
    let m' := m.afterSession [.request .discarding (.run extendsAbandoned)]
    (m.answer? extendsAbandoned, (m'.getGlobal? "B").map fun B =>
      (m'.mroNames B, (m'.heap.mro B).getLast? == some Kind.object.ref)) =
        (some "[<type B>, <type P>]", some (["B", "P"], false)) := by
  decide +kernel

/-- When garbage is collected at the wrong moment, the Type `B` extends an abandoned Type, and its ancestors
do not lead to the root of all Types. -/
theorem extends_abandoned :
    let m := collecting (some 11)
    let actions := [HostAction.request .discarding (.run extendsAbandoned)]
    (∃ B, (m.afterSession actions).getGlobal? "B" = some B ∧
      (m.afterSession actions).mroNames B = ["B", "P"]) ∧
    ¬ m.SubtypingIsAncestry actions := by
  intro m actions
  have outcome := (Prod.mk.inj extendsAbandoned_collected).2
  obtain ⟨B, named, found⟩ := Option.map_eq_some_iff.mp outcome
  obtain ⟨names, last⟩ := Prod.mk.inj found
  refine ⟨⟨B, named, names⟩, fun ancestry => ?_⟩
  have proper : (m.afterSession actions).heap.mro B ≠ [] := by
    intro none
    rw [mroNames, none] at names
    cases names
  obtain ⟨info, type, mro⟩ := Heap.exists_typeInfo?_of_mro proper
  have mem := m.heap_afterSession_mem_passage actions
  have starts := (typesMade_of_mem_passage mem).starts proper
  have holds : m.Holds actions (m.afterSession actions).heap B :=
    .stored mem (Heap.refersTo_of_typeInfo? type
      (List.mem_append_right _ (mro ▸ List.mem_of_head? starts)))
  have ends := (ancestry.descends _ B holds (Heap.isType_of_mro proper)).ends
  rw [ends, beq_self_eq_true] at last
  cases last

/-- Programs can see collections: whether garbage is collected decides what this one gives. -/
theorem collection_seen :
    (collecting none).answer? extendsAbandoned = some "[<type B>, <type object>]" ∧
      (collecting (some 11)).answer? extendsAbandoned = some "[<type B>, <type P>]" := by
  have undisturbed : (collecting none).answer? extendsAbandoned = some "[<type B>, <type object>]" := by
    decide +kernel
  exact ⟨undisturbed, (Prod.mk.inj extendsAbandoned_collected).1⟩

end Machine

end ObjectMachine
