import ObjectMachine.Assembler
import ObjectMachine.Proofs.Arithmetic
import ObjectMachine.Proofs.Lookups
import ObjectMachine.Proofs.Parentage
/-!
Definitions that cooperate. What is read through `base(T, o)` is the first definition behind `T` among the ancestors
of the Type of `o`, bound to `o`. So a definition that goes on through `base` and its own Type hands over to the next
definition, which need not be that of a parent. No Type occurs twice among the ancestors: so the search goes on behind
the one place of the Type that was come by, and a chain of such calls comes by every definition once, and ends.
-/
namespace ObjectMachine

/-! ### Lists cut behind an item -/

namespace Lineage

variable {α : Type} [DecidableEq α] {l : List α} {x y : α} {p : α → Bool}

theorem after_append {front : List α} (fresh : x ∉ front) (rest : List α) : after x (front ++ x :: rest) = rest := by
  induction front with
  | nil => exact if_pos rfl
  | cons head tail ih =>
    obtain ⟨other, later⟩ := List.ne_and_not_mem_of_not_mem_cons fresh
    rw [List.cons_append, after, if_neg (Ne.symm other), ih later]

theorem exists_eq_append_after (mem : x ∈ l) : ∃ front, l = front ++ x :: after x l := by
  obtain ⟨front, rest, rfl, fresh⟩ := List.eq_append_cons_of_mem mem
  rw [after_append fresh]
  exact ⟨front, rfl⟩

theorem mem_of_mem_after (behind : y ∈ after x l) : y ∈ l := by
  induction l with
  | nil => cases behind
  | cons head tail ih =>
    rw [after] at behind
    split at behind
    · exact List.mem_cons_of_mem head behind
    · exact List.mem_cons_of_mem head (ih behind)

/-- In a list without duplicates, the items of a kind behind an item are the first of them and those of the kind behind
this one. -/
theorem filter_after (nodup : l.Nodup) (mem : x ∈ l) (first : (after x l).find? p = some y) :
    y ∈ l ∧ (after x l).filter p = y :: (after y l).filter p := by
  obtain ⟨front, split⟩ := exists_eq_append_after mem
  obtain ⟨is, before, rest, behind, none⟩ := List.find?_eq_some_iff_append.mp first
  have whole : l = (front ++ x :: before) ++ y :: rest := by
    rw [List.append_assoc, List.cons_append, ← behind]
    exact split
  have fresh : y ∉ front ++ x :: before := by
    rw [whole] at nodup
    intro again
    exact (List.nodup_append.mp nodup).2.2 y again y List.mem_cons_self rfl
  have cut : after y l = rest := by
    rw [whole]
    exact after_append fresh rest
  have empty : before.filter p = [] := by
    rw [List.filter_eq_nil_iff]
    intro a inside
    simpa using none a inside
  refine ⟨by rw [whole]; exact List.mem_append_right _ List.mem_cons_self, ?_⟩
  rw [cut, behind, List.filter_append, empty, List.nil_append, List.filter_cons_of_pos is]

end Lineage

/-! ### Definitions -/

/-- A function that can be bound to an object. -/
def Payload.takesReceiver : Payload → Bool
  | function g => !g.visibleParams.isEmpty
  | _ => false

namespace Heap

variable {h : Heap} {o w T U base : Ref} {s : String}

/-- Whether there is a name among the own members of an object. -/
def defines (h : Heap) (s : String) (T : Ref) : Bool := (h.ownMember? T s).isSome

/-- What stands for an object: the object, if it is no view, and all views of it. -/
inductive StandsFor (h : Heap) (o : Ref) : Ref → Prop
  /-- The object itself. -/
  | itself {p : Payload} (holds : h.payload? o = some p) (noView : ∀ target cls, p ≠ .baseView target cls) :
    StandsFor h o o
  /-- A view. -/
  | view {w cls : Ref} {p : Payload} (holds : h.payload? w = some (.baseView o cls)) (live : h.payload? o = some p) :
    StandsFor h o w

theorem StandsFor.exists_object (stands : h.StandsFor o w) : ∃ obj, h.object? o = some obj := by
  cases stands with
  | itself live | view _ live =>
    obtain ⟨obj, found, -⟩ := Option.map_eq_some_iff.mp live
    exact ⟨obj, found⟩

/-- The definitions of a name among the ancestors of the Type of an object are functions that can take it. -/
def Receives (h : Heap) (o : Ref) (s : String) : Prop :=
  ∀ T ∈ h.mro (h.typeOf o), ∀ value ∈ h.ownMember? T s, (h.payload? value).any Payload.takesReceiver

instance (h : Heap) (o : Ref) (s : String) : Decidable (h.Receives o s) :=
  inferInstanceAs <| Decidable <|
    ∀ T ∈ h.mro (h.typeOf o), ∀ value ∈ h.ownMember? T s, (h.payload? value).any Payload.takesReceiver

/-- What is found along a chain is the own member of the first in the chain that has one. -/
theorem memberIn?_eq_bind (h : Heap) (chain : List Ref) (s : String) :
    h.memberIn? chain s = (chain.find? (h.defines s)).bind fun T => h.ownMember? T s := by
  induction chain with
  | nil => rfl
  | cons T later ih =>
    rw [memberIn?] at ih ⊢
    rw [List.findSome?_cons, List.find?_cons, defines]
    cases own : h.ownMember? T s with
    | none => exact ih
    | some value => exact own.symm

theorem find?_defines_eq_none_iff {chain : List Ref} :
    chain.find? (h.defines s) = none ↔ ∀ U ∈ chain, h.ownMember? U s = none := by
  simp only [List.find?_eq_none, defines, Bool.not_eq_true, Option.isSome_eq_false_iff, Option.isNone_iff_eq_none]

theorem Receives.exists_function (receives : h.Receives o s) (mem : U ∈ h.mro (h.typeOf o)) (has : h.defines s U) :
    ∃ value g, h.ownMember? U s = some value ∧ h.payload? value = some (.function g) ∧ g.visibleParams ≠ [] := by
  obtain ⟨value, own⟩ := Option.isSome_iff_exists.mp has
  obtain ⟨p, holds, takes⟩ := (Option.any_eq_true _ _).mp (receives U mem value own)
  cases p with
  | function g => exact ⟨value, g, own, holds, by simpa [Payload.takesReceiver] using takes⟩
  | _ => cases takes

end Heap

/-- The function `base` as it is declared. -/
def Declaration.base : Declaration := ⟨"base", [typed "type" .type, any "value"], .global .base⟩

example : Declaration.base ∈ Declaration.globals := by decide

/-- A value is the function `base`. -/
def Heap.IsBase (h : Heap) (base : Ref) : Prop :=
  ∃ f, h.payload? base = some (.function f) ∧ Declaration.base.Makes f

namespace Engine

variable {due : Schedule} {k : Reentry} {m : Machine} {h : Heap} {o w T U base view value : Ref} {s : String} {n : Nat}
  {g : Function}

/-! ### Views -/

/-- A view of what stands for an object is one of the object, and only instances of the Type have views behind it. -/
theorem does_viewOf (due : Schedule) (stands : h.StandsFor o w) (T : Ref) :
    Does due (viewOf T w) h
      (if h.isInstance o T then h.stored (.baseView o T)
        else (.error (.raised (.ofCause (.viewOf (h.nameOfType T) (h.typeName o)))), h)) := by
  have made : Does due
      (ask (fun h => h.isInstance o T) >>= fun fits =>
        if fits = true then new (.baseView o T)
        else
          ask (fun h => h.nameOfType T) >>= fun name =>
            ask (fun h => h.typeName o) >>= fun actual => raise (.viewOf name actual)) h
      (if h.isInstance o T then h.stored (.baseView o T)
        else (.error (.raised (.ofCause (.viewOf (h.nameOfType T) (h.typeName o)))), h)) := by
    refine (does_ask due _ h).bind ?_
    split
    · exact does_new due _ h
    · exact (does_ask due _ h).bind ((does_ask due _ h).bind (does_raise due _ h))
  cases stands with
  | itself holds noView =>
    refine (does_payload due holds).bind ?_
    split
    · rename_i target cls
      exact absurd rfl (noView target cls)
    · exact (does_pure due o h).bind made
  | view holds _ => exact (does_payload due holds).bind ((does_pure due o h).bind made)

/-- What a call of `base` comes to. -/
theorem runUnder_call_base (due : Schedule) (n : Nat) (isBase : m.heap.IsBase base) (stands : m.heap.StandsFor o w)
    (type : m.heap.isInstance T Kind.type.ref) :
    ((reentry (n + 2)).call base [T, w]).runUnder due m = m.called "base" [T, w]
      (if m.heap.isInstance o T then m.heap.stored (.baseView o T)
        else (.error (.raised (.ofCause (.viewOf (m.heap.nameOfType T) (m.heap.typeName o)))), m.heap)) := by
  obtain ⟨f, function, makes⟩ := isBase
  have fits : Declaration.Fits m.heap (Declaration.typed "type" .type) T := fun kind same => by
    cases same
    exact type
  have takes : Declaration.base.Takes m.heap [T, w] :=
    ⟨by decide, .cons fits (.cons (Declaration.fits_any "value") .nil)⟩
  have prepared : m.heap.prepare base [T, w] = .ok (some ⟨f, ⟨[T, w], none⟩⟩) := by
    rw [m.heap.prepare_function function, makes.matchArgs_of_takes takes]
    rfl
  have ran := runUnder_call_of_does (n := n) makes.body prepared (does_viewOf due stands T)
  rw [makes.name] at ran
  exact ran

/-- Only Types are taken. -/
theorem runUnder_call_base_of_foreign (due : Schedule) (n : Nat) (isBase : m.heap.IsBase base)
    (foreign : m.heap.isInstance T Kind.type.ref = false) :
    ∃ e, ((reentry (n + 2)).call base [T, w]).runUnder due m = .error (.raised e) m ∧ e.type = .builtin .typeError := by
  obtain ⟨f, function, makes⟩ := isBase
  have mismatch : f.signature.matchArgs m.heap.isInstance (f.bound ++ [T, w]) f.bound.length =
      .error (.wrongType "type" Kind.type.ref T) :=
    makes.matchArgs_of_foreign (by decide) rfl rfl foreign rfl
  have refused : m.heap.prepare base [T, w] =
      .error (m.heap.mismatchError f.name (.wrongType "type" Kind.type.ref T)) := by
    rw [m.heap.prepare_function function, mismatch]
    rfl
  exact ⟨_, runUnder_call_of_refused refused, rfl⟩

/-! ### Members of views -/

/-- A view binds the first definition behind its Type. -/
theorem does_getMember_of_first (due : Schedule) (k : Reentry) (notNull : view ≠ .null)
    (holds : h.payload? view = some (.baseView o T))
    (first : (Lineage.after T (h.mro (h.typeOf o))).find? (h.defines s) = some U)
    (own : h.ownMember? U s = some value) (function : h.payload? value = some (.function g)) :
    Does due (getMember k view s) h (h.storedBound g o) := by
  have found : h.memberIn? (h.searched view) s = some value := by
    rw [h.searched_of_view notNull holds, h.memberIn?_eq_bind, first, Option.bind_some, own]
  have looked : Does due (lookupMember k view s .full) h ((h.storedBound g o).1.map some, (h.storedBound g o).2) := by
    rintro m rfl
    rw [runUnder_lookupMember_of_view notNull holds, found]
    exact does_bindFound_of_function due o function m rfl
  rw [getMember, if_neg notNull]
  cases stored : h.storedBound g o with
  | mk result h' =>
    rw [stored] at looked
    cases result with
    | error e => exact looked.bind_of_error
    | ok b => exact looked.bind (does_pure due b h')

/-- A view finds nothing else. -/
theorem does_getMember_of_none (due : Schedule) (k : Reentry) (notNull : view ≠ .null)
    (holds : h.payload? view = some (.baseView o T))
    (none : (Lineage.after T (h.mro (h.typeOf o))).find? (h.defines s) = none) :
    Does due (getMember k view s) h (.error (.raised (.ofCause (.noMember (h.typeName view) s))), h) := by
  have found : h.memberIn? (h.searched view) s = Option.none := by
    rw [h.searched_of_view notNull holds, h.memberIn?_eq_bind, none, Option.bind_none]
  have looked : Does due (lookupMember k view s .full) h (.ok Option.none, h) := by
    rintro m rfl
    rw [runUnder_lookupMember_of_view notNull holds, found]
    rfl
  rw [getMember, if_neg notNull]
  exact looked.bind ((does_ask due _ h).bind (does_raise due _ h))

end Engine

/-! ### Reading through `base` -/

/-- An interruption because calls are nested too deeply or the budget is exhausted. -/
def Interrupt.IsRefusal (e : Interrupt) : Prop := (∃ limit, e = .ofExhaustion limit) ∨ ∃ x, e = .exhausted x

theorem Interrupt.IsRefusal.type_ne {e : Raised} (refusal : (Interrupt.raised e).IsRefusal) :
    e.type ≠ .builtin .attributeError := by
  rcases refusal with ⟨limit, same⟩ | ⟨x, same⟩
  · cases limit with
    | recursion depth =>
      cases same
      exact fun type => by cases type
    | _ => cases same
  · cases same

namespace Machine

/-- A read gives a function, new and as it is to be bound, unless it is refused. -/
structure Reads (m : Machine) (ran : Outcome Ref) (bound : Function) : Prop where
  /-- Nothing else is given. -/
  only : ∀ b m', ran = .ok b m' → m'.heap.payload? b = some (.function bound)
  /-- It fails by refusals alone. -/
  refused : ∀ e m', ran = .error e m' → e.IsRefusal
  /-- Where nothing is exhausted it is given. -/
  object : m.CanNest 1 → m.heap.HasRoom 2 → ∃ b m', ran = .ok b m'

/-- A read finds no such member, unless it is refused. -/
structure Misses (m : Machine) (ran : Outcome Ref) : Prop where
  /-- Nothing is given. -/
  never : ∀ b m', ran ≠ .ok b m'
  /-- Where nothing is exhausted that is the error. -/
  error : m.CanNest 1 → m.heap.HasRoom 1 → ∃ e m', ran = .error (.raised e) m' ∧ e.type = .builtin .attributeError

theorem Reads.of_refusal {m m' : Machine} {e : Interrupt} {bound : Function} (refusal : e.IsRefusal)
    (full : ¬ (m.CanNest 1 ∧ m.heap.HasRoom 2)) : m.Reads (.error e m') bound := by
  refine ⟨fun b m'' same => (by cases same), fun e' m'' same => ?_, fun can room => absurd ⟨can, room⟩ full⟩
  cases same
  exact refusal

/-- A call that stores an object does so or is refused. -/
theorem called_stored_cases {m : Machine} {p : Payload} (name : String) (args : List Ref)
    (w : m.heap.objects.WellFormed) :
    (∃ r h, m.heap.stored p = (.ok r, h) ∧
      m.called name args (m.heap.stored p) = .ok r ((m.answered name).withHeap fun _ => h)) ∨
    ∃ e m', m.called name args (m.heap.stored p) = .error e m' ∧ e.IsRefusal ∧
      ¬ (m.CanNest 1 ∧ m.heap.HasRoom 1) := by
  cases entered : m.enter with
  | error limit =>
    refine .inr ⟨_, m, by rw [called, entered], .inl ⟨limit, rfl⟩, fun able => ?_⟩
    obtain ⟨inner, allowed, -⟩ := able.1.exists_enter
    cases entered.symm.trans allowed
  | ok inner =>
    rw [called_of_enter entered]
    cases stored : m.heap.stored p with
    | mk result h =>
      cases result with
      | ok r => exact .inl ⟨r, h, rfl, rfl⟩
      | error e =>
        obtain ⟨full, -, x, rfl⟩ := Heap.full_of_stored w stored
        exact .inr ⟨_, _, rfl, .inr ⟨x.withLayer name args, rfl⟩, fun able => full able.2⟩

end Machine

namespace Engine

variable {due : Schedule} {k : Reentry} {m : Machine} {o w T U base : Ref} {s : String} {n : Nat} {budget : Budget}
  {tracer : Tracer} {actions : List HostAction}

/-- Reads a member of an object through `base`, behind a Type. -/
def readThrough (k : Reentry) (base type value : Ref) (name : String) : Engine Ref := do
  getMember k (← k.call base [type, value]) name

/-- A read goes on with a view, on a heap that was added to, or it is refused. -/
theorem runUnder_readThrough (due : Schedule) (n : Nat) (s : String)
    (reachable : m.heap ∈ (Machine.boot budget tracer).passage actions) (isBase : m.heap.IsBase base)
    (stands : m.heap.StandsFor o w) (mem : T ∈ m.heap.mro (m.heap.typeOf o)) :
    (∃ view h, view ≠ .null ∧ h.payload? view = some (.baseView o T) ∧ m.heap.AddsData h ∧
      (m.heap.HasRoom 2 → h.HasRoom 1) ∧
      (readThrough (reentry (n + 2)) base T w s).runUnder due m =
        (getMember (reentry (n + 2)) view s).runUnder due ((m.answered "base").withHeap fun _ => h)) ∨
    ∃ e m', (readThrough (reentry (n + 2)) base T w s).runUnder due m = .error e m' ∧ e.IsRefusal ∧
      ¬ (m.CanNest 1 ∧ m.heap.HasRoom 1) := by
  have orderly := Machine.orderly_of_mem_passage reachable
  have isType := (Machine.lined_of_mem_passage reachable).types _ T mem
  have type : m.heap.isInstance T Kind.type.ref := Machine.isInstance_type_of_isType reachable isType
  have fits : m.heap.isInstance o T := by
    rw [Heap.isInstance, Heap.isSubtype, List.contains_iff_mem.mpr mem, Bool.or_true]
  have ran := runUnder_call_base due n isBase stands type
  rw [if_pos fits] at ran
  rcases m.called_stored_cases (p := .baseView o T) "base" [T, w] orderly.objects with
    ⟨view, h, stored, gives⟩ | ⟨e, m', fails, refusal⟩
  · have stores := Heap.stores_of_stored orderly.objects stored
    have adds : m.heap.AddsData h := by
      have added : m.heap.AddsData (m.heap.stored (.baseView o T)).2 :=
        .of_stored orderly.objects fun _ same => by cases same
      rwa [stored] at added
    have notNull : view ≠ .null := by
      rintro rfl
      obtain ⟨p, live, -⟩ := Option.map_eq_some_iff.mp (orderly.singletons (.null, .null) List.mem_cons_self)
      cases stores.vacant.symm.trans live
    refine .inl ⟨view, h, notNull, stores.payload?, adds, Heap.hasRoom_of_stored (n := 1) orderly.objects stored, ?_⟩
    rw [readThrough, runUnder_bind, ran, gives]
  · refine .inr ⟨e, m', ?_, refusal⟩
    rw [readThrough, runUnder_bind, ran, fails]

/-- A heap that was added to has the same definitions behind a Type. -/
theorem find?_defines_of_adds {h : Heap} (lined : m.heap.Lined) (adds : m.heap.AddsData h)
    (stands : m.heap.StandsFor o w) :
    (Lineage.after T (h.mro (h.typeOf o))).find? (h.defines s) =
      (Lineage.after T (m.heap.mro (m.heap.typeOf o))).find? (m.heap.defines s) := by
  obtain ⟨obj, live⟩ := stands.exists_object
  rw [adds.typeOf live, adds.mro]
  rw [← List.head?_filter, ← List.head?_filter]
  refine congrArg List.head? (List.filter_congr fun U behind => ?_)
  have isType := lined.types _ U (Lineage.mem_of_mem_after behind)
  obtain ⟨info, found⟩ := Option.isSome_iff_exists.mp isType
  obtain ⟨type, live, -⟩ := Heap.exists_object_of_typeInfo? found
  rw [Heap.defines, Heap.defines, Heap.ownMember?, Heap.ownMember?, live, adds.kept U type live]

/-- If there is a definition behind a Type, the first one is read, bound to the object. -/
theorem reads_readThrough (due : Schedule) (n : Nat)
    (reachable : m.heap ∈ (Machine.boot budget tracer).passage actions) (isBase : m.heap.IsBase base)
    (stands : m.heap.StandsFor o w) (receives : m.heap.Receives o s) (mem : T ∈ m.heap.mro (m.heap.typeOf o))
    (first : (Lineage.after T (m.heap.mro (m.heap.typeOf o))).find? (m.heap.defines s) = some U) :
    ∃ value g, m.heap.ownMember? U s = some value ∧ m.heap.payload? value = some (.function g) ∧
      m.Reads ((readThrough (reentry (n + 2)) base T w s).runUnder due m) { g with bound := g.bound ++ [o] } := by
  have lined := Machine.lined_of_mem_passage reachable
  have behind := Lineage.mem_of_mem_after (List.mem_of_find?_eq_some first)
  obtain ⟨value, g, own, function, takes⟩ := receives.exists_function behind (List.find?_some first)
  refine ⟨value, g, own, function, ?_⟩
  rcases runUnder_readThrough due n s reachable isBase stands mem with
    ⟨view, h, notNull, holds, adds, rooms, ran⟩ | ⟨e, m', fails, refusal, full⟩
  · have first' := (find?_defines_of_adds lined adds stands).trans first
    have own' := Heap.ownMember?_of_adds adds.toAdds own
    have bound : h.storedBound g o = h.stored (.function { g with bound := g.bound ++ [o] }) := by
      rw [Heap.storedBound, Function.bind, if_neg (by simpa using takes)]
    have does := does_getMember_of_first due (reentry (n + 2)) notNull holds first' own' (adds.payload? function)
    rw [ran, does ((m.answered "base").withHeap fun _ => h) rfl, bound]
    cases stored : h.stored (.function { g with bound := g.bound ++ [o] }) with
    | mk result h' =>
      cases result with
      | ok b =>
        refine ⟨fun b' m' same => ?_, fun e m' same => (by cases same), fun _ _ => ⟨b, _, rfl⟩⟩
        cases same
        exact (Heap.stores_of_stored adds.wellFormed stored).payload?
      | error e =>
        obtain ⟨full, -, x, rfl⟩ := Heap.full_of_stored adds.wellFormed stored
        exact .of_refusal (.inr ⟨x, rfl⟩) fun able => full (rooms able.2)
  · rw [fails]
    exact .of_refusal refusal fun able => full ⟨able.1, able.2.mono (by decide)⟩

/-- If there is none, there is no such member. -/
theorem misses_readThrough (due : Schedule) (n : Nat)
    (reachable : m.heap ∈ (Machine.boot budget tracer).passage actions) (isBase : m.heap.IsBase base)
    (stands : m.heap.StandsFor o w) (mem : T ∈ m.heap.mro (m.heap.typeOf o))
    (none : (Lineage.after T (m.heap.mro (m.heap.typeOf o))).find? (m.heap.defines s) = none) :
    m.Misses ((readThrough (reentry (n + 2)) base T w s).runUnder due m) := by
  have lined := Machine.lined_of_mem_passage reachable
  rcases runUnder_readThrough due n s reachable isBase stands mem with
    ⟨view, h, notNull, holds, adds, -, ran⟩ | ⟨e, m', fails, -, full⟩
  · have none' := (find?_defines_of_adds lined adds stands).trans none
    have does := does_getMember_of_none due (reentry (n + 2)) notNull holds none'
    rw [ran, does ((m.answered "base").withHeap fun _ => h) rfl]
    exact ⟨fun b m' same => (by cases same), fun _ _ => ⟨_, _, rfl, rfl⟩⟩
  · rw [fails]
    exact ⟨fun b m' same => (by cases same), fun can room => absurd ⟨can, room⟩ full⟩

/-- That there is no such member is said only if there is none. -/
theorem find?_eq_none_of_attributeError {m' : Machine} {e : Raised}
    (reachable : m.heap ∈ (Machine.boot budget tracer).passage actions) (isBase : m.heap.IsBase base)
    (stands : m.heap.StandsFor o w) (receives : m.heap.Receives o s) (mem : T ∈ m.heap.mro (m.heap.typeOf o))
    (ran : (readThrough (reentry (n + 2)) base T w s).runUnder due m = .error (.raised e) m')
    (absent : e.type = .builtin .attributeError) :
    (Lineage.after T (m.heap.mro (m.heap.typeOf o))).find? (m.heap.defines s) = none := by
  cases first : (Lineage.after T (m.heap.mro (m.heap.typeOf o))).find? (m.heap.defines s) with
  | none => rfl
  | some U =>
    obtain ⟨value, g, -, -, reads⟩ := reads_readThrough due n reachable isBase stands receives mem first
    exact absurd absent (reads.refused _ _ ran).type_ne

/-- A Type of which the object is no instance is refused, and so is what is no Type. -/
theorem typeError_of_call_base (due : Schedule) (n : Nat) (isBase : m.heap.IsBase base) (stands : m.heap.StandsFor o w)
    (stranger : m.heap.isInstance o T = false) :
    (∀ view m', ((reentry (n + 2)).call base [T, w]).runUnder due m ≠ .ok view m') ∧
      (m.CanNest 1 → ∃ e m', ((reentry (n + 2)).call base [T, w]).runUnder due m = .error (.raised e) m' ∧
        e.type = .builtin .typeError) := by
  cases type : m.heap.isInstance T Kind.type.ref with
  | false =>
    obtain ⟨e, ran, kind⟩ := runUnder_call_base_of_foreign (w := w) due n isBase type
    rw [ran]
    exact ⟨fun view m' same => (by cases same), fun _ => ⟨e, m, rfl, kind⟩⟩
  | true =>
    have ran := runUnder_call_base due n isBase stands type
    rw [stranger, if_neg Bool.false_ne_true] at ran
    refine ⟨fun view m' same => ?_, fun can => ?_⟩
    · obtain ⟨-, value, -⟩ := Machine.ok_of_called (ran.symm.trans same)
      cases value
    · obtain ⟨e, m', fails, kind, -⟩ := (Machine.fails_of_called ran).error can
      exact ⟨e, m', fails, kind⟩

end Engine

/-! ### Chains of calls -/

/-- On a machine in a session, an object has the ancestors that it has on a heap, the same of them define a name, and
`base` can be called with what stands for the object. -/
structure Machine.Continues (m : Machine) (h : Heap) (o : Ref) (s : String) (base w : Ref) : Prop where
  /-- The heap is one of a session. -/
  reachable : ∃ budget tracer actions, m.heap ∈ (Machine.boot budget tracer).passage actions
  /-- The ancestors. -/
  types : m.heap.mro (m.heap.typeOf o) = h.mro (h.typeOf o)
  /-- Those of them that define the name. -/
  defines : ∀ T ∈ h.mro (h.typeOf o), m.heap.defines s T = h.defines s T
  /-- The definitions can be bound. -/
  receives : m.heap.Receives o s
  /-- The function. -/
  isBase : m.heap.IsBase base
  /-- The object or a view of it. -/
  stands : m.heap.StandsFor o w

/-- A chain of calls that starts behind a Type comes by the Types of a list: a name is read through `base` behind the
Type, then behind the Type that supplied what was read, and so on until there is no such member. Each read may be on a
machine of its own, as the definitions run between them. -/
inductive Heap.Cooperates (h : Heap) (o : Ref) (s : String) : Ref → List Ref → Prop
  /-- There is no such member behind the Type. -/
  | ends {due : Schedule} {n : Nat} {m m' : Machine} {base w T : Ref} {e : Raised}
      (continues : m.Continues h o s base w)
      (ran : (Engine.readThrough (Engine.reentry (n + 2)) base T w s).runUnder due m = .error (.raised e) m')
      (absent : e.type = .builtin .attributeError) : Cooperates h o s T []
  /-- A Type behind it supplies the member. -/
  | next {due : Schedule} {n : Nat} {m m' : Machine} {base w T U b : Ref} {later : List Ref}
      (continues : m.Continues h o s base w)
      (ran : (Engine.readThrough (Engine.reentry (n + 2)) base T w s).runUnder due m = .ok b m')
      (supplied : (Lineage.after T (m.heap.mro (m.heap.typeOf o))).find? (m.heap.defines s) = some U)
      (rest : Cooperates h o s U later) : Cooperates h o s T (U :: later)

namespace Machine.Continues

variable {m : Machine} {h : Heap} {o w T U base : Ref} {s : String}

theorem find?_eq (continues : m.Continues h o s base w) :
    (Lineage.after T (m.heap.mro (m.heap.typeOf o))).find? (m.heap.defines s) =
      (Lineage.after T (h.mro (h.typeOf o))).find? (h.defines s) := by
  rw [continues.types, ← List.head?_filter, ← List.head?_filter]
  exact congrArg List.head? (List.filter_congr fun U behind => continues.defines U (Lineage.mem_of_mem_after behind))

/-- If there is no such member behind a Type, none of the ancestors behind it defines the name. -/
theorem filter_eq_nil {due : Schedule} {n : Nat} {m' : Machine} {e : Raised} (continues : m.Continues h o s base w)
    (mem : T ∈ h.mro (h.typeOf o))
    (ran : (Engine.readThrough (Engine.reentry (n + 2)) base T w s).runUnder due m = .error (.raised e) m')
    (absent : e.type = .builtin .attributeError) :
    (Lineage.after T (h.mro (h.typeOf o))).filter (h.defines s) = [] := by
  obtain ⟨budget, tracer, actions, reachable⟩ := continues.reachable
  rw [← continues.types] at mem
  rw [← List.head?_eq_none_iff, List.head?_filter, ← continues.find?_eq]
  exact Engine.find?_eq_none_of_attributeError reachable continues.isBase continues.stands continues.receives mem ran
    absent

/-- Where nothing is exhausted a chain comes by all Types behind the first that define the name. -/
theorem cooperates (continues : m.Continues h o s base w) (nodup : (h.mro (h.typeOf o)).Nodup) (can : m.CanNest 1)
    (room : m.heap.HasRoom 2) (mem : T ∈ h.mro (h.typeOf o)) :
    h.Cooperates o s T ((Lineage.after T (h.mro (h.typeOf o))).filter (h.defines s)) := by
  obtain ⟨budget, tracer, actions, reachable⟩ := continues.reachable
  -- by induction on the Types that are still to come, all reads being on the one machine
  generalize left : (Lineage.after T (h.mro (h.typeOf o))).filter (h.defines s) = visited
  induction visited generalizing T with
  | nil =>
    rw [← List.head?_eq_none_iff, List.head?_filter, ← continues.find?_eq] at left
    rw [← continues.types] at mem
    have misses := Engine.misses_readThrough Heap.collectionDue 0 reachable continues.isBase continues.stands mem left
    obtain ⟨e, m', ran, absent⟩ := misses.error can (room.mono (by decide))
    exact .ends continues ran absent
  | cons U later ih =>
    have first := congrArg List.head? left
    rw [List.head?_filter, List.head?_cons] at first
    obtain ⟨inside, behind⟩ := Lineage.filter_after nodup mem first
    rw [left] at behind
    have supplied := continues.find?_eq.trans first
    have mem' := mem
    rw [← continues.types] at mem'
    obtain ⟨value, g, -, -, reads⟩ := Engine.reads_readThrough Heap.collectionDue 0 reachable continues.isBase
      continues.stands continues.receives mem' supplied
    obtain ⟨b, m', ran⟩ := reads.object can room
    exact .next continues ran supplied (ih inside (List.cons_inj_right U |>.mp behind).symm)

end Machine.Continues

namespace Heap

variable {h : Heap} {o T : Ref} {s : String} {visited : List Ref}

/-- A chain comes by no other Types. -/
theorem Cooperates.eq_filter (cooperates : h.Cooperates o s T visited) (nodup : (h.mro (h.typeOf o)).Nodup)
    (mem : T ∈ h.mro (h.typeOf o)) : visited = (Lineage.after T (h.mro (h.typeOf o))).filter (h.defines s) := by
  induction cooperates with
  | ends continues ran absent => exact (continues.filter_eq_nil mem ran absent).symm
  | next continues ran supplied _ ih =>
    obtain ⟨inside, behind⟩ := Lineage.filter_after nodup mem (continues.find?_eq.symm.trans supplied)
    rw [behind, ih inside]

end Heap

namespace Engine

/-- Calls of `base` cooperate. Such a call gives a view of the object itself, be it called with the object or with a
view of it; a Type of which the object is no instance is refused. What is read through it behind an ancestor of the
Type of the object is the first definition behind it, bound to the object, and that there is no such member is said
just if there is none. So a chain of such reads comes by the Types behind its start that define the name, each of them
once and in order, and ends; starting from a definition of the Type of the object, it comes by all of them. -/
theorem base_calls_cooperate (due : Schedule) (n : Nat) {budget : Budget} {tracer : Tracer} {actions : List HostAction}
    {m : Machine} {o w base : Ref} {s : String} (reachable : m.heap ∈ (Machine.boot budget tracer).passage actions)
    (isBase : m.heap.IsBase base) (stands : m.heap.StandsFor o w) (receives : m.heap.Receives o s) :
    let types := m.heap.mro (m.heap.typeOf o)
    let call := fun T => ((reentry (n + 2)).call base [T, w]).runUnder due m
    let read := fun T => (readThrough (reentry (n + 2)) base T w s).runUnder due m
    (∀ T, m.heap.isType T → m.heap.isInstance o T → m.Gives "base" [T, w] (call T) (.baseView o T)) ∧
    (∀ T, m.heap.isInstance o T = false → (∀ view m', call T ≠ .ok view m') ∧
      (m.CanNest 1 → ∃ e m', call T = .error (.raised e) m' ∧ e.type = .builtin .typeError)) ∧
    (∀ T ∈ types,
      (∀ U, (Lineage.after T types).find? (m.heap.defines s) = some U →
        ∃ value g, m.heap.ownMember? U s = some value ∧ m.heap.payload? value = some (.function g) ∧
          m.Reads (read T) { g with bound := g.bound ++ [o] }) ∧
      ((Lineage.after T types).find? (m.heap.defines s) = none → m.Misses (read T)) ∧
      (m.CanNest 1 → m.heap.HasRoom 1 →
        ((∃ e m', read T = .error (.raised e) m' ∧ e.type = .builtin .attributeError) ↔
          ∀ U ∈ Lineage.after T types, m.heap.ownMember? U s = none))) ∧
    types.Nodup ∧
    (∀ T ∈ types,
      (∀ visited, m.heap.Cooperates o s T visited → visited = (Lineage.after T types).filter (m.heap.defines s)) ∧
      (m.CanNest 1 → m.heap.HasRoom 2 →
        m.heap.Cooperates o s T ((Lineage.after T types).filter (m.heap.defines s)))) ∧
    ∀ T₀ visited, types.head? = some T₀ → m.heap.defines s T₀ → m.heap.Cooperates o s T₀ visited →
      T₀ :: visited = types.filter (m.heap.defines s) := by
  intro types call read
  have lined := Machine.lined_of_mem_passage reachable
  have nodup : types.Nodup := lined.nodup _
  have continues : m.Continues m.heap o s base w :=
    ⟨⟨budget, tracer, actions, reachable⟩, rfl, fun _ _ => rfl, receives, isBase, stands⟩
  have misses (T : Ref) (mem : T ∈ types) (none : (Lineage.after T types).find? (m.heap.defines s) = none) :
      m.Misses (read T) :=
    misses_readThrough due n reachable isBase stands mem none
  refine ⟨?views, fun T => typeError_of_call_base due n isBase stands, ?reads, nodup, ?chains, ?whole⟩
  case views =>
    intro T isType fits
    have type : m.heap.isInstance T Kind.type.ref := Machine.isInstance_type_of_isType reachable isType
    have ran := runUnder_call_base due n isBase stands type
    rw [if_pos fits] at ran
    exact Machine.gives_of_called (Machine.orderly_of_mem_passage reachable).objects ran
  case reads =>
    intro T mem
    refine ⟨fun U => reads_readThrough due n reachable isBase stands receives mem, misses T mem, fun can room => ?_⟩
    rw [← Heap.find?_defines_eq_none_iff]
    constructor
    · rintro ⟨e, m', ran, absent⟩
      exact find?_eq_none_of_attributeError reachable isBase stands receives mem ran absent
    · exact fun none => (misses T mem none).error can room
  case chains =>
    intro T mem
    refine ⟨fun visited cooperates => cooperates.eq_filter nodup mem, fun can room => ?_⟩
    exact continues.cooperates nodup can room mem
  case whole =>
    intro T₀ visited first has cooperates
    obtain ⟨rest, whole⟩ := List.head?_eq_some_iff.mp first
    have mem : T₀ ∈ types := List.mem_of_head? first
    have behind : Lineage.after T₀ types = rest := by
      rw [whole]
      exact if_pos rfl
    have visits : visited = (Lineage.after T₀ types).filter (m.heap.defines s) := cooperates.eq_filter nodup mem
    rw [visits, behind, whole, List.filter_cons_of_pos has]

/-- A program with a diamond of Types that all define a function, an object of the last Type, and a view of it. -/
def diamondOfDefinitions : Code :=
  let who : List Statement :=
    [.function "who" [⟨"self", false, false, none⟩] false [.op .pushNull, .op .returnValue], .define "who"]
  assemble
    [.typeDef "A" 0 who, .define "A", .get "A", .typeDef "B" 1 who, .define "B",
      .get "A", .typeDef "C" 1 who, .define "C", .get "B", .get "C", .typeDef "D" 2 who, .define "D",
      .get "D", .op (.call 0), .define "o", .get "base", .get "D", .get "o", .op (.call 2), .define "v"]

/-- The chain that starts behind `D` comes by `B`, then by its sibling `C`, and then by `A`, from which both inherit. -/
theorem base_calls_cooperate_in_diamond :
    let m := (Machine.boot .unlimited .silent).afterSession [.request .discarding (.run diamondOfDefinitions)]
    ∃ A B C D o view : Ref, [m.getGlobal? "A", m.getGlobal? "B", m.getGlobal? "C", m.getGlobal? "D"] =
        [some A, some B, some C, some D] ∧ m.getGlobal? "o" = some o ∧ m.getGlobal? "v" = some view ∧
      m.heap.StandsFor o view ∧ m.heap.Cooperates o "who" D [B, C, A] := by
  intro m
  let f : Function :=
    { name := "base"
      signature := ⟨[⟨"type", some Kind.type.ref, none, false⟩, ⟨"value", none, none, false⟩]⟩
      body := .native (.global .base)
      bound := [] }
  obtain ⟨types, object, view, function, holds, live, receives, able, behind⟩ :
      [m.getGlobal? "A", m.getGlobal? "B", m.getGlobal? "C", m.getGlobal? "D"] =
        [some ⟨142⟩, some ⟨144⟩, some ⟨146⟩, some ⟨148⟩] ∧
      m.getGlobal? "o" = some ⟨150⟩ ∧ m.getGlobal? "v" = some ⟨151⟩ ∧
      m.heap.payload? ⟨138⟩ = some (.function f) ∧ m.heap.payload? ⟨151⟩ = some (.baseView ⟨150⟩ ⟨148⟩) ∧
      m.heap.payload? ⟨150⟩ = some .plain ∧ m.heap.Receives ⟨150⟩ "who" ∧ (m.CanNest 1 ∧ m.heap.HasRoom 2) ∧
      ⟨148⟩ ∈ m.heap.mro (m.heap.typeOf ⟨150⟩) ∧
      (Lineage.after ⟨148⟩ (m.heap.mro (m.heap.typeOf ⟨150⟩))).filter (m.heap.defines "who") =
        [⟨144⟩, ⟨146⟩, ⟨142⟩] := by
    decide +kernel
  have reachable : m.heap ∈ (Machine.boot .unlimited .silent).passage
      [.request .discarding (.run diamondOfDefinitions)] :=
    Machine.heap_afterSession_mem_passage _ _
  clear_value m
  have isBase : m.heap.IsBase ⟨138⟩ := ⟨f, function, by decide⟩
  have stands : m.heap.StandsFor ⟨150⟩ ⟨151⟩ := .view holds live
  have cooperates := (base_calls_cooperate Heap.collectionDue 0 reachable isBase stands receives).2.2.2.2.1 ⟨148⟩
    behind.1
  refine ⟨⟨142⟩, ⟨144⟩, ⟨146⟩, ⟨148⟩, ⟨150⟩, ⟨151⟩, types, object, view, stands, ?_⟩
  exact behind.2 ▸ cooperates.2 able.1 able.2

end Engine

end ObjectMachine
