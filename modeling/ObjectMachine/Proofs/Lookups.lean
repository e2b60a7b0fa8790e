import ObjectMachine.Proofs.Ancestry
import ObjectMachine.Proofs.Iterators
import ObjectMachine.Proofs.Probes
/-!
Lookups of members up to where a hook is called. Until then a lookup only touches the heap, and asks of it no more
than the members in certain places: `Engine.find` is this part, and to read a member is to find it and to call the
hook that may be found. A member that is written to an object is seen by those lookups alone that go through the
members of the object; it gives the same on all other objects, and for all other names unless the name is one of a
hook.
-/
namespace ObjectMachine

/-- To change one item and to put another into a vacant slot can be done in either order. -/
theorem Arena.insert_modify {α : Type} {a : Arena α} (w : a.WellFormed) {i : Nat} {y : α} (here : a.get? i = some y)
    (f : α → α) (x : α) : (a.modify i f).insert x = ((a.insert x).1, (a.insert x).2.modify i f) := by
  have fresh : (a.insert x).1 ≠ i := by
    rintro rfl
    rw [w.get?_insert_slot x] at here
    cases here
  obtain ⟨slots, free⟩ := a
  cases free with
  | nil =>
    simp only [insert, modify, Array.size_modify, Prod.mk.injEq, mk.injEq, and_true, true_and]
    refine Array.ext_getElem? fun j => ?_
    have other : slots.size ≠ i := fresh
    simp only [Array.getElem?_modify, Array.getElem?_push, Array.size_modify]
    grind
  | cons first rest =>
    simp only [insert, modify, Prod.mk.injEq, mk.injEq, and_true, true_and]
    refine Array.ext_getElem? fun j => ?_
    have other : first ≠ i := fresh
    simp only [Array.getElem?_modify, Array.getElem?_setIfInBounds, Array.size_modify]
    grind

namespace Heap

variable {h : Heap} {o p v : Ref} {obj : Object} {n s : String}

/-! ### What a write leaves alone -/

theorem object?_setMember (h : Heap) (o : Ref) (n : String) (v p : Ref) :
    (h.setMember o n v).object? p =
      if o = p then (h.object? p).map fun obj => { obj with members := obj.members.insert n v } else h.object? p :=
  h.object?_modify o _ p

theorem setMember_eq_modify (h : Heap) (o : Ref) (n : String) (v : Ref) :
    h.setMember o n v = h.modify o (Change.write [(n, v)]).apply := rfl

theorem ownMember?_setMember (live : h.object? o = some obj) (p : Ref) (s : String) :
    (h.setMember o n v).ownMember? p s = if p = o ∧ s = n then some v else h.ownMember? p s := by
  rw [ownMember?, ownMember?, object?_setMember]
  by_cases same : p = o
  · subst same
    rw [if_pos rfl, live, Option.map_some, Option.bind_some, Option.bind_some, Table.get?_insert]
    by_cases named : n = s
    · rw [if_pos named, if_pos ⟨rfl, named.symm⟩]
    · rw [if_neg named, if_neg fun both => named both.2.symm]
  · rw [if_neg (Ne.symm same), if_neg fun both => same both.1]

@[simp] theorem payload?_setMember (h : Heap) (o : Ref) (n : String) (v p : Ref) :
    (h.setMember o n v).payload? p = h.payload? p := by
  rw [setMember_eq_modify, payload?_modify]
  split
  · cases h.payload? p <;> rfl
  · rfl

@[simp] theorem typeInfo?_setMember (h : Heap) (o : Ref) (n : String) (v p : Ref) :
    (h.setMember o n v).typeInfo? p = h.typeInfo? p := by
  rw [typeInfo?, typeInfo?, payload?_setMember]

@[simp] theorem mro_setMember (h : Heap) (o : Ref) (n : String) (v p : Ref) : (h.setMember o n v).mro p = h.mro p :=
  mro_congr (h.typeInfo?_setMember o n v p)

@[simp] theorem typeOf_setMember (h : Heap) (o : Ref) (n : String) (v p : Ref) :
    (h.setMember o n v).typeOf p = h.typeOf p := by
  rw [typeOf, typeOf, object?_setMember]
  split
  · cases h.object? p <;> rfl
  · rfl

@[simp] theorem typeName_setMember (h : Heap) (o : Ref) (n : String) (v p : Ref) :
    (h.setMember o n v).typeName p = h.typeName p := by
  rw [typeName, typeName, nameOfType, nameOfType, typeOf_setMember, typeInfo?_setMember]

@[simp] theorem inherited_setMember (h : Heap) (o : Ref) (n : String) (v p : Ref) :
    (h.setMember o n v).inherited p = h.inherited p := by
  simp only [inherited, payload?_setMember, typeOf_setMember, mro_setMember]

@[simp] theorem searched_setMember (h : Heap) (o : Ref) (n : String) (v p : Ref) :
    (h.setMember o n v).searched p = h.searched p := by
  simp only [searched, payload?_setMember, typeOf_setMember, mro_setMember, inherited_setMember]

/-- A chain of Types has the members that it had, apart from the one that was written if the object is in the chain. -/
theorem memberIn?_setMember (live : h.object? o = some obj) {chain : List Ref} (apart : o ∉ chain ∨ s ≠ n) :
    (h.setMember o n v).memberIn? chain s = h.memberIn? chain s := by
  have same : ∀ p ∈ chain, (h.setMember o n v).ownMember? p s = h.ownMember? p s := by
    intro p mem
    rw [ownMember?_setMember live]
    refine if_neg ?_
    rintro ⟨rfl, rfl⟩
    exact apart.elim (absurd mem) (absurd rfl)
  clear apart
  induction chain with
  | nil => rfl
  | cons p later ih =>
    obtain ⟨first, rest⟩ := List.forall_mem_cons.mp same
    simp only [memberIn?] at ih ⊢
    rw [List.findSome?_cons, List.findSome?_cons, first, ih rest]

/-- An object can be stored before or after a member is written to another. -/
theorem stored_setMember (w : h.objects.WellFormed) (live : h.object? o = some obj) (payload : Payload) :
    (h.setMember o n v).stored payload = ((h.stored payload).1, (h.stored payload).2.setMember o n v) := by
  obtain ⟨objects, scopes, budget, since⟩ := h
  have inserted := Arena.insert_modify w live (fun obj => { obj with members := obj.members.insert n v })
    (Object.ofPayload payload none)
  simp only [stored, allocate, setMember, modify, book]
  cases budget.allocate with
  | error e => rfl
  | ok budget =>
    simp only [place, inserted]

/-- A heap has what another has, and no more Types. -/
structure AddsData (h h' : Heap) : Prop extends h.Adds h' where
  /-- The Types are as they were. -/
  types : ∀ T, h'.typeInfo? T = h.typeInfo? T

namespace AddsData

variable {h' h'' : Heap}

theorem refl (w : h.objects.WellFormed) : h.AddsData h := ⟨.refl w, fun _ => rfl⟩

theorem trans (first : h.AddsData h') (later : h'.AddsData h'') : h.AddsData h'' :=
  ⟨first.toAdds.trans later.toAdds, fun T => (later.types T).trans (first.types T)⟩

theorem mro (adds : h.AddsData h') (T : Ref) : h'.mro T = h.mro T := mro_congr (adds.types T)

theorem typeOf (adds : h.AddsData h') (live : h.object? p = some obj) : h'.typeOf p = h.typeOf p := by
  rw [Heap.typeOf, Heap.typeOf, live, adds.kept p obj live]

/-- What is stored leaves the Types as they are, unless it is one. -/
theorem of_stored {payload : Payload} (w : h.objects.WellFormed) (data : ∀ info, payload ≠ .type info) :
    h.AddsData (h.stored payload).2 := by
  cases stored : h.stored payload with
  | mk result h' =>
    cases result with
    | error e =>
      rw [(full_of_stored w stored).2.1]
      exact refl w
    | ok r =>
      have stores := stores_of_stored w stored
      refine ⟨.of_stores stores, fun T => ?_⟩
      rcases eq_or_ne T r with rfl | other
      · rw [typeInfo?_of_vacant stores.vacant, Option.eq_none_iff_forall_ne_some]
        intro info found
        rw [typeInfo?_eq_some_iff, stores.payload?, Option.some_inj] at found
        exact data info found
      · exact stores.typeInfo?_of_ne other

end AddsData

/-! ### Hooks -/

/-- The member that serves as a hook of an object before its Type is asked. The members of a Type are hooks for its
instances, and not for the Type itself. -/
def ownHook? (h : Heap) (r : Ref) (hook : String) : Option Ref :=
  match h.payload? r with
  | some (.type _) => none
  | _ => h.ownMember? r hook

/-- The hook of a name that applies to an object. -/
def hook? (h : Heap) (r : Ref) (hook : String) : Option Ref :=
  (h.ownHook? r hook).or (h.memberIn? (h.mro (h.typeOf r)) hook)

/-- To look up a member of an object goes through the members of another, and is for the name or for a hook that may
give the member. -/
def Consults (h : Heap) (r o : Ref) (s n : String) : Prop :=
  o ∈ r :: (h.mro (h.typeOf r) ++ h.mro r) ∧ n ∈ [s, "hook_get_" ++ s, "hook_get"]

/-- The names of hooks for reading start like those of all hooks. -/
theorem isHookName_get (s : String) : Engine.isHookName ("hook_get_" ++ s) = true := by
  have starts : "hook_".toList.isPrefixOf ("hook_get_".toList ++ s.toList) = true := rfl
  rw [Engine.isHookName, String.toList_append, starts]

/-- Where the Type of an object is searched, and the object itself if it is one. -/
theorem mem_searched_of_mem {r t : Ref} {own : Object} (made : h.TypesMade) (stored : h.object? r = some own)
    (notNull : r ≠ .null) (noView : ∀ target cls, own.payload ≠ .baseView target cls)
    (mem : t ∈ r :: (h.mro (h.typeOf r) ++ h.mro r)) : t ∈ h.searched r := by
  have payload : h.payload? r = some own.payload := by rw [payload?, stored]; rfl
  have chain : h.searched r = r :: h.inherited r := by
    rw [searched, if_neg notNull, payload]
    split
    · rename_i target cls view
      exact absurd (Option.some.inj view) (noView target cls)
    · rfl
  rw [chain]
  rcases List.mem_cons.mp mem with rfl | mem
  · exact List.mem_cons_self
  by_cases isType : ∃ info, own.payload = .type info
  · obtain ⟨info, type⟩ := isType
    have found : h.payload? r = some (.type info) := type ▸ payload
    have mro : h.mro r = info.mro := mro_of_typeInfo? (typeInfo?_eq_some_iff.mpr found)
    by_cases self : t = r
    · exact self ▸ List.mem_cons_self
    refine List.mem_cons_of_mem r ?_
    rw [inherited, found]
    refine List.mem_append.mpr ?_
    by_cases ancestor : t ∈ h.mro r
    · -- the ancestors of a Type start with the Type itself
      have starts := made.starts (List.ne_nil_of_mem ancestor)
      refine .inr (List.mem_filter.mpr ⟨?_, by simp [self]⟩)
      rw [← mro]
      cases order : h.mro r with
      | nil => simp [order] at ancestor
      | cons first rest =>
        rw [order] at starts ancestor
        cases starts
        exact (List.mem_cons.mp ancestor).resolve_left self
    · have further := (List.mem_append.mp mem).resolve_right ancestor
      exact .inl (List.mem_filter.mpr ⟨further, by simp [self, ancestor]⟩)
  · have other : ∀ info, own.payload ≠ .type info := fun info type => isType ⟨info, type⟩
    have none : h.mro r = [] := by
      refine mro_of_typeInfo?_none ?_
      rw [Option.eq_none_iff_forall_ne_some]
      intro info found
      rw [typeInfo?_eq_some_iff, payload] at found
      exact other info (Option.some.inj found)
    have typeOf : h.typeOf r = own.typeRef := by rw [Heap.typeOf, stored]; rfl
    rw [none, List.append_nil, typeOf] at mem
    rw [inherited_of_not_type stored other]
    exact List.mem_cons_of_mem r mem

/-- A lookup that does not search the members of an object does not ask it for hooks either. -/
theorem not_consults {r : Ref} {own : Object} (made : h.TypesMade) (stored : h.object? r = some own)
    (notNull : r ≠ .null) (noView : ∀ target cls, own.payload ≠ .baseView target cls)
    (apart : o ∉ h.searched r ∨ s ≠ n ∧ Engine.isHookName n = false) : ¬ h.Consults r o s n := by
  rintro ⟨mem, named⟩
  rcases apart with out | ⟨other, plain⟩
  · exact out (mem_searched_of_mem made stored notNull noView mem)
  · simp only [List.mem_cons, List.not_mem_nil, or_false] at named
    rcases named with rfl | rfl | rfl
    · exact other rfl
    · rw [isHookName_get] at plain
      cases plain
    · exact absurd plain (by decide)

end Heap

namespace Engine

variable {α β : Type} {due : Schedule} {k : Reentry} {m : Machine} {h : Heap} {o p v : Ref} {obj : Object} {n s : String}

theorem does_load (due : Schedule) (live : h.object? o = some obj) : Does due (load o) h (.ok obj, h) := by
  rintro m rfl
  rw [runUnder_load live]
  rfl

/-- A hook of the object itself is taken as it is, and one of its Type is bound to the object. -/
def takeHook (r : Ref) (own inherited : Option Ref) : Engine (Option Ref) :=
  match own with
  | some value => pure (some value)
  | none => bindFound inherited r

theorem runUnder_resolveHook (live : m.heap.object? p = some obj) (hook : String) :
    (resolveHook p hook).runUnder due m =
      (takeHook p (m.heap.ownHook? p hook) (m.heap.memberIn? (m.heap.mro (m.heap.typeOf p)) hook)).runUnder due m := by
  have payload : m.heap.payload? p = some obj.payload := by rw [Heap.payload?, live]; rfl
  have typeOf : m.heap.typeOf p = obj.typeRef := by rw [Heap.typeOf, live]; rfl
  have own : m.heap.ownMember? p hook = obj.members.get? hook := by rw [Heap.ownMember?, live]; rfl
  rw [resolveHook, runUnder_bind, runUnder_load live, Heap.ownHook?, payload, own, typeOf]
  dsimp only
  cases obj.payload <;> cases obj.members.get? hook <;> rfl

/-! ### Lookups up to a hook -/

/-- What a lookup finds: the value, or a hook that is to give it. -/
inductive Finding where
  /-- The value. -/
  | value (v : Ref)
  /-- The hook, and what it is called with. -/
  | hook (callee : Ref) (args : List Ref)

/-- The value of what was found. -/
def Finding.settle (k : Reentry) : Finding → Engine Ref
  | value v => return v
  | hook callee args => k.call callee args

/-- Looks up a member of an object that is no view, given what is stored for the object, up to where a hook is called.
-/
def findPlain (r : Ref) (o : Object) (name : String) : Engine Finding := do
  match o.members.get? name with
  | some value => return .value value
  | none =>
    match ← (if isHookName name then pure none else resolveHook r ("hook_get_" ++ name)) with
    | some getter => return .hook getter []
    | none =>
      match ← lookupInherited r o name .full with
      | some found => return .value found
      | none =>
        match ← (if isHookName name then pure none else resolveHook r "hook_get") with
        | some hook =>
          let key ← newStr name
          return .hook hook [key]
        | none => raise (.noMember (← ask fun h => h.typeName r) name)

/-- Looks up a member of an object, given what is stored for the object, up to where a hook is called. -/
def findIn (r : Ref) (o : Object) (name : String) : Engine Finding := do
  match o.payload with
  | .baseView target cls =>
    match ← bindFound (← ask fun h => h.memberIn? (Lineage.after cls (h.mro (h.typeOf target))) name) target with
    | some value => return .value value
    | none => raise (.noMember (← ask fun h => h.typeName r) name)
  | _ => findPlain r o name

/-- Looks up a member of an object up to where a hook is called. -/
def find (r : Ref) (name : String) : Engine Finding := do
  if r = .null then raise (.nullMember name)
  else
    let o ← load r
    findIn r o name

theorem runUnder_bind_congr {x : Engine α} {f g : α → Engine β}
    (same : ∀ a m, (f a).runUnder due m = (g a).runUnder due m) (m : Machine) :
    (x >>= f).runUnder due m = (x >>= g).runUnder due m := by
  rw [runUnder_bind, runUnder_bind]
  cases x.runUnder due m with
  | error e m => rfl
  | ok a m => exact same a m

theorem runUnder_bind_assoc {γ : Type} (x : Engine α) (f : α → Engine β) (g : β → Engine γ) (m : Machine) :
    ((x >>= f) >>= g).runUnder due m = (x >>= fun a => f a >>= g).runUnder due m := by
  simp only [runUnder_bind]
  cases x.runUnder due m <;> rfl

theorem runUnder_bind_some {x : Engine α} {g : Option α → Engine α} (gives : ∀ a, g (some a) = pure a) (m : Machine) :
    ((x >>= fun a => pure (some a)) >>= g).runUnder due m = x.runUnder due m := by
  simp only [runUnder_bind]
  cases x.runUnder due m with
  | error e m => rfl
  | ok a m =>
    show (g (some a)).runUnder due m = _
    rw [gives]
    rfl

theorem findIn_of_not_view {r : Ref} {o : Object} (noView : ∀ target cls, o.payload ≠ .baseView target cls)
    (name : String) : findIn r o name = findPlain r o name := by
  rw [findIn]
  split
  · rename_i target cls view
    exact absurd view (noView target cls)
  · rfl

/-- A lookup looks at the own members for the name alone. -/
theorem findIn_insert (r : Ref) (own : Object) (v : Ref) (other : n ≠ s) :
    findIn r { own with members := own.members.insert n v } s = findIn r own s := by
  obtain ⟨type, members, payload⟩ := own
  have same : (members.insert n v).get? s = members.get? s := by rw [Table.get?_insert, if_neg other]
  simp only [findIn, findPlain, same]
  rfl

/-- To read a member is to look it up, and to call the hook that may be found. -/
theorem runUnder_getMember (due : Schedule) (k : Reentry) (m : Machine) (r : Ref) (name : String) :
    (getMember k r name).runUnder due m = (find r name >>= Finding.settle k).runUnder due m := by
  rw [getMember, find]
  split
  · rfl
  rw [lookupMember, runUnder_bind_assoc, runUnder_bind_assoc]
  refine runUnder_bind_congr (fun o m => ?_) m
  split
  · rename_i target cls view
    rw [findIn, view, runUnder_bind_assoc]
    dsimp only
    rw [runUnder_bind_assoc]
    refine runUnder_bind_congr (fun found m => ?_) m
    rw [runUnder_bind_assoc]
    refine runUnder_bind_congr (fun bound m => ?_) m
    cases bound <;> rfl
  · rename_i noView
    rw [findIn_of_not_view noView, findPlain]
    cases o.members.get? name with
    | some value => rfl
    | none =>
      have hooks (x : Engine (Option Ref)) : (if (Access.full == .full && !isHookName name) = true then x else pure none) =
          if isHookName name = true then pure none else x := by
        cases isHookName name <;> rfl
      dsimp only
      rw [hooks, hooks, runUnder_bind_assoc, runUnder_bind_assoc]
      refine runUnder_bind_congr (fun getter m => ?_) m
      cases getter with
      | some getter =>
        exact runUnder_bind_some (fun _ => rfl) m
      | none =>
        dsimp only
        rw [runUnder_bind_assoc, runUnder_bind_assoc]
        refine runUnder_bind_congr (fun found m => ?_) m
        cases found with
        | some found => rfl
        | none =>
          dsimp only
          rw [runUnder_bind_assoc, runUnder_bind_assoc]
          refine runUnder_bind_congr (fun hook m => ?_) m
          cases hook with
          | none => rfl
          | some hook =>
            dsimp only
            rw [runUnder_bind_assoc, runUnder_bind_assoc]
            refine runUnder_bind_congr (fun key m => ?_) m
            exact runUnder_bind_some (fun _ => rfl) m

/-! ### What a write leaves alone -/

/-- A computation only touches the heap, and does the same whether or not a member was written before. -/
def Undisturbed (due : Schedule) (o : Ref) (n : String) (v : Ref) (x : Engine α) (h : Heap) : Prop :=
  ∃ done : Except Interrupt α × Heap, Does due x h done ∧
    Does due x (h.setMember o n v) (done.1, done.2.setMember o n v) ∧ h.AddsData done.2

namespace Undisturbed

variable {x : Engine α} {f : α → Engine β} {name : String} {r : Ref} {own : Object}

theorem pure (w : h.objects.WellFormed) (a : α) : Undisturbed due o n v (Pure.pure a) h :=
  ⟨(.ok a, h), does_pure due a h, does_pure due a _, .refl w⟩

theorem raise (w : h.objects.WellFormed) (c : Cause) : Undisturbed due o n v (Engine.raise c : Engine α) h :=
  ⟨(.error _, h), does_raise due c h, does_raise due c _, .refl w⟩

theorem bind (first : Undisturbed due o n v x h)
    (later : ∀ a h', h.AddsData h' → Undisturbed due o n v (f a) h') : Undisturbed due o n v (x >>= f) h := by
  obtain ⟨⟨result, h'⟩, before, after, adds⟩ := first
  cases result with
  | error e => exact ⟨(.error e, h'), before.bind_of_error, after.bind_of_error, adds⟩
  | ok a =>
    obtain ⟨done, before', after', adds'⟩ := later a h' adds
    exact ⟨done, before.bind before', after.bind after', adds.trans adds'⟩

/-- A question about what was not written. -/
theorem ask (w : h.objects.WellFormed) {f : Heap → α} (same : f (h.setMember o n v) = f h) :
    Undisturbed due o n v (Engine.ask f) h :=
  ⟨(.ok (f h), h), does_ask due f h, same ▸ does_ask due f _, .refl w⟩

/-- What a computation does that runs like another. -/
theorem congr {y : Engine α} (other : Undisturbed due o n v y h)
    (same : ∀ m : Machine, m.heap = h ∨ m.heap = h.setMember o n v → x.runUnder due m = y.runUnder due m) :
    Undisturbed due o n v x h := by
  obtain ⟨done, before, after, adds⟩ := other
  refine ⟨done, fun m here => ?_, fun m here => ?_, adds⟩
  · rw [same m (.inl here), before m here]
  · rw [same m (.inr here), after m here]

theorem forgiving (inner : Undisturbed due o n v x h) : Undisturbed due o n v (Engine.forgiving x) h := by
  obtain ⟨⟨result, h'⟩, before, after, adds⟩ := inner
  cases result with
  | ok a =>
    refine ⟨(.ok (some a), h'), fun m same => ?_, fun m same => ?_, adds⟩
    · rw [runUnder, before m same]
      rfl
    · rw [runUnder, after m same]
      rfl
  | error e =>
    refine ⟨(if e.isOfProgram then .ok none else .error e, h'), fun m same => ?_, fun m same => ?_, adds⟩
    · rw [runUnder, before m same]
      cases program : e.isOfProgram <;> simp [Machine.ends, program]
    · rw [runUnder, after m same]
      cases program : e.isOfProgram <;> simp [Machine.ends, program]

theorem payload (w : h.objects.WellFormed) (p : Ref) : Undisturbed due o n v (Engine.payload p) h := by
  cases holds : h.payload? p with
  | some payload =>
    have holds' : (h.setMember o n v).payload? p = some payload := (h.payload?_setMember o n v p).trans holds
    exact ⟨_, does_payload due holds, does_payload due holds', .refl w⟩
  | none =>
    have dangling (h : Heap) (none : h.payload? p = none) : Does due (Engine.payload p) h (.error .dangling, h) := by
      rintro m rfl
      rw [runUnder_payload, none]
      rfl
    exact ⟨_, dangling h holds, dangling _ ((h.payload?_setMember o n v p).trans holds), .refl w⟩

section

variable (w : h.objects.WellFormed) (live : h.object? o = some obj)
include w live

theorem new {p : Payload} (data : ∀ info, p ≠ .type info) : Undisturbed due o n v (Engine.new p) h := by
  have later := h.stored_setMember w live (n := n) (v := v) p
  exact ⟨h.stored p, does_new due p h, later ▸ does_new due p _, .of_stored w data⟩

theorem bindValue (value this : Ref) : Undisturbed due o n v (Engine.bindValue value this) h := by
  refine (payload w value).bind fun p h' adds => ?_
  have w' := adds.wellFormed
  split
  · split
    · exact new w' (adds.kept o obj live) (by simp)
    · exact raise w' _
  · exact pure w' value

theorem bindFound (found : Option Ref) (this : Ref) : Undisturbed due o n v (Engine.bindFound found this) h := by
  cases found with
  | none => exact pure w none
  | some value => exact (bindValue w live value this).bind fun bound h' adds => pure adds.wellFormed (some bound)

/-- A chain of Types gives the same unless the object is in it and the name is the one that was written. -/
theorem memberIn? {chain : List Ref} (apart : o ∉ chain ∨ s ≠ n) :
    Undisturbed due o n v (Engine.ask fun h => h.memberIn? chain s) h :=
  ask w (Heap.memberIn?_setMember live apart)

/-- A hook is the same unless it is what was written. -/
theorem resolveHook {hook : String} (stored : h.object? r = some own)
    (apart : o ≠ r ∧ o ∉ h.mro (h.typeOf r) ∨ hook ≠ n) : Undisturbed due o n v (Engine.resolveHook r hook) h := by
  have live' : ∃ own', (h.setMember o n v).object? r = some own' := by
    rw [Heap.object?_setMember, stored]
    split <;> exact ⟨_, rfl⟩
  obtain ⟨own', stored'⟩ := live'
  have same : (h.setMember o n v).ownHook? r hook = h.ownHook? r hook := by
    have other : ¬(r = o ∧ hook = n) := fun both => apart.elim (fun out => out.1 both.1.symm) fun ne => ne both.2
    rw [Heap.ownHook?, Heap.ownHook?, Heap.payload?_setMember, Heap.ownMember?_setMember live, if_neg other]
  have inherited : (h.setMember o n v).memberIn? ((h.setMember o n v).mro ((h.setMember o n v).typeOf r)) hook =
      h.memberIn? (h.mro (h.typeOf r)) hook := by
    rw [Heap.mro_setMember, Heap.typeOf_setMember, Heap.memberIn?_setMember live (apart.imp_left And.right)]
  have taken : Undisturbed due o n v
      (takeHook r (h.ownHook? r hook) (h.memberIn? (h.mro (h.typeOf r)) hook)) h := by
    cases h.ownHook? r hook with
    | some value => exact pure w (some value)
    | none => exact bindFound w live _ r
  refine taken.congr ?_
  rintro m (rfl | here)
  · exact runUnder_resolveHook stored hook
  · rw [← here] at stored' same inherited
    rw [runUnder_resolveHook stored', same, inherited]

theorem lookupOnMetatype (apart : o ∉ h.mro (h.typeOf r) ∨ s ≠ n) :
    Undisturbed due o n v (Engine.lookupOnMetatype r s .full) h := by
  refine bind (ask w ?_) fun found h' adds => bindFound adds.wellFormed (adds.kept o obj live) found r
  simp only [Heap.mro_setMember, Heap.typeOf_setMember]
  exact Heap.memberIn?_setMember live (apart.imp_left fun out mem => out (List.mem_of_mem_filter mem))

theorem lookupInherited (stored : h.object? r = some own)
    (apart : o ∉ h.mro (h.typeOf r) ∧ o ∉ h.mro r ∨ s ≠ n) :
    Undisturbed due o n v (Engine.lookupInherited r own s .full) h := by
  have typeOf : h.typeOf r = own.typeRef := by rw [Heap.typeOf, stored]; rfl
  rw [Engine.lookupInherited]
  split
  · rename_i info type
    have mro : h.mro r = info.mro := by
      rw [Heap.mro, Heap.typeInfo?, Heap.payload?, stored, Option.map_some, type]
      rfl
    refine (lookupOnMetatype w live (apart.imp_left And.left)).forgiving.bind fun found h' adds => ?_
    have w' := adds.wellFormed
    split
    · exact pure w' _
    · refine memberIn? w' (adds.kept o obj live) (apart.imp_left fun out mem => out.2 ?_)
      rw [mro]
      exact List.mem_of_mem_tail (List.mem_of_mem_filter mem)
  · refine (ask w ?_).bind fun found h' adds =>
      bindFound adds.wellFormed (adds.kept o obj live) found r
    rw [Heap.mro_setMember, ← typeOf]
    exact Heap.memberIn?_setMember live (apart.imp_left And.left)

end

theorem findPlain (w : h.objects.WellFormed) (live : h.object? o = some obj) (stored : h.object? r = some own)
    (apart : ¬ h.Consults r o s n) : Undisturbed due o n v (Engine.findPlain r own s) h := by
  have hook {h' : Heap} (adds : h.AddsData h') {hook : String} (named : hook ∈ ["hook_get_" ++ s, "hook_get"]) :
      Undisturbed due o n v (if isHookName s then Pure.pure none else Engine.resolveHook r hook) h' := by
    have stored' := adds.kept r own stored
    split
    · exact pure adds.wellFormed none
    · refine resolveHook adds.wellFormed (adds.kept o obj live) stored' ?_
      rw [adds.mro, adds.typeOf stored]
      simp only [Heap.Consults, List.mem_cons, List.mem_append] at apart named
      grind
  rw [Engine.findPlain]
  cases own.members.get? s with
  | some value => exact pure w _
  | none =>
    refine (hook (.refl w) (by simp)).bind fun getter h₁ adds₁ => ?_
    have w₁ := adds₁.wellFormed
    cases getter with
    | some getter => exact pure w₁ _
    | none =>
      have apart₁ : o ∉ h₁.mro (h₁.typeOf r) ∧ o ∉ h₁.mro r ∨ s ≠ n := by
        rw [adds₁.mro, adds₁.mro, adds₁.typeOf stored]
        simp only [Heap.Consults, List.mem_cons, List.mem_append] at apart
        grind
      refine (lookupInherited w₁ (adds₁.kept o obj live) (adds₁.kept r own stored) apart₁).bind
        fun found h₂ adds₂ => ?_
      have adds₂ := adds₁.trans adds₂
      have w₂ := adds₂.wellFormed
      cases found with
      | some found => exact pure w₂ _
      | none =>
        refine (hook adds₂ (by simp)).bind fun general h₃ adds₃ => ?_
        have w₃ := adds₃.wellFormed
        have live₃ := adds₃.kept o obj (adds₂.kept o obj live)
        cases general with
        | some general => exact (new w₃ live₃ (by simp)).bind fun key h₄ adds₄ => pure adds₄.wellFormed _
        | none => exact (ask w₃ (Heap.typeName_setMember _ o n v r)).bind fun name h₄ adds₄ => raise adds₄.wellFormed _

/-- What a lookup by a view finds does not depend on what its object has as its own. -/
theorem findIn_of_view {target cls : Ref} (w : h.objects.WellFormed) (live : h.object? o = some obj)
    (view : own.payload = .baseView target cls)
    (apart : o ∉ Lineage.after cls (h.mro (h.typeOf target)) ∨ s ≠ n) :
    Undisturbed due o n v (Engine.findIn r own s) h := by
  rw [Engine.findIn, view]
  have same : (h.setMember o n v).memberIn?
      (Lineage.after cls ((h.setMember o n v).mro ((h.setMember o n v).typeOf target))) s =
        h.memberIn? (Lineage.after cls (h.mro (h.typeOf target))) s := by
    rw [Heap.mro_setMember, Heap.typeOf_setMember, Heap.memberIn?_setMember live apart]
  refine (ask w same).bind fun found h₁ adds₁ => ?_
  have w₁ := adds₁.wellFormed
  refine (bindFound w₁ (adds₁.kept o obj live) found target).bind fun bound h₂ adds₂ => ?_
  have w₂ := adds₂.wellFormed
  cases bound with
  | some value => exact pure w₂ _
  | none => exact (ask w₂ (Heap.typeName_setMember _ o n v r)).bind fun name h₃ adds₃ => raise adds₃.wellFormed _

/-- What a lookup finds is the same unless it goes through the member that was written. -/
theorem find (w : h.objects.WellFormed) (made : h.TypesMade) (live : h.object? o = some obj)
    (noView : ∀ target cls, obj.payload ≠ .baseView target cls) (apart : o ∉ h.searched r ∨ s ≠ n ∧ isHookName n = false) :
    Undisturbed due o n v (Engine.find r s) h := by
  by_cases null : r = .null
  · rw [Engine.find, if_pos null]
    exact raise w _
  cases stored : h.object? r with
  | none =>
    have dangling (h : Heap) (vacant : h.object? r = none) : Does due (Engine.find r s) h (.error .dangling, h) := by
      rintro m rfl
      rw [Engine.find, if_neg null, runUnder_bind, load, runUnder, Op.perform, vacant]
      rfl
    have vacant' : (h.setMember o n v).object? r = none := by
      rw [Heap.object?_setMember, stored, Option.map_none, ite_self]
    exact ⟨_, dangling h stored, dangling _ vacant', .refl w⟩
  | some own =>
    obtain ⟨own', stored', same⟩ : ∃ own', (h.setMember o n v).object? r = some own' ∧
        Engine.findIn r own' s = Engine.findIn r own s := by
      by_cases self : o = r
      · subst self
        -- the name that is looked up is another than the one that was written
        cases stored.symm.trans live
        have searched : o ∈ h.searched o := Heap.mem_searched_of_mem made stored null noView List.mem_cons_self
        have other : n ≠ s := (apart.resolve_left (absurd searched)).1.symm
        exact ⟨_, by rw [Heap.object?_setMember, if_pos rfl, stored]; rfl, findIn_insert o obj v other⟩
      · exact ⟨own, by rw [Heap.object?_setMember, if_neg self, stored], rfl⟩
    have found : Undisturbed due o n v (Engine.findIn r own s) h := by
      by_cases isView : ∃ target cls, own.payload = .baseView target cls
      · obtain ⟨target, cls, view⟩ := isView
        have payload : h.payload? r = some (.baseView target cls) := by rw [Heap.payload?, stored, ← view]; rfl
        rw [h.searched_of_view null payload] at apart
        exact findIn_of_view w live view (apart.imp_right And.left)
      · have noView : ∀ target cls, own.payload ≠ .baseView target cls :=
          fun target cls view => isView ⟨target, cls, view⟩
        rw [findIn_of_not_view noView]
        exact findPlain w live stored (h.not_consults made stored null noView apart)
    obtain ⟨done, before, after, adds⟩ := found
    refine ⟨done, ?_, ?_, adds⟩
    · rw [Engine.find, if_neg null]
      exact (does_load due stored).bind before
    · rw [Engine.find, if_neg null]
      exact (does_load due stored').bind (same.symm ▸ after)

end Undisturbed

end Engine

end ObjectMachine
