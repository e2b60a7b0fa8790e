import ObjectMachine.Proofs.Lookups
/-!
Writing, reading and removing members. A member that was written to an object is read back as it is, before anything
that the object inherits is looked at and before any hook is asked. To remove it leaves all as it was before it was
written, if it was new. What an object does not have as its own cannot be removed, and `null` and views cannot be
changed at all.
-/
namespace ObjectMachine

namespace Table

variable {κ ν : Type} [DecidableEq κ] {k : κ} {v : ν}

theorem eraseIn_updateIn {f : Option ν → ν} {l : List (κ × ν)} (absent : lookupIn k l = none) :
    eraseIn k (updateIn k f l) = l := by
  induction l with
  | nil => simp [updateIn, eraseIn]
  | cons e rest ih =>
    obtain ⟨k', v'⟩ := e
    by_cases here : k' = k
    · simp [lookupIn, here] at absent
    · rw [lookupIn, if_neg here] at absent
      rw [updateIn, if_neg here, eraseIn, if_neg here, ih absent]

/-- To remove a new key leaves the table as it was. -/
theorem erase_insert {t : Table κ ν} (absent : t.get? k = none) : (t.insert k v).erase k = t := by
  obtain ⟨entries, nodup⟩ := t
  simp only [insert, update, erase, mk.injEq]
  exact eraseIn_updateIn absent

end Table

namespace Heap

variable {h : Heap} {o v : Ref} {obj : Object} {n : String}

/-- To remove a member that was new leaves the heap as it was. -/
theorem erase_setMember (live : h.object? o = some obj) (absent : h.ownMember? o n = none) :
    (h.setMember o n v).modify o (Change.erase n).apply = h := by
  rw [ownMember?, live, Option.bind_some] at absent
  obtain ⟨objects, scopes, budget, since⟩ := h
  have same : (objects.modify o.slot fun obj => { obj with members := obj.members.insert n v }).modify o.slot
      (Change.erase n).apply = objects := by
    rw [Arena.modify_modify]
    refine Arena.modify_eq_self fun x here => ?_
    cases Option.some.inj (here.symm.trans live)
    obtain ⟨type, members, payload⟩ := obj
    exact congrArg (fun members => (⟨type, members, payload⟩ : Object)) (Table.erase_insert absent)
  exact congrArg (fun objects => (⟨objects, scopes, budget, since⟩ : Heap)) same

/-! ### What stands in the way of changes -/

/-- No hook is asked when the member of an object is changed in some way: there is neither one for the name nor one for
all names, or the name is itself one of a hook. -/
def Unhooked (h : Heap) (r : Ref) (stem name : String) : Prop :=
  Engine.isHookName name = false → h.hook? r (stem ++ "_" ++ name) = none ∧ h.hook? r stem = none

/-- Members of an object cannot be changed: it is `null`, or a view. -/
inductive Sealed (h : Heap) (r : Ref) : Prop where
  /-- There is but one `null`. -/
  | null (is : r = .null)
  /-- A view has no members of its own. -/
  | view {target cls : Ref} (is : h.payload? r = some (.baseView target cls))

theorem Sealed.of_setMember (sealed : (h.setMember o n v).Sealed o) : h.Sealed o := by
  cases sealed with
  | null is => exact .null is
  | view is => exact .view ((h.payload?_setMember o n v o).symm.trans is)

/-- Other names are hooks as before. -/
theorem hook?_setMember (live : h.object? o = some obj) {hook : String} (other : hook ≠ n) :
    (h.setMember o n v).hook? o hook = h.hook? o hook := by
  have own : (h.setMember o n v).ownMember? o hook = h.ownMember? o hook :=
    (ownMember?_setMember live o hook).trans (if_neg fun both => other both.2)
  rw [hook?, hook?, ownHook?, ownHook?, payload?_setMember, own, mro_setMember, typeOf_setMember,
    memberIn?_setMember live (.inr other)]

/-- A name that is none of a hook makes no hook. -/
theorem Unhooked.setMember {stem : String} (unhooked : h.Unhooked o stem n) (live : h.object? o = some obj)
    (starts : "hook_".toList.isPrefixOf stem.toList = true) : (h.setMember o n v).Unhooked o stem n := by
  intro plain
  obtain ⟨named, general⟩ := unhooked plain
  have hookName (s : String) : Engine.isHookName (stem ++ s) = true := by
    rw [Engine.isHookName, String.toList_append, List.isPrefixOf_iff_prefix]
    exact (List.isPrefixOf_iff_prefix.mp starts).trans (List.prefix_append _ _)
  have other (s : String) : stem ++ s ≠ n := by
    rintro rfl
    rw [hookName] at plain
    cases plain
  refine ⟨(hook?_setMember live ?_).trans named, (hook?_setMember live ?_).trans general⟩
  · rw [String.append_assoc]
    exact other _
  · simpa using other ""

end Heap

/-- A machine after a member was written to an object. -/
def Machine.written (m : Machine) (o : Ref) (n : String) (v : Ref) : Machine :=
  m.withHeap fun h => h.setMember o n v

/-- How a computation ends that ends like another, apart from a member that was written before. -/
def Outcome.written {α : Type} (o : Ref) (n : String) (v : Ref) : Outcome α → Outcome α
  | .ok a m => .ok a (m.written o n v)
  | .error e m => .error e (m.written o n v)

namespace Engine

variable {due : Schedule} {k : Reentry} {m : Machine} {h : Heap} {o p v : Ref} {obj : Object} {n : String}

theorem does_resolveHook_of_none (due : Schedule) (live : h.object? p = some obj) {hook : String}
    (free : h.hook? p hook = none) : Does due (resolveHook p hook) h (.ok none, h) := by
  obtain ⟨own, inherited⟩ := Option.or_eq_none_iff.mp free
  rintro m rfl
  rw [runUnder_resolveHook live, own, inherited]
  rfl

theorem does_runHook_of_unhooked (due : Schedule) (k : Reentry) (live : h.object? o = some obj) {stem : String}
    (free : h.Unhooked o stem n) (args : List Ref) : Does due (runHook k o stem n args) h (.ok false, h) := by
  rw [runHook]
  split
  · exact does_pure due false h
  · rename_i other
    obtain ⟨named, general⟩ := free (Bool.not_eq_true _ ▸ other)
    exact (does_resolveHook_of_none due live named).bind
      ((does_resolveHook_of_none due live general).bind (does_pure due false h))

/-! ### Changes of members -/

theorem does_checkTarget (due : Schedule) (live : h.object? o = some obj) (free : ¬ h.Sealed o) (n : String) :
    Does due (checkTarget o n) h (.ok (), h) := by
  have payload : h.payload? o = some obj.payload := by rw [Heap.payload?, live]; rfl
  rw [checkTarget, if_neg fun null => free (.null null)]
  refine (does_payload due payload).bind ?_
  split
  · rename_i target cls view
    exact absurd (.view (view ▸ payload)) free
  · exact does_pure due () h

/-- Members of what is sealed cannot be changed. -/
theorem does_checkTarget_of_sealed (due : Schedule) (sealed : h.Sealed o) (n : String) :
    ∃ c : Cause, Does due (checkTarget o n) h (.error (.raised (.ofCause c)), h) := by
  rw [checkTarget]
  split
  · exact ⟨_, does_raise due _ h⟩
  · rename_i other
    cases sealed with
    | null is => exact absurd is other
    | view is => exact ⟨_, (does_payload due is).bind (does_raise due _ h)⟩

theorem does_setMember (due : Schedule) (k : Reentry) (live : h.object? o = some obj) (free : ¬ h.Sealed o)
    (unhooked : h.Unhooked o "hook_set" n) (v : Ref) : Does due (setMember k o n v) h (.ok (), h.setMember o n v) := by
  have payload : h.payload? o = some obj.payload := by rw [Heap.payload?, live]; rfl
  refine (does_checkTarget due live free n).bind ((does_runHook_of_unhooked due k live unhooked [v]).bind ?_)
  exact does_change due payload (.write [(n, v)])

/-- A member of the object itself is read as it is. -/
theorem does_getMember_own (due : Schedule) (k : Reentry) (live : h.object? o = some obj) (free : ¬ h.Sealed o)
    (own : h.ownMember? o n = some v) : Does due (getMember k o n) h (.ok v, h) := by
  have payload : h.payload? o = some obj.payload := by rw [Heap.payload?, live]; rfl
  rw [Heap.ownMember?, live, Option.bind_some] at own
  rw [getMember, if_neg fun null => free (.null null)]
  have looked : Does due (lookupMember k o n .full) h (.ok (some v), h) := by
    refine (does_load due live).bind ?_
    split
    · rename_i target cls view
      exact absurd (.view (view ▸ payload)) free
    · rw [own]
      exact does_pure due (some v) h
  exact looked.bind (does_pure due v h)

theorem does_deleteMember (due : Schedule) (k : Reentry) (live : h.object? o = some obj) (free : ¬ h.Sealed o)
    (unhooked : h.Unhooked o "hook_del" n) (own : h.ownMember? o n = some v) :
    Does due (deleteMember k o n) h (.ok (), h.modify o (Change.erase n).apply) := by
  have payload : h.payload? o = some obj.payload := by rw [Heap.payload?, live]; rfl
  rw [Heap.ownMember?, live, Option.bind_some] at own
  refine (does_checkTarget due live free n).bind ((does_runHook_of_unhooked due k live unhooked []).bind ?_)
  refine (does_load due live).bind ?_
  rw [if_pos (by rw [Table.contains, own]; rfl)]
  exact does_change due payload (.erase n)

theorem does_deleteMember_of_absent (due : Schedule) (k : Reentry) (live : h.object? o = some obj)
    (free : ¬ h.Sealed o) (unhooked : h.Unhooked o "hook_del" n) (absent : h.ownMember? o n = none) :
    Does due (deleteMember k o n) h (.error (.raised (.ofCause (.noMember (h.typeName o) n))), h) := by
  rw [Heap.ownMember?, live, Option.bind_some] at absent
  refine (does_checkTarget due live free n).bind ((does_runHook_of_unhooked due k live unhooked []).bind ?_)
  refine (does_load due live).bind ?_
  rw [if_neg (by simp [Table.contains, absent])]
  exact (does_ask due _ h).bind (does_raise due _ h)

/-! ### The laws -/

/-- Writing, reading and removing a member go together. -/
structure Composes (due : Schedule) (k : Reentry) (m : Machine) (o : Ref) (n : String) (v : Ref) : Prop where
  /-- The member is written, and nothing else happens. -/
  written : (setMember k o n v).runUnder due m = .ok () (m.written o n v)
  /-- It is read as it is, whatever calls do: none is made. -/
  read : ∀ k', (getMember k' o n).runUnder due (m.written o n v) = .ok v (m.written o n v)
  /-- The object keeps its other members. -/
  others : ∀ s ≠ n, (m.written o n v).heap.ownMember? o s = m.heap.ownMember? o s
  /-- It keeps its Type and its data. -/
  data : (m.written o n v).heap.payload? o = m.heap.payload? o ∧ (m.written o n v).heap.typeOf o = m.heap.typeOf o
  /-- All other objects are as they were. -/
  objects : ∀ p ≠ o, (m.written o n v).heap.object? p = m.heap.object? p
  /-- What a lookup finds that does not go through the members of the object is what it found before; and so is what one
  finds for another name, unless the name that was written is one of a hook. -/
  lookups : ∀ p s, o ∉ m.heap.searched p ∨ s ≠ n ∧ isHookName n = false →
    (find p s).runUnder due (m.written o n v) = Outcome.written o n v ((find p s).runUnder due m) ∧
      (m.written o n v).heap.memberIn? ((m.written o n v).heap.searched p) s =
        m.heap.memberIn? (m.heap.searched p) s
  /-- To remove a member that was new leaves the machine as it was before. -/
  restored : m.heap.ownMember? o n = none → (deleteMember k o n).runUnder due (m.written o n v) = .ok () m
  /-- To remove one that the object does not have as its own fails, and nothing happens. -/
  absent : m.heap.ownMember? o n = none → ∃ c : Cause, c.kind = .attributeError ∧
    (deleteMember k o n).runUnder due m = .error (.raised (.ofCause c)) m

theorem Undisturbed.runUnder_written {α : Type} {x : Engine α} (still : Undisturbed due o n v x m.heap) :
    x.runUnder due (m.written o n v) = Outcome.written o n v (x.runUnder due m) := by
  obtain ⟨⟨result, h'⟩, before, after, -⟩ := still
  rw [before m rfl, after (m.written o n v) rfl]
  cases result <;> rfl

/-- For every object of a session that is neither `null` nor a view, and every name for which no hook stands in the
way of changes, writing, reading and removing a member go together; the object may be a Type, or of a built-in kind.
To read a member is to look it up, up to where a hook is called. What is sealed cannot be changed, and to try that
does nothing. -/
theorem member_edits_compose {budget : Budget} {tracer : Tracer} {actions : List HostAction}
    (reachable : m.heap ∈ (Machine.boot budget tracer).passage actions) (due : Schedule) (k : Reentry)
    (live : m.heap.object? o = some obj) (free : ¬ m.heap.Sealed o) (writes : m.heap.Unhooked o "hook_set" n)
    (deletes : m.heap.Unhooked o "hook_del" n) (v : Ref) :
    Composes due k m o n v ∧
    (∀ k' m' p s, (getMember k' p s).runUnder due m' = (find p s >>= Finding.settle k').runUnder due m') ∧
    ∀ p, m.heap.Sealed p → ∀ s value, ∃ c : Cause,
      (setMember k p s value).runUnder due m = .error (.raised (.ofCause c)) m ∧
        (deleteMember k p s).runUnder due m = .error (.raised (.ofCause c)) m := by
  have w := (Machine.orderly_of_mem_passage reachable).objects
  have made := Machine.typesMade_of_mem_passage reachable
  have payload : m.heap.payload? o = some obj.payload := by rw [Heap.payload?, live]; rfl
  have noView : ∀ target cls, obj.payload ≠ .baseView target cls :=
    fun target cls view => free (.view (view ▸ payload))
  have live' := (m.heap.object?_setMember o n v o).trans (if_pos rfl)
  rw [live, Option.map_some] at live'
  have free' : ¬ (m.heap.setMember o n v).Sealed o := fun sealed => free sealed.of_setMember
  refine ⟨?_, runUnder_getMember due, fun p sealed s value => ?_⟩
  · constructor
    · exact does_setMember due k live free writes v m rfl
    · intro k'
      have own : (m.heap.setMember o n v).ownMember? o n = some v :=
        (Heap.ownMember?_setMember live o n).trans (if_pos ⟨rfl, rfl⟩)
      exact does_getMember_own due k' live' free' own _ rfl
    · intro s other
      exact (Heap.ownMember?_setMember live o s).trans (if_neg fun both => other both.2)
    · exact ⟨m.heap.payload?_setMember o n v o, m.heap.typeOf_setMember o n v o⟩
    · intro p other
      exact (m.heap.object?_setMember o n v p).trans (if_neg other.symm)
    · intro p s apart
      refine ⟨(Undisturbed.find w made live noView apart).runUnder_written, ?_⟩
      have searched : (m.written o n v).heap.searched p = m.heap.searched p := m.heap.searched_setMember o n v p
      rw [searched]
      exact Heap.memberIn?_setMember live (apart.imp_right And.left)
    · intro absent
      have own : (m.heap.setMember o n v).ownMember? o n = some v :=
        (Heap.ownMember?_setMember live o n).trans (if_pos ⟨rfl, rfl⟩)
      have removed := does_deleteMember due k live' free' (deletes.setMember live rfl) own (m.written o n v) rfl
      rw [Heap.erase_setMember live absent] at removed
      exact removed
    · intro absent
      exact ⟨_, rfl, does_deleteMember_of_absent due k live free deletes absent m rfl⟩
  · obtain ⟨c, refused⟩ := does_checkTarget_of_sealed due sealed s
    exact ⟨c, refused.bind_of_error m rfl, refused.bind_of_error m rfl⟩

/-- A program with an object whose Type has a function. -/
def inheritsFunction : Code :=
  assemble
    [.typeDef "A" 0 [], .define "A", .get "A",
      .function "who" [⟨"self", false, false, none⟩] false [.op .pushNull, .op .returnValue], .op (.setMember "who"),
      .get "A", .op (.call 0), .define "a"]

/-- The object is given a member that hides the function: it is read as it is, and when it is removed all is as
before. -/
theorem member_edits_compose_hiding :
    let m := (Machine.boot .unlimited .silent).afterSession [.request .discarding (.run inheritsFunction)]
    ∃ a A : Ref, m.getGlobal? "a" = some a ∧ m.getGlobal? "A" = some A ∧
      (m.heap.memberIn? (m.heap.searched a) "who").isSome ∧
      (setMember (reentry 1) a "who" A).run m = .ok () (m.written a "who" A) ∧
      (getMember (reentry 1) a "who").run (m.written a "who" A) = .ok A (m.written a "who" A) ∧
      (deleteMember (reentry 1) a "who").run (m.written a "who" A) = .ok () m := by
  intro m
  have reachable : m.heap ∈ (Machine.boot .unlimited .silent).passage [.request .discarding (.run inheritsFunction)] :=
    (Machine.boot .unlimited .silent).heap_afterSession_mem_passage _
  obtain ⟨a, A, inherits, plain, absent, writes, deletes⟩ :
      m.getGlobal? "a" = some ⟨144⟩ ∧ m.getGlobal? "A" = some ⟨142⟩ ∧
      (m.heap.memberIn? (m.heap.searched ⟨144⟩) "who").isSome ∧ m.heap.payload? ⟨144⟩ = some .plain ∧
      m.heap.ownMember? ⟨144⟩ "who" = none ∧
      (m.heap.hook? ⟨144⟩ "hook_set_who" = none ∧ m.heap.hook? ⟨144⟩ "hook_set" = none) ∧
      (m.heap.hook? ⟨144⟩ "hook_del_who" = none ∧ m.heap.hook? ⟨144⟩ "hook_del" = none) := by
    decide +kernel
  clear_value m
  obtain ⟨o, live, -⟩ := Option.map_eq_some_iff.mp plain
  have free : ¬ m.heap.Sealed ⟨144⟩ := by
    rintro (null | view)
    · cases null
    · rw [plain] at view
      cases view
  have writable : m.heap.Unhooked ⟨144⟩ "hook_set" "who" := fun _ => writes
  have removable : m.heap.Unhooked ⟨144⟩ "hook_del" "who" := fun _ => deletes
  obtain ⟨composes, -, -⟩ :=
    member_edits_compose reachable Heap.collectionDue (reentry 1) live free writable removable ⟨142⟩
  exact ⟨⟨144⟩, ⟨142⟩, a, A, inherits, composes.written, composes.read _, composes.restored absent⟩

end Engine

end ObjectMachine
