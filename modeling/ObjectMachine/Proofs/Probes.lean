import ObjectMachine.Proofs.Answering
/-!
Asking whether an object has a member. The question goes through the members that a lookup without hooks goes through,
and runs nothing. What is found is not bound to the object either, unless it is found through a view: a view binds the
functions that it finds even then, so it can be refused, or take an object.
-/
namespace ObjectMachine

namespace Heap

variable {h : Heap} {r : Ref} {o : Object} {name : String} {info : TypeInfo}

/-- Whose own members an object has besides its own, in order: those of the ancestors of its Type; a Type has those of
the Types that only its metatype has as ancestors, and then those of its own ancestors. -/
def inherited (h : Heap) (r : Ref) : List Ref :=
  match h.payload? r with
  | some (.type info) =>
    ((h.mro (h.typeOf r)).filter fun t => !(h.mro r).contains t && t != r) ++ info.mro.tail.filter fun t => t != r
  | _ => h.mro (h.typeOf r)

/-- Whose own members are searched for one of an object, in order, when no hooks run. A view searches the ancestors
behind a Type, and `null` has no members. -/
def searched (h : Heap) (r : Ref) : List Ref :=
  if r = .null then []
  else
    match h.payload? r with
    | some (.baseView target cls) => Lineage.after cls (h.mro (h.typeOf target))
    | _ => r :: h.inherited r

/-- An object is a view, and a function is found for a name behind the Type of the view. -/
inductive ViewBinds (h : Heap) (r : Ref) (name : String) (target : Ref) (f : Function) : Prop where
  /-- The view looks for its target. -/
  | intro {cls value : Ref} (view : h.payload? r = some (.baseView target cls))
    (found : h.memberIn? (h.searched r) name = some value) (function : h.payload? value = some (.function f))

theorem memberIn?_append (chain later : List Ref) :
    h.memberIn? (chain ++ later) name = (h.memberIn? chain name).or (h.memberIn? later name) :=
  List.findSome?_append

/-- A Type has the members that its metatype adds first, and then those of its ancestors. -/
theorem memberIn?_inherited_of_type (found : h.payload? r = some (.type info)) :
    h.memberIn? (h.inherited r) name =
      (h.memberIn? ((h.mro (h.typeOf r)).filter fun t => !(h.mro r).contains t && t != r) name).or
        (h.memberIn? (info.mro.tail.filter fun t => t != r) name) := by
  rw [inherited, found]
  exact memberIn?_append _ _

theorem inherited_of_not_type (live : h.object? r = some o) (other : ∀ info, o.payload ≠ .type info) :
    h.inherited r = h.mro o.typeRef := by
  have payload : h.payload? r = some o.payload := by rw [payload?, live]; rfl
  have typeOf : h.typeOf r = o.typeRef := by rw [Heap.typeOf, live]; rfl
  rw [inherited, payload, typeOf]
  split
  · rename_i info same
    exact absurd (Option.some.inj same) (other info)
  · rfl

/-- Other objects search their own members first. -/
theorem memberIn?_searched (live : h.object? r = some o) (notNull : r ≠ .null)
    (noView : ∀ target cls, o.payload ≠ .baseView target cls) :
    h.memberIn? (h.searched r) name = (o.members.get? name).or (h.memberIn? (h.inherited r) name) := by
  have payload : h.payload? r = some o.payload := by rw [payload?, live]; rfl
  have own : h.ownMember? r name = o.members.get? name := by rw [ownMember?, live]; rfl
  have chain : h.searched r = r :: h.inherited r := by
    rw [searched, if_neg notNull, payload]
    split
    · rename_i target cls same
      exact absurd (Option.some.inj same) (noView target cls)
    · rfl
  rw [chain, memberIn?, List.findSome?_cons, own]
  cases o.members.get? name <;> rfl

theorem searched_of_view {target cls : Ref} (notNull : r ≠ .null) (view : h.payload? r = some (.baseView target cls)) :
    h.searched r = Lineage.after cls (h.mro (h.typeOf target)) := by
  rw [searched, if_neg notNull, view]

/-- Binds a function to an object, and stores what comes of it. -/
def storedBound (h : Heap) (f : Function) (target : Ref) : Except Interrupt Ref × Heap :=
  match f.bind target with
  | .ok bound => h.stored (.function bound)
  | .error cause => (.error (.raised (.ofCause cause)), h)

end Heap

namespace Engine

variable {due : Schedule} {m : Machine} {k : Reentry} {r : Ref} {o : Object} {name : String}

/-! ### The lookup -/

theorem runUnder_lookupOnMetatype (due : Schedule) (m : Machine) (r : Ref) (name : String) :
    (lookupOnMetatype r name .probe).runUnder due m =
      .ok (m.heap.memberIn?
        ((m.heap.mro (m.heap.typeOf r)).filter fun t => !(m.heap.mro r).contains t && t != r) name) m :=
  rfl

/-- Without hooks, what an object inherits is found and given as it is. -/
theorem runUnder_lookupInherited (live : m.heap.object? r = some o) :
    (lookupInherited r o name .probe).runUnder due m = .ok (m.heap.memberIn? (m.heap.inherited r) name) m := by
  by_cases isType : ∃ info, o.payload = .type info
  · obtain ⟨info, type⟩ := isType
    have payload : m.heap.payload? r = some (.type info) := by rw [Heap.payload?, live, ← type]; rfl
    rw [m.heap.memberIn?_inherited_of_type payload, lookupInherited, type]
    dsimp only
    rw [runUnder_bind, runUnder, runUnder_lookupOnMetatype]
    dsimp only
    -- what the metatype adds hides the rest
    cases m.heap.memberIn?
      ((m.heap.mro (m.heap.typeOf r)).filter fun t => !(m.heap.mro r).contains t && t != r) name with
    | some found => rfl
    | none => rfl
  · have other : ∀ info, o.payload ≠ .type info := fun info type => isType ⟨info, type⟩
    rw [m.heap.inherited_of_not_type live other, lookupInherited]
    split
    · rename_i info type
      exact absurd type (other info)
    · rfl

/-- Without hooks, a member of an object that is no view is found and given as it is. -/
theorem runUnder_lookupMember (live : m.heap.object? r = some o) (notNull : r ≠ .null)
    (noView : ∀ target cls, o.payload ≠ .baseView target cls) :
    (lookupMember k r name .probe).runUnder due m = .ok (m.heap.memberIn? (m.heap.searched r) name) m := by
  rw [m.heap.memberIn?_searched live notNull noView, lookupMember, runUnder_bind, runUnder_load live]
  dsimp only
  split
  · rename_i target cls view
    exact absurd view (noView target cls)
  · cases o.members.get? name with
    | some value => rfl
    | none =>
      have rest : (lookupInherited r o name .probe).runUnder due m = _ := runUnder_lookupInherited live
      have noHooks : (Access.probe == .full && !isHookName name) = false := rfl
      dsimp only
      rw [noHooks]
      simp only [Bool.false_eq_true, if_false, runUnder_bind, runUnder_pure, rest]
      cases m.heap.memberIn? (m.heap.inherited r) name <;> rfl

/-- A view binds what it finds to its target. -/
theorem runUnder_lookupMember_of_view {target cls : Ref} (notNull : r ≠ .null)
    (view : m.heap.payload? r = some (.baseView target cls)) (access : Access) :
    (lookupMember k r name access).runUnder due m =
      (bindFound (m.heap.memberIn? (m.heap.searched r) name) target).runUnder due m := by
  obtain ⟨o, live, data⟩ := Option.map_eq_some_iff.mp view
  rw [m.heap.searched_of_view notNull view, lookupMember, runUnder_bind, runUnder_load live]
  dsimp only
  rw [data]
  rfl

/-! ### The question -/

variable {h : Heap} {s : String} {nameRef target : Ref} {g : Function}

theorem does_memberName (due : Schedule) (named : h.str? nameRef = some s) :
    Does due (memberName nameRef) h (.ok s, h) :=
  (does_payload due (Heap.str?_eq_some_iff.mp named)).bind (does_pure due s h)

/-- A value that is no function is given as a view finds it. -/
theorem does_bindFound_of_value {value : Ref} {p : Payload} (due : Schedule) (target : Ref)
    (holds : h.payload? value = some p) (other : ∀ f, p ≠ .function f) :
    Does due (bindFound (some value) target) h (.ok (some value), h) := by
  have unbound : Does due (bindValue value target) h (.ok value, h) := by
    refine (does_payload due holds).bind ?_
    split
    · rename_i f
      exact absurd rfl (other f)
    · exact does_pure due value h
  exact unbound.bind (does_pure due (some value) h)

/-- A function is bound as a view finds it. -/
theorem does_bindFound_of_function {value : Ref} (due : Schedule) (target : Ref)
    (function : h.payload? value = some (.function g)) :
    Does due (bindFound (some value) target) h
      ((h.storedBound g target).1.map some, (h.storedBound g target).2) := by
  have bound : Does due (bindValue value target) h (h.storedBound g target) := by
    refine (does_payload due function).bind ?_
    rw [Heap.storedBound]
    dsimp only
    cases g.bind target with
    | ok bound => exact does_new due (.function bound) h
    | error cause => exact does_raise due cause h
  exact bound.map some

/-- Unless a view finds a function, the answer is whether a member is found, and the heap is as it was. -/
theorem does_hasMember_of_not_binds (due : Schedule) (live : h.object? r = some o) (named : h.str? nameRef = some s)
    (holds : ∀ value, h.memberIn? (h.searched r) s = some value → ∃ p, h.payload? value = some p)
    (free : ∀ target f, ¬ h.ViewBinds r s target f) :
    Does due (runNative k (.global .hasMember) [r, nameRef]) h
      (.ok (.ofBool (h.memberIn? (h.searched r) s).isSome), h) := by
  refine (does_memberName due named).bind ?_
  by_cases isNull : r = .null
  · subst isNull
    exact does_pure due Ref.no h
  rw [if_neg isNull]
  have looked : Does due (lookupMember k r s .probe) h (.ok (h.memberIn? (h.searched r) s), h) := by
    by_cases isView : ∃ target cls, o.payload = .baseView target cls
    · obtain ⟨target, cls, data⟩ := isView
      have view : h.payload? r = some (.baseView target cls) := by rw [Heap.payload?, live, ← data]; rfl
      have binds : Does due (bindFound (h.memberIn? (h.searched r) s) target) h
          (.ok (h.memberIn? (h.searched r) s), h) := by
        cases found : h.memberIn? (h.searched r) s with
        | none => exact does_pure due none h
        | some value =>
          obtain ⟨p, payload⟩ := holds value found
          have other : ∀ f, p ≠ .function f := fun f function => free target f ⟨view, found, function ▸ payload⟩
          exact does_bindFound_of_value due target payload other
      rintro m rfl
      rw [runUnder_lookupMember_of_view isNull view]
      exact binds m rfl
    · have noView : ∀ target cls, o.payload ≠ .baseView target cls := fun target cls view => isView ⟨target, cls, view⟩
      rintro m rfl
      exact runUnder_lookupMember live isNull noView
  exact looked.bind (does_pure due _ h)

/-- If a view finds a function, it is bound. -/
theorem does_hasMember_of_binds (due : Schedule) (named : h.str? nameRef = some s) (binds : h.ViewBinds r s target g) :
    Does due (runNative k (.global .hasMember) [r, nameRef]) h
      ((h.storedBound g target).1.map fun _ => .yes, (h.storedBound g target).2) := by
  obtain ⟨view, found, function⟩ := binds
  have notNull : r ≠ .null := by
    rintro rfl
    rw [Heap.searched, if_pos rfl] at found
    cases found
  have looked : Does due (lookupMember k r s .probe) h
      ((h.storedBound g target).1.map some, (h.storedBound g target).2) := by
    rintro m rfl
    rw [runUnder_lookupMember_of_view notNull view, found]
    exact does_bindFound_of_function due target function m rfl
  refine (does_memberName due named).bind ?_
  rw [if_neg notNull]
  have answered := looked.map fun found => Ref.ofBool found.isSome
  generalize h.storedBound g target = bound at answered ⊢
  obtain ⟨result, h'⟩ := bound
  cases result <;> exact answered

/-- An object that was stored is counted. -/
theorem sinceCollection_of_stored {p : Payload} {copy : Ref} {h' : Heap} (stored : h.stored p = (.ok copy, h')) :
    h'.sinceCollection = h.sinceCollection + 1 := by
  obtain ⟨objects, scopes, budget, since⟩ := h
  rw [Heap.stored, Heap.allocate, Heap.book] at stored
  cases booked : budget.allocate with
  | ok budget' =>
    rw [booked] at stored
    cases stored
    rfl
  | error exhausted =>
    rw [booked] at stored
    cases stored

/-- So a function cannot be bound for nothing. -/
theorem storedBound_ne (h : Heap) (g : Function) (target copy : Ref) : h.storedBound g target ≠ (.ok copy, h) := by
  intro same
  rw [Heap.storedBound] at same
  cases binds : g.bind target with
  | error cause =>
    rw [binds] at same
    cases same
  | ok bound =>
    rw [binds] at same
    exact Nat.succ_ne_self _ (sinceCollection_of_stored same).symm

/-! ### The call -/

variable {callee : Ref} {args : List Ref} {f : Function} {n : Nat}

/-- A call that asks whether an object has a member is refused where calls are nested too deeply. Otherwise the answer
is whether a lookup without hooks finds one, and besides the two events of the call all is as it was, just if the object
is no view that finds a function. Such a view binds the function: that may be refused, and takes an object if it is
not. Nothing else is run in any case. -/
theorem probe_pure_iff (due : Schedule) (n : Nat) (body : f.body = .native (.global .hasMember))
    (prepared : m.heap.prepare callee args = .ok (some ⟨f, ⟨[r, nameRef], none⟩⟩))
    (live : m.heap.object? r = some o) (named : m.heap.str? nameRef = some s)
    (holds : ∀ value, m.heap.memberIn? (m.heap.searched r) s = some value → ∃ p, m.heap.payload? value = some p) :
    let asked := ((reentry (n + 2)).call callee args).runUnder due m
    (∀ exhausted, m.enter = .error exhausted → asked = .error (.ofExhaustion exhausted) m) ∧
    ∀ inner, m.enter = .ok inner →
      (asked = .ok (.ofBool (m.heap.memberIn? (m.heap.searched r) s).isSome) (m.answered f.name) ↔
        ∀ target g, ¬ m.heap.ViewBinds r s target g) ∧
      ∀ target g, m.heap.ViewBinds r s target g →
        asked = m.called f.name [r, nameRef]
          ((m.heap.storedBound g target).1.map fun _ => .yes, (m.heap.storedBound g target).2) := by
  intro asked
  have ran {done : Except Interrupt Ref × Heap}
      (does : Does due (runNative (reentry n) (.global .hasMember) [r, nameRef]) m.heap done) :
      asked = m.called f.name [r, nameRef] done :=
    runUnder_call_of_does body prepared does
  have binding : ∀ target g, m.heap.ViewBinds r s target g →
      asked = m.called f.name [r, nameRef]
        ((m.heap.storedBound g target).1.map fun _ => .yes, (m.heap.storedBound g target).2) :=
    fun target g binds => ran (does_hasMember_of_binds due named binds)
  have pure (free : ∀ target g, ¬ m.heap.ViewBinds r s target g) :
      asked = m.called f.name [r, nameRef] (.ok (.ofBool (m.heap.memberIn? (m.heap.searched r) s).isSome), m.heap) :=
    ran (does_hasMember_of_not_binds due live named holds free)
  refine ⟨fun exhausted refused => ?_, fun inner entered => ⟨⟨fun is target g binds => ?_, fun free => ?_⟩, binding⟩⟩
  · by_cases free : ∀ target g, ¬ m.heap.ViewBinds r s target g
    · rw [pure free, Machine.called, refused]
    · obtain ⟨target, g, binds⟩ : ∃ target g, m.heap.ViewBinds r s target g := by
        push Not at free
        exact free
      rw [binding target g binds, Machine.called, refused]
  · -- what is stored for the view shows in the heap
    rw [binding target g binds] at is
    obtain ⟨-, value, machine⟩ := Machine.ok_of_called is
    have heap : (m.heap.storedBound g target).2 = m.heap := (congrArg Machine.heap machine).symm
    cases result : (m.heap.storedBound g target).1 with
    | error e =>
      rw [result] at value
      cases value
    | ok copy => exact storedBound_ne m.heap g target copy (Prod.ext result heap)
  · rw [pure free, Machine.called_of_enter entered]
    rfl

/-- A program with an object whose Type inherits a function without parameters, and a view of the object. -/
def inheritsUnbindable : Code :=
  assemble
    [.typeDef "A" 0 [], .define "A", .get "A", .function "f" [] false [.op .pushNull, .op .returnValue],
      .op (.setMember "f"), .get "A", .typeDef "B" 1 [], .define "B", .get "B", .op (.call 0), .define "b",
      .get "base", .get "B", .get "b", .op (.call 2), .define "v", .str "f", .define "s"]

/-- Whether the object has the function is answered, and besides the two events of the call all is as it was. -/
theorem probe_pure_unbindable :
    let m := (Machine.boot .unlimited .silent).afterSession [.request .discarding (.run inheritsUnbindable)]
    ∃ probe object name : Ref, m.getGlobal? "hasmember" = some probe ∧ m.getGlobal? "b" = some object ∧
      m.getGlobal? "s" = some name ∧
      ((reentry 2).call probe [object, name]).run m = .ok .yes (m.answered "hasmember") := by
  intro m
  let f : Function :=
    { name := "hasmember"
      signature := ⟨[⟨"value", none, none, false⟩, ⟨"name", some Kind.string.ref, none, false⟩]⟩
      body := .native (.global .hasMember)
      bound := [] }
  obtain ⟨probe, object, name, function, matched, plain, text, member, shallow⟩ :
      m.getGlobal? "hasmember" = some ⟨141⟩ ∧ m.getGlobal? "b" = some ⟨145⟩ ∧ m.getGlobal? "s" = some ⟨147⟩ ∧
      m.heap.payload? ⟨141⟩ = some (.function f) ∧
      (f.signature.matchArgs m.heap.isInstance (f.bound ++ [⟨145⟩, ⟨147⟩]) f.bound.length).toOption =
        some ⟨[⟨145⟩, ⟨147⟩], none⟩ ∧
      m.heap.payload? ⟨145⟩ = some .plain ∧ m.heap.str? ⟨147⟩ = some "f" ∧
      ((m.heap.memberIn? (m.heap.searched ⟨145⟩) "f").bind m.heap.payload?).isSome ∧ m.CanNest 1 := by
    decide +kernel
  clear_value m
  obtain ⟨o, live, -⟩ := Option.map_eq_some_iff.mp plain
  obtain ⟨inner, entered, -⟩ := shallow.exists_enter
  have prepared : m.heap.prepare ⟨141⟩ [⟨145⟩, ⟨147⟩] = .ok (some ⟨f, ⟨[⟨145⟩, ⟨147⟩], none⟩⟩) := by
    rw [m.heap.prepare_function function]
    cases fits : f.signature.matchArgs m.heap.isInstance (f.bound ++ [⟨145⟩, ⟨147⟩]) f.bound.length with
    | error mismatch =>
      rw [fits] at matched
      cases matched
    | ok args =>
      rw [fits] at matched
      cases matched
      rfl
  have holds : ∀ value, m.heap.memberIn? (m.heap.searched ⟨145⟩) "f" = some value →
      ∃ p, m.heap.payload? value = some p := by
    intro value found
    rw [found] at member
    exact Option.isSome_iff_exists.mp member
  have free : ∀ target g, ¬ m.heap.ViewBinds ⟨145⟩ "f" target g := by
    rintro target g ⟨view, -, -⟩
    rw [plain] at view
    cases view
  have pure := ((probe_pure_iff Heap.collectionDue 0 rfl prepared live text holds).2 inner entered).1.mpr free
  obtain ⟨value, found⟩ := Option.isSome_iff_exists.mp (Option.isSome_of_isSome_bind member)
  rw [found] at pure
  exact ⟨⟨141⟩, ⟨145⟩, ⟨147⟩, probe, object, name, pure⟩

/-- What the call of a value reports that raises an error. -/
def refusal? (m : Machine) (callee : Ref) (args : List Ref) : Option (String × String) :=
  match m.call .discarding callee args with
  | (.error (.reported report), _) => some (report.typeName, report.message)
  | _ => none

/-- The view finds the function as well, but the question raises an error. -/
theorem probe_refused_through_view :
    let m := (Machine.boot .unlimited .silent).afterSession [.request .discarding (.run inheritsUnbindable)]
    ∃ probe view name : Ref, m.getGlobal? "hasmember" = some probe ∧ m.getGlobal? "v" = some view ∧
      m.getGlobal? "s" = some name ∧ m.heap.str? name = some "f" ∧
      (m.heap.memberIn? (m.heap.searched view) "f").isSome ∧
      refusal? m probe [view, name] = some ("ArgumentError", "cannot bind 'f': it takes no parameters") := by
  refine ⟨⟨141⟩, ⟨146⟩, ⟨147⟩, ?_⟩
  decide +kernel

end Engine

end ObjectMachine
