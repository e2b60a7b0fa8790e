import ObjectMachine.Proofs.ReportedKinds
import ObjectMachine.Proofs.Unwinding
/-!
Errors that are caught with a binding and thrown again. Binding gives an error an object, the same one each
time, and throwing the object gives the error that it shows. The calls and the causes of an error are what
its object remembers of them; objects that hold other data remember nothing.
-/
namespace ObjectMachine

/-- The Type of errors with a handle, as a built-in kind if it is that of one. -/
def ErrorType.ofRef (r : Ref) : ErrorType :=
  match ErrorKind.ofRef? r with
  | some kind => .builtin kind
  | none => .custom r

theorem ErrorType.ofRef_ref (kind : ErrorKind) : ofRef kind.ref = .builtin kind := by
  rw [ofRef, ErrorKind.ofRef?_eq_some_iff.mpr rfl]

namespace Payload

/-- The calls and causes that data remembers. -/
def flight : Payload → List Layer × List ErrorBody
  | error trace causes => (trace, causes)
  | _ => ([], [])

/-- Whether data remembers the flight of an error. -/
def remembers : Payload → Bool
  | error .. => true
  | _ => false

/-- Whether data is a text. -/
def isText : Payload → Bool
  | str _ => true
  | _ => false

end Payload

namespace Heap

variable {h h' : Heap} {r : Ref} {e : Raised}

/-- The text that an object shows as its message. -/
def messageOf (h : Heap) (o : Object) : String := ((o.members.get? "message").bind h.str?).getD ""

/-- The error that an object is when it is thrown, if it can be thrown as it is. -/
def thrown? (h : Heap) (r : Ref) : Option Raised :=
  (h.object? r).bind fun o =>
    if o.payload.isText ∨ ¬ h.isSubtype o.typeRef ErrorKind.error.ref then none
    else some
      { type := .ofRef o.typeRef, message := h.messageOf o, value := some r
        trace := o.payload.flight.1, payload := [], causes := o.payload.flight.2 }

theorem thrown?_eq_some_iff :
    h.thrown? r = some e ↔ ∃ o, h.object? r = some o ∧ o.payload.isText = false ∧
      h.isSubtype o.typeRef ErrorKind.error.ref ∧
      e = { type := .ofRef o.typeRef, message := h.messageOf o, value := some r
            trace := o.payload.flight.1, payload := [], causes := o.payload.flight.2 } := by
  simp only [thrown?, Option.bind_eq_some_iff]
  refine exists_congr fun o => and_congr_right fun _ => ?_
  cases text : o.payload.isText <;> cases sub : h.isSubtype o.typeRef ErrorKind.error.ref <;>
    simp [eq_comm]

end Heap

namespace Engine

variable {m m₁ m' : Machine} {r : Ref} {e : Raised} {due : Schedule}

/-- To throw an error object gives the error that it is, and leaves the machine as it is. -/
theorem runUnder_thrown (error : m.heap.thrown? r = some e) : (thrown r).runUnder due m = .ok e m := by
  obtain ⟨o, found, noText, sub, rfl⟩ := Heap.thrown?_eq_some_iff.mp error
  have typeOf : m.heap.typeOf r = o.typeRef := by
    simp only [Heap.typeOf, found, Option.map_some, Option.getD_some]
  have payload : m.heap.payload? r = some o.payload := by
    rw [Heap.payload?, found, Option.map_some]
  rw [thrown, runUnder_bind, runUnder_payload, payload]
  dsimp only
  split
  · rename_i s text
    rw [text] at noText
    cases noText
  · simp only [runUnder_bind, runUnder_pure, runUnder_ask, typeOf, sub, Bool.not_true, Bool.false_eq_true,
      ↓reduceIte, runUnder_load found]
    rfl

end Engine

/-! ### Storing -/

namespace Heap

variable {h h' h'' : Heap} {r : Ref}

theorem str?_eq_some_iff {s : String} : h.str? r = some s ↔ h.payload? r = some (.str s) := by
  simp only [str?]
  cases h.payload? r with
  | none => simp
  | some p => cases p <;> simp

/-- The second heap has new objects, and all objects of the first one as they were. -/
structure Adds (h h' : Heap) : Prop where
  /-- New objects get vacant slots. -/
  wellFormed : h'.objects.WellFormed
  /-- All objects are as they were. -/
  kept : ∀ r o, h.object? r = some o → h'.object? r = some o

namespace Adds

theorem refl (w : h.objects.WellFormed) : h.Adds h := ⟨w, fun _ _ => id⟩

theorem trans (first : h.Adds h') (later : h'.Adds h'') : h.Adds h'' :=
  ⟨later.wellFormed, fun r o found => later.kept r o (first.kept r o found)⟩

theorem of_stores {o : Object} (stores : h.Stores r o h') : h.Adds h' := by
  refine ⟨stores.wellFormed, fun r' o' found => ?_⟩
  have other : r' ≠ r := by
    rintro rfl
    rw [stores.vacant] at found
    cases found
  rw [stores.object?, if_neg other, found]

/-- A change of a new object leaves the others as they were. -/
theorem modify (adds : h.Adds h') (new : h.object? r = none) (f : Object → Object) :
    h.Adds (h'.modify r f) := by
  refine ⟨adds.wellFormed.modify _ _, fun r' o found => ?_⟩
  have other : r ≠ r' := by
    rintro rfl
    rw [new] at found
    cases found
  rw [object?_modify, if_neg other, adds.kept r' o found]

theorem payload? {p : Payload} (adds : h.Adds h') (found : h.payload? r = some p) :
    h'.payload? r = some p := by
  obtain ⟨o, at_r, rfl⟩ := Option.map_eq_some_iff.mp found
  rw [Heap.payload?, adds.kept r o at_r, Option.map_some]

theorem str? {s : String} (adds : h.Adds h') (shows : h.str? r = some s) : h'.str? r = some s :=
  str?_eq_some_iff.mpr (adds.payload? (str?_eq_some_iff.mp shows))

theorem builtinsStand (adds : h.Adds h') (stand : h.BuiltinsStand) : h'.BuiltinsStand := by
  intro r mem
  obtain ⟨info, atStart⟩ := isSome_boot_typeInfo? mem
  have found := typeInfo?_eq_some_iff.mp ((stand r mem).trans atStart)
  rw [atStart, typeInfo?_eq_some_iff, adds.payload? found]

end Adds

theorem onPayload_eq_str_iff (c : Change) (p : Payload) (s : String) :
    c.onPayload p = .str s ↔ p = .str s := by
  cases c <;> cases p <;> simp [Change.onPayload]

/-- A change makes no text and changes no text. -/
theorem str?_modify (h : Heap) (r : Ref) (c : Change) (t : Ref) :
    (h.modify r c.apply).str? t = h.str? t := by
  ext s
  rw [str?_eq_some_iff, str?_eq_some_iff, payload?_modify]
  split
  · simp only [Option.map_eq_some_iff, onPayload_eq_str_iff, exists_eq_right]
  · rfl

end Heap

theorem Table.get?_foldl_insert {κ ν : Type} [DecidableEq κ] {k : κ} (t : Table κ ν)
    {pairs : List (κ × ν)} (other : ∀ p ∈ pairs, p.1 ≠ k) :
    (pairs.foldl (fun t p => t.insert p.1 p.2) t).get? k = t.get? k := by
  induction pairs generalizing t with
  | nil => rfl
  | cons p later ih =>
    obtain ⟨first, rest⟩ := List.forall_mem_cons.mp other
    rw [List.foldl_cons, ih _ rest, get?_insert, if_neg first]

namespace Engine

variable {m m' : Machine} {r text : Ref} {e : ErrorBody} {due : Schedule}

theorem stores_of_store {o : Object} (w : m.heap.objects.WellFormed)
    (run : (act (.store o)).runUnder due m = .ok r m') : m.heap.Stores r o m'.heap := by
  simp only [runUnder, Op.perform, Op.onHeap] at run
  split at run
  · rename_i stored
    cases run
    exact Heap.stores_of_allocate w stored
  · cases run

theorem heap_of_change {c : Change} (run : (change r c).runUnder due m = .ok () m') :
    m'.heap = m.heap.modify r c.apply := by
  simp only [change, runUnder, Op.perform] at run
  split at run
  · cases run
    rfl
  · cases run

/-- A new error object remembers the flight of the error; its message is stored behind it. -/
theorem newErrorObject_ok {causes : List ErrorBody} (w : m.heap.objects.WellFormed)
    (run : (newErrorObject e causes).runUnder due m = .ok (r, text) m') :
    m.heap.Adds m'.heap ∧ m.heap.object? r = none ∧
      m'.heap.object? r = some (.ofPayload (.error e.trace causes) (some e.typeRef)) ∧
      m'.heap.str? text = some e.message := by
  obtain ⟨object, m₁, stored, run⟩ := ok_of_bind run
  obtain ⟨message, m₂, stored', run⟩ := ok_of_bind run
  cases run
  have first := stores_of_store w stored
  have second := stores_of_store first.wellFormed stored'
  have here : m₁.heap.object? r = some (.ofPayload (.error e.trace causes) (some e.typeRef)) := by
    rw [first.object?, if_pos rfl]
  have added := Heap.Adds.of_stores second
  refine ⟨(Heap.Adds.of_stores first).trans added, first.vacant, added.kept r _ here, ?_⟩
  rw [Heap.str?_eq_some_iff, Heap.payload?, second.object?, if_pos rfl]
  rfl

/-- To make the object of an error that has none leaves all objects as they were. -/
theorem adds_of_bodyObject (w : m.heap.objects.WellFormed) (none : e.value = none)
    (run : (bodyObject e).runUnder due m = .ok r m') : m.heap.Adds m'.heap := by
  rw [bodyObject, none] at run
  obtain ⟨⟨object, message⟩, m₁, made, run⟩ := ok_of_bind run
  dsimp only at run
  obtain ⟨⟨⟩, m₂, written, run⟩ := ok_of_bind run
  cases run
  obtain ⟨added, new, -, -⟩ := newErrorObject_ok w made
  rw [heap_of_change written]
  exact added.modify new _

theorem adds_of_bodyObjects {errors : List ErrorBody} {objects : List Ref}
    (w : m.heap.objects.WellFormed) (none : ∀ e ∈ errors, e.value = none)
    (run : (bodyObjects errors).runUnder due m = .ok objects m') : m.heap.Adds m'.heap := by
  induction errors generalizing m objects with
  | nil =>
    cases run
    exact .refl w
  | cons e later ih =>
    obtain ⟨object, m₁, made, run⟩ := ok_of_bind run
    obtain ⟨rest, m₂, madeLater, run⟩ := ok_of_bind run
    cases run
    obtain ⟨here, behind⟩ := List.forall_mem_cons.mp none
    have added := adds_of_bodyObject w here made
    exact added.trans (ih added.wellFormed behind madeLater)

/-- What a new error object shows once its members are written. -/
theorem shown_of_write {h : Heap} {o : Object} {members : List (String × Ref)}
    (here : h.object? r = some o) {message : String} (shows : h.str? text = some message)
    (other : ∀ p ∈ members, p.1 ≠ "message") :
    let h₂ := h.modify r (Change.write (("message", text) :: members)).apply
    ∃ o', h₂.object? r = some o' ∧ o'.typeRef = o.typeRef ∧ o'.payload = o.payload ∧
      h₂.messageOf o' = message := by
  intro h₂
  refine ⟨(Change.write (("message", text) :: members)).apply o, ?_, Heap.typeRef_apply _ _, rfl, ?_⟩
  · rw [Heap.object?_modify, if_pos rfl, here, Option.map_some]
  · have found : ((Change.write (("message", text) :: members)).apply o).members.get? "message" =
        some text := by
      show ((("message", text) :: members).foldl _ o.members).get? "message" = some text
      rw [List.foldl_cons, Table.get?_foldl_insert _ other, Table.get?_insert, if_pos rfl]
    rw [Heap.messageOf, found, Option.bind_some, Heap.str?_modify, shows, Option.getD_some]

end Engine

/-! ### Binding -/

/-- An error as the machine makes it: without an object, and of a built-in kind. -/
structure ErrorBody.Unbound (e : ErrorBody) : Prop where
  /-- It has no object. -/
  value : e.value = none
  /-- Its Type is built in. -/
  builtin : ∃ kind, e.type = .builtin kind
  /-- What its object will show besides the message is named otherwise. -/
  members : ∀ p ∈ e.payload, p.1 ≠ "message"

/-- An error is in step with a heap: it has no object yet, or one that shows its Type and message. -/
inductive Raised.InStep (h : Heap) (e : Raised) : Prop where
  | unbound (own : e.toErrorBody.Unbound) (causes : ∀ c ∈ e.causes, c.value = none)
  | bound (r : Ref) (e' : Raised) (value : e.value = some r) (shown : h.thrown? r = some e')
    (type : e.type = e'.type) (message : e.message = e'.message)

namespace Raised

variable {h : Heap} {e e' : Raised} {r : Ref}

/-- The error once it is bound to an object that remembers its flight. -/
def boundTo (e : Raised) (r : Ref) : Raised := { e with value := some r, payload := [] }

/-- The error without its flight. -/
def grounded (e : Raised) : Raised := { e with trace := [], causes := [] }

theorem inStep_of_isNew (new : Engine.IsNew e) : e.InStep h := by
  rcases new with ⟨cause, rfl⟩ | ⟨refusal, rfl⟩
  · exact .unbound ⟨rfl, ⟨cause.kind, rfl⟩, List.forall_mem_nil _⟩ (List.forall_mem_nil _)
  · exact .unbound ⟨rfl, ⟨refusal.kind, rfl⟩, List.forall_mem_nil _⟩ (List.forall_mem_nil _)

theorem inStep_of_thrown? (error : h.thrown? r = some e) : e.InStep h := by
  have value : e.value = some r := by
    obtain ⟨o, -, -, -, rfl⟩ := Heap.thrown?_eq_some_iff.mp error
    rfl
  exact .bound r e value error rfl rfl

theorem inStep_of_mismatch (h : Heap) (function : String) (mismatch : Mismatch) :
    (h.mismatchError function mismatch).InStep h := by
  cases mismatch with
  | wrongType param expected value =>
    refine .unbound ⟨rfl, ⟨_, rfl⟩, ?_⟩ (List.forall_mem_nil _)
    show ∀ p ∈ [("argument", value), ("expected", expected)], p.1 ≠ "message"
    simp
  | _ => exact inStep_of_isNew (.inl ⟨_, rfl⟩)

/-- Why the Types of operands were passed over has no objects. -/
theorem value_of_choose {name : String} {args types : List Ref} {causes : List ErrorBody}
    (passed : h.choose name args types = .error causes) : ∀ c ∈ causes, c.value = none := by
  induction types generalizing causes with
  | nil =>
    cases passed
    exact List.forall_mem_nil _
  | cons type later ih =>
    have first {cause : ErrorBody} (free : cause.value = none)
        (passed : (h.choose name args later).mapError (cause :: ·) = .error causes) :
        ∀ c ∈ causes, c.value = none := by
      cases chosen : h.choose name args later with
      | ok choice => rw [chosen] at passed; cases passed
      | error rest =>
        rw [chosen] at passed
        cases passed
        exact List.forall_mem_cons.mpr ⟨free, ih chosen⟩
    rw [Heap.choose] at passed
    split at passed
    · exact first rfl passed
    · rename_i method _
      split at passed
      · cases passed
      · cases passed
      · rename_i e refused
        refine first ?_ passed
        rw [Heap.prepare] at refused
        split at refused
        · rename_i f _
          split at refused
          · cases refused
          · rename_i mismatch _
            cases refused
            cases mismatch <;> rfl
        · cases refused

theorem InStep.through (inStep : e.InStep h) (layers : List Layer) : (e.through layers).InStep h := by
  cases inStep with
  | unbound own causes => exact .unbound ⟨own.value, own.builtin, own.members⟩ causes
  | bound r e' value shown type message => exact .bound r e' value shown type message

end Raised

namespace Heap

variable {h : Heap} {r : Ref} {e : Raised}

/-- Whether an object remembers the flight of the error that is bound to it. -/
def remembers (h : Heap) (r : Ref) : Bool := (h.payload? r).any Payload.remembers

theorem BuiltinsStand.modify (stand : h.BuiltinsStand) (r : Ref) (c : Change) :
    (h.modify r c.apply).BuiltinsStand := by
  intro t mem
  rw [typeInfo?_modify]
  exact stand t mem

theorem isSubtype_modify (h : Heap) (r : Ref) (c : Change) (T U : Ref) :
    (h.modify r c.apply).isSubtype T U = h.isSubtype T U := by
  rw [isSubtype, isSubtype, mro_congr (typeInfo?_modify h r c T)]

/-- An object that an error is bound to is the error with its flight, if it remembers it, and without
otherwise. -/
theorem thrown?_flight (shown : h.thrown? r = some e) (trace : List Layer) (causes : List ErrorBody) :
    let h' := h.modify r (Change.flight trace causes).apply
    h'.thrown? r = some (if h'.remembers r then { e with trace, causes } else e.grounded) := by
  intro h'
  obtain ⟨o, at_r, noText, sub, rfl⟩ := thrown?_eq_some_iff.mp shown
  let o' := (Change.flight trace causes).apply o
  have there : h'.object? r = some o' := by
    rw [object?_modify, if_pos rfl, at_r, Option.map_some]
  have sameType : o'.typeRef = o.typeRef := typeRef_apply _ o
  have message : h'.messageOf o' = h.messageOf o := by
    have texts : h'.str? = h.str? := funext fun t => str?_modify h r _ t
    rw [messageOf, messageOf, texts]
    rfl
  have payload : o'.payload = (Change.flight trace causes).onPayload o.payload := rfl
  have remembers : h'.remembers r = o.payload.remembers := by
    rw [Heap.remembers, payload?, there, Option.map_some, payload]
    cases o.payload <;> rfl
  have stillNoText : o'.payload.isText = false := by
    rw [payload, ← noText]
    cases o.payload <;> rfl
  have stillError : h'.isSubtype o'.typeRef ErrorKind.error.ref := by
    rw [isSubtype_modify, sameType]
    exact sub
  refine thrown?_eq_some_iff.mpr ⟨o', there, stillNoText, stillError, ?_⟩
  rw [remembers, sameType, message, payload]
  cases o.payload <;> rfl

end Heap

namespace Engine

variable {m m' : Machine} {r : Ref} {e : Raised} {due : Schedule}

/-- What a new object of an error without one is, when it is thrown. -/
theorem thrown?_of_write {h : Heap} {text : Ref} {members : List (String × Ref)}
    (stand : h.BuiltinsStand) (own : e.toErrorBody.Unbound)
    (here : h.object? r = some (.ofPayload (.error e.trace e.causes) (some e.typeRef)))
    (shows : h.str? text = some e.message) (other : ∀ p ∈ members, p.1 ≠ "message") :
    let h' := h.modify r (Change.write (("message", text) :: members)).apply
    h'.thrown? r = some (e.boundTo r) ∧ h'.remembers r := by
  intro h'
  obtain ⟨kind, type⟩ := own.builtin
  have typeRef : e.typeRef = kind.ref := by rw [ErrorBody.typeRef, type]
  obtain ⟨o, at_r, sameType, payload, message⟩ := shown_of_write here shows other
  have ofType : o.typeRef = kind.ref := sameType.trans typeRef
  have sub : h'.isSubtype o.typeRef ErrorKind.error.ref := by
    rw [ofType, (stand.modify r _).isSubtype_iff, (stand.modify r _).errorKinds_ref]
    exact kind.error_mem_lineage
  constructor
  · refine Heap.thrown?_eq_some_iff.mpr ⟨o, at_r, by rw [payload]; rfl, sub, ?_⟩
    rw [ofType, ErrorType.ofRef_ref, ← type, message, payload]
    rfl
  · rw [Heap.remembers, Heap.payload?, at_r, Option.map_some, payload]
    rfl

/-- An error that is bound has the object that it had, if it had one. Thrown again, it is the same error:
with its flight if the object remembers it, and without otherwise. -/
theorem thrown?_of_errorObject (w : m.heap.objects.WellFormed) (stand : m.heap.BuiltinsStand)
    (inStep : e.InStep m.heap) (run : (errorObject e).runUnder due m = .ok r m') :
    (∀ r', e.value = some r' → r = r') ∧ (e.value = none → m'.heap.remembers r) ∧
      m'.heap.thrown? r =
        some (if m'.heap.remembers r then e.boundTo r else (e.boundTo r).grounded) := by
  rw [errorObject] at run
  cases inStep with
  | bound object e' value shown type message =>
    rw [value] at run
    obtain ⟨⟨⟩, m₁, changed, run⟩ := ok_of_bind run
    cases run
    refine ⟨fun r' same => Option.some_inj.mp (value.symm.trans same), fun none => ?_, ?_⟩
    · rw [value] at none
      cases none
    · obtain ⟨o, -, -, -, isError⟩ := Heap.thrown?_eq_some_iff.mp shown
      have bound : e.boundTo r = { e' with trace := e.trace, causes := e.causes } := by
        simp only [Raised.boundTo, type, message, isError]
      rw [heap_of_change changed, Heap.thrown?_flight shown, bound]
      rfl
  | unbound own causes =>
    rw [own.value] at run
    obtain ⟨⟨object, text⟩, m₁, made, run⟩ := ok_of_bind run
    obtain ⟨added, -, here, shows⟩ := newErrorObject_ok w made
    have finished : m'.heap.thrown? r = some (e.boundTo r) ∧ m'.heap.remembers r := by
      dsimp only at run
      split at run
      · obtain ⟨⟨⟩, m₂, written, run⟩ := ok_of_bind run
        cases run
        rw [heap_of_change written]
        exact thrown?_of_write (added.builtinsStand stand) own here shows own.members
      · obtain ⟨objects, m₂, madeAll, run⟩ := ok_of_bind run
        obtain ⟨list, m₃, stored, run⟩ := ok_of_bind run
        obtain ⟨⟨⟩, m₄, written, run⟩ := ok_of_bind run
        cases run
        have more := adds_of_bodyObjects added.wellFormed causes madeAll
        have all := more.trans (Heap.Adds.of_stores (stores_of_store more.wellFormed stored))
        rw [heap_of_change written]
        have other : ∀ p ∈ e.payload ++ [("causes", list)], p.1 ≠ "message" := by
          refine List.forall_mem_append.mpr ⟨own.members, List.forall_mem_singleton.mpr ?_⟩
          show "causes" ≠ "message"
          decide
        exact thrown?_of_write ((added.trans all).builtinsStand stand) own (all.kept r _ here)
          (all.str? shows) other
    refine ⟨fun r' same => ?_, fun _ => finished.2, ?_⟩
    · rw [own.value] at same
      cases same
    · rw [if_pos finished.2]
      exact finished.1

end Engine

/-! ### Rethrowing -/

/-- An error becomes another one by being caught with a binding and thrown again, any number of times: it is
bound to an object; the object is thrown as the binding left it, or as the program left it without a change
of its Type, message and flight; and it passes through more calls. Listed are the objects and the calls of
each round. `kept` says whether the objects remember the flight. -/
inductive Rethrown (kept : Bool) : Raised → List (Ref × List Layer) → Raised → Prop where
  | never (e : Raised) : Rethrown kept e [] e
  | again {e e₁ e' : Raised} {r : Ref} {due due' : Schedule} {m m₁ m₂ m₃ : Machine} {layers : List Layer}
    {later : List (Ref × List Layer)} (wellFormed : m.heap.objects.WellFormed)
    (stand : m.heap.BuiltinsStand) (inStep : e.InStep m.heap)
    (binds : (Engine.errorObject e).runUnder due m = .ok r m₁) (remembers : m₁.heap.remembers r = kept)
    (same : m₂.heap.thrown? r = m₁.heap.thrown? r)
    (throws : (Engine.thrown r).runUnder due' m₂ = .ok e₁ m₃)
    (rest : Rethrown kept (e₁.through layers) later e') : Rethrown kept e ((r, layers) :: later) e'

namespace Rethrown

variable {kept : Bool} {e e' : Raised} {rounds : List (Ref × List Layer)}

/-- What becomes of an error that is bound, thrown again and passes through calls. -/
theorem round {r : Ref} {due due' : Schedule} {m m₁ m₂ m₃ : Machine} {e₁ : Raised}
    (wellFormed : m.heap.objects.WellFormed)
    (stand : m.heap.BuiltinsStand) (inStep : e.InStep m.heap)
    (binds : (Engine.errorObject e).runUnder due m = .ok r m₁) (remembers : m₁.heap.remembers r = kept)
    (same : m₂.heap.thrown? r = m₁.heap.thrown? r)
    (throws : (Engine.thrown r).runUnder due' m₂ = .ok e₁ m₃) :
    e₁ = if kept then e.boundTo r else (e.boundTo r).grounded := by
  obtain ⟨-, -, shown⟩ := Engine.thrown?_of_errorObject wellFormed stand inStep binds
  rw [remembers, ← same] at shown
  rw [Engine.runUnder_thrown shown] at throws
  exact (EStateM.Result.ok.inj throws).1.symm

/-- It keeps its Type and message. -/
theorem same (rethrown : Rethrown kept e rounds e') : e'.type = e.type ∧ e'.message = e.message := by
  induction rethrown with
  | never e => exact ⟨rfl, rfl⟩
  | again w stand inStep binds remembers same throws rest ih =>
    rw [round w stand inStep binds remembers same throws] at ih
    cases kept <;> exact ih

/-- Every catch binds the object that the first one bound, which is that of the error if it had one. -/
theorem object (rethrown : Rethrown kept e rounds e') :
    (∀ r, e.value = some r → ∀ round ∈ rounds, round.1 = r) ∧ ∃ r, ∀ round ∈ rounds, round.1 = r := by
  induction rethrown with
  | never e => exact ⟨fun _ _ => List.forall_mem_nil _, .null, List.forall_mem_nil _⟩
  | @again e e₁ e' r _ _ _ _ _ _ layers later w stand inStep binds remembers same throws rest ih =>
    have first := (Engine.thrown?_of_errorObject w stand inStep binds).1
    have value : (e₁.through layers).value = some r := by
      rw [round w stand inStep binds remembers same throws]
      cases kept <;> rfl
    have all : ∀ round ∈ (r, layers) :: later, round.1 = r :=
      List.forall_mem_cons.mpr ⟨rfl, ih.1 r value⟩
    refine ⟨fun r' has => ?_, r, all⟩
    rw [← first r' has]
    exact all

/-- With objects that remember, it keeps its causes, and remembers all calls that it passed through. -/
theorem flight_of_kept (rethrown : Rethrown true e rounds e') :
    e'.trace = e.trace ++ rounds.flatMap Prod.snd ∧ e'.causes = e.causes := by
  induction rethrown with
  | never e => simp
  | again w stand inStep binds remembers same throws rest ih =>
    rw [round w stand inStep binds remembers same throws] at ih
    obtain ⟨trace, causes⟩ := ih
    refine ⟨?_, causes⟩
    rw [trace, List.flatMap_cons, ← List.append_assoc]
    rfl

/-- With objects that do not remember, it loses its causes, and the calls that it passed through before it
was thrown for the last time. -/
theorem flight_of_lost (rethrown : Rethrown false e rounds e') (some : rounds ≠ []) :
    e'.trace = (rounds.getLast some).2 ∧ e'.causes = [] := by
  induction rethrown with
  | never e => exact absurd rfl some
  | @again e e₁ e' r _ _ _ _ _ _ layers later w stand inStep binds remembers same throws rest ih =>
    have grounded := round w stand inStep binds remembers same throws
    by_cases last : later = []
    · subst last
      cases rest
      rw [grounded]
      exact ⟨List.nil_append _, rfl⟩
    · rw [List.getLast_cons last]
      exact ih last

/-- An error that has no object yet is bound to one that remembers. -/
theorem kept_of_value (rethrown : Rethrown kept e rounds e') (some : rounds ≠ []) (none : e.value = none) :
    kept = true := by
  cases rethrown with
  | never e => exact absurd rfl some
  | again w stand inStep binds remembers same throws rest =>
    rw [← remembers]
    exact (Engine.thrown?_of_errorObject w stand inStep binds).2.1 none

/-- Exactly if the objects remember, or there was nothing to remember before the error was thrown for the
last time, it keeps its causes and remembers all calls that it passed through. -/
theorem flight_iff (rethrown : Rethrown kept e rounds e') (some : rounds ≠ []) :
    (e'.trace = e.trace ++ rounds.flatMap Prod.snd ∧ e'.causes = e.causes) ↔
      kept = true ∨ (e.trace ++ rounds.dropLast.flatMap Prod.snd = [] ∧ e.causes = []) := by
  cases kept with
  | true => exact iff_of_true rethrown.flight_of_kept (.inl rfl)
  | false =>
    obtain ⟨trace, causes⟩ := rethrown.flight_of_lost some
    have split : rounds.flatMap Prod.snd =
        rounds.dropLast.flatMap Prod.snd ++ (rounds.getLast some).2 := by
      conv_lhs => rw [← List.dropLast_append_getLast some]
      simp
    have noCauses : [] = e.causes ↔ e.causes = [] := eq_comm
    rw [trace, causes, split, ← List.append_assoc, List.self_eq_append_left, noCauses]
    exact (or_iff_right Bool.false_ne_true).symm

end Rethrown

/-! ### Escaped errors -/

/-- A report lists the calls that an error remembers, in order. -/
theorem Raised.trace_of_report? {h : Heap} {e : Raised} {report : Report}
    (reported : e.report? h = some report) :
    report.trace.map ReportLayer.function = e.trace.map Layer.function ∧
      report.trace.map (fun layer => some layer.args) =
        e.trace.map fun layer => layer.args.mapM h.snapshot? := by
  simp only [Raised.report?, ErrorBody.report?, Option.bind_eq_bind, Option.bind_eq_some_iff,
    Option.pure_def, Option.some_inj] at reported
  obtain ⟨body, ⟨trace, layers, rfl⟩, causes, -, rfl⟩ := reported
  show trace.map _ = _ ∧ trace.map _ = _
  clear causes
  generalize e.trace = given at layers ⊢
  induction given generalizing trace with
  | nil =>
    cases layers
    exact ⟨rfl, rfl⟩
  | cons layer later ih =>
    simp only [List.mapM_cons, Option.bind_eq_bind, Option.bind_eq_some_iff, Option.pure_def,
      Option.some_inj, Layer.report?] at layers
    obtain ⟨first, ⟨args, shown, rfl⟩, rest, reported, rfl⟩ := layers
    obtain ⟨functions, arguments⟩ := ih rest reported
    exact ⟨congrArg _ functions, by rw [List.map_cons, List.map_cons, shown, arguments]⟩

namespace Machine

variable {budget : Budget} {tracer : Tracer} {actions : List HostAction}

/-- The traceback of an error that escapes from a request lists what the error passed through since it was
thrown last, and what it had passed through before as far as objects remember it. -/
theorem traceback_survives_iff (budget : Budget) (tracer : Tracer) (actions : List HostAction)
    (printer : Printer) (request : Request) {e : Raised} {m : Machine}
    (escapes : request.Escapes ((boot budget tracer).afterSession actions) printer e m) :
    -- the error arose at some place of the request, and passed through the calls around that place
    (let start := (boot budget tracer).afterSession actions
      ∃ before place after e₀,
        (request.computation start.globals).places Heap.collectionDue [] (start.startRequest printer) =
          before ++ place :: after ∧
        place.moment.interrupt? Heap.collectionDue = some (.raised e₀) ∧
        place.moment.isForgiven = false ∧ (∀ later ∈ after, later.moment.isClosing) ∧
        e = e₀.through place.calls) ∧
    -- a report lists the calls that the error remembers
    (∀ report, e.report? m.heap = some report →
      report.trace.map ReportLayer.function = e.trace.map Layer.function ∧
        report.trace.map (fun layer => some layer.args) =
          e.trace.map fun layer => layer.args.mapM m.heap.snapshot?) ∧
    -- a function is called under its name, with its arguments
    (∀ k native call, ∃ body, Engine.invoke k native call =
      .calling call.function.name (call.args.fixed ++ call.args.rest.getD []) body) ∧
    -- what a generator raises is new, or left its frame and passed through it
    (∀ k generator due m e m',
      (Engine.generatorNext k generator).runUnder due m = .error (.raised e) m' →
        Engine.IsNew e ∨ ∃ name frame inner e₀ m₁,
          (m.heap.payload? generator = some (.generator name (.fresh frame)) ∨
            m.heap.payload? generator = some (.generator name (.suspended frame))) ∧
          (k.runFrame frame).runUnder due inner = .error (.raised e₀) m₁ ∧ e = e₀.through [⟨name, []⟩]) ∧
    -- what a protected block raises is new, or left the frame of a section as it is
    (∀ k f block binding due m e m',
      (Engine.protect k f block binding).runUnder due m = .error (.raised e) m' →
        Engine.IsNew e ∨ Engine.IsOfFrame k e ∨
          ∃ body later, f.parked = ⟨.cleanup, .rethrow e, body⟩ :: later) ∧
    -- what a loop raises is what its iterator raises
    (∀ k iterator sort, (Engine.iterateNext k iterator).Raises sort →
      (∀ f stack tag, f.stack = iterator :: stack → (Engine.execute k f (.iterNext tag)).Raises sort) ∧
        ((∀ taken, (k.drain iterator taken).Raises sort) →
          ∀ taken, (Engine.drain k iterator taken).Raises sort)) ∧
    -- whatever is raised is in step with the heap, wherever it goes
    (∀ (h : Heap) e, (Engine.IsNew e ∨ (∃ r, h.thrown? r = some e) ∨
        (∃ function mismatch, e = h.mismatchError function mismatch) ∨
        ∃ name args types causes cause, h.choose name args types = .error causes ∧
          e = { Raised.ofCause cause with causes }) →
      ∀ layers, (e.through layers).InStep h) ∧
    -- an error that is caught with a binding and thrown again keeps its Type, message and object, and keeps
    -- its causes and calls if the object remembers them
    (∀ kept e rounds e', Rethrown kept e rounds e' → rounds ≠ [] →
      e'.type = e.type ∧ e'.message = e.message ∧
        (∃ r, ∀ round ∈ rounds, round.1 = r) ∧ (∀ r, e.value = some r → ∀ round ∈ rounds, round.1 = r) ∧
        (e.value = none → kept = true) ∧
        ((e'.trace = e.trace ++ rounds.flatMap Prod.snd ∧ e'.causes = e.causes) ↔
          kept = true ∨ (e.trace ++ rounds.dropLast.flatMap Prod.snd = [] ∧ e.causes = []))) := by
  refine ⟨?_, fun report => Raised.trace_of_report?, fun k native call => ⟨_, rfl⟩,
    fun k generator due m e m' => Engine.generatorNext_error,
    fun k f block binding due m e m' => Engine.protect_error, fun k iterator sort items => ⟨?_, ?_⟩, ?_, ?_⟩
  · obtain ⟨before, place, after, i, places, arises, kept, closing, passed⟩ :=
      Engine.arisesIn_places _ [] escapes rfl
    obtain ⟨e₀, rfl, through⟩ := Interrupt.eq_raised_of_through passed
    exact ⟨before, place, after, e₀, places, arises, kept, closing, through⟩
  · exact fun f stack tag top => Engine.raises_iterNext items top tag
  · exact Engine.raises_drain items
  · intro h e origin layers
    rcases origin with new | ⟨r, error⟩ | ⟨function, mismatch, rfl⟩ |
      ⟨name, args, types, causes, cause, passed, rfl⟩
    · exact (Raised.inStep_of_isNew new).through layers
    · exact (Raised.inStep_of_thrown? error).through layers
    · exact (Raised.inStep_of_mismatch h function mismatch).through layers
    · have free := Raised.value_of_choose passed
      exact Raised.InStep.through (.unbound ⟨rfl, ⟨_, rfl⟩, List.forall_mem_nil _⟩ free) layers
  · intro kept e rounds e' rethrown some
    obtain ⟨type, message⟩ := rethrown.same
    obtain ⟨given, one⟩ := rethrown.object
    exact ⟨type, message, one, given, rethrown.kept_of_value some, rethrown.flight_iff some⟩

/-- A program that defines a Type of errors, and calls a function that throws an error of that Type. If
`caught` is set, it catches the error with a binding and throws it again. -/
def throwsFromCall (parents : List String) (caught : Bool) : Code :=
  let calls : List Statement := [.get "f", .int 1, .op (.call 1), .op (.pop 1)]
  assemble (parents.map .get ++ [.typeDef "E" parents.length [], .define "E",
    .function "f" [⟨"n", false, false, none⟩] false [.get "E", .op (.call 0), .op .throwValue],
    .define "f"] ++
    if caught then [.protect (some "e") calls (some [.get "e", .op .throwValue]) none] else calls)

/-- The report of an error that was caught and thrown again lists the function it was thrown in, if it is an
instance of a Type that only refines `Error`. -/
theorem traceback_survives_plain :
    ∃ e m report, (Request.run (throwsFromCall ["Error"] true)).Escapes
        ((boot .unlimited .silent).afterSession []) .discarding e m ∧
      e.report? m.heap = some report ∧ report.trace.map ReportLayer.function = ["f"] := by
  obtain ⟨e, m, report, escapes, reported, here⟩ :=
    exists_escape (.run (throwsFromCall ["Error"] true))
      (fun _ e _ => e.trace.map Layer.function == ["f"]) (by decide +kernel)
  obtain ⟨-, lists, -⟩ := traceback_survives_iff .unlimited .silent [] .discarding _ escapes
  exact ⟨e, m, report, escapes, reported, (lists report reported).1.trans (beq_iff_eq.mp here)⟩

/-- An instance of a Type that refines `list` and `Error` does not remember its flight: uncaught, it is
reported with the function it was thrown in; caught with a binding and thrown again, without. -/
theorem traceback_lost_by_rethrow :
    (∃ e m report, (Request.run (throwsFromCall ["list", "Error"] false)).Escapes
        (boot .unlimited .silent) .discarding e m ∧
      e.report? m.heap = some report ∧ report.trace.map ReportLayer.function = ["f"]) ∧
    ∃ e m report, (Request.run (throwsFromCall ["list", "Error"] true)).Escapes
        (boot .unlimited .silent) .discarding e m ∧
      e.report? m.heap = some report ∧ report.trace.map ReportLayer.function = [] := by
  constructor
  · obtain ⟨e, m, report, escapes, reported, here⟩ :=
      exists_escape (.run (throwsFromCall ["list", "Error"] false))
        (fun _ _ report => report.trace.map ReportLayer.function == ["f"]) (by decide +kernel)
    exact ⟨e, m, report, escapes, reported, beq_iff_eq.mp here⟩
  · obtain ⟨e, m, report, escapes, reported, here⟩ :=
      exists_escape (.run (throwsFromCall ["list", "Error"] true))
        (fun _ _ report => report.trace.map ReportLayer.function == []) (by decide +kernel)
    exact ⟨e, m, report, escapes, reported, beq_iff_eq.mp here⟩

end Machine

end ObjectMachine
