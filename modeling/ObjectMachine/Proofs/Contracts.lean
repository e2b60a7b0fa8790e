import ObjectMachine.Proofs.References
/-!
Contracts. A computation honours a contract if it starts on a sound heap that meets a condition, never
finds data of another kind than it reads, and ends on a sound heap that meets another condition,
provided that it creates no object that does not fit. Each way to put computations together has a rule.
-/
namespace ObjectMachine

/-- Whether a defect is that of an object with another kind of data than was expected. -/
def Defect.isMissingData : Defect → Bool
  | payload .. | memberName | notGenerator => true
  | _ => false

/-- Whether a change moves an iterator. -/
def Change.isMove : Change → Bool
  | cursor _ => true
  | _ => false

namespace Moment

/-- Whether a computation finds data of another kind than it reads: a payload that was not expected, a
member name that is no text, a generator that is none, or an object without numeric value. -/
def LacksData : Moment → Prop
  | throws (.defect d _) _ => d.isMissingData
  | acts (.raise c) _ _ => c.isMissingNumber
  | forgiven moment => moment.LacksData
  | _ => False

end Moment

namespace Outcome

variable {α : Type}

/-- An outcome leaves a sound heap, and a value meets a condition. -/
structure Honours (Q : α → Heap → Prop) (outcome : Outcome α) : Prop where
  /-- The heap is sound. -/
  sound : outcome.machine.heap.Sound
  /-- A value meets the condition. -/
  value : ∀ a m, outcome = .ok a m → Q a m.heap

end Outcome

namespace Engine

variable {α β : Type} {P P' : Heap → Prop} {Q Q' : α → Heap → Prop} {R : β → Heap → Prop}

/-- A computation honours a contract. -/
def Honours (P : Heap → Prop) (x : Engine α) (Q : α → Heap → Prop) : Prop :=
  ∀ (due : Schedule) (held : List Node) (m : Machine), m.heap.Sound → P m.heap →
    (∀ moment ∈ x.history due held m, ¬ moment.Misfit due) →
      (∀ moment ∈ x.history due held m, ¬ moment.LacksData) ∧ (x.runUnder due m).Honours Q

/-- A computation honours the contract without conditions. -/
def Careful (x : Engine α) : Prop := x.Honours (fun _ => True) (fun _ _ => True)

namespace Honours

/-- A stronger condition at the start and a weaker one at the end. -/
theorem weaken {x : Engine α} (hx : x.Honours P' Q') (before : ∀ h, h.Sound → P h → P' h)
    (after : ∀ a h, h.Sound → Q' a h → Q a h) : x.Honours P Q := by
  intro due held m sound start fits
  obtain ⟨moments, ends⟩ := hx due held m sound (before _ sound start) fits
  refine ⟨moments, ends.sound, ?_⟩
  intro a m' run
  have last := ends.sound
  rw [run] at last
  exact after a m'.heap last (ends.value a m' run)

theorem pure (a : α) : (Pure.pure a : Engine α).Honours (Q a) Q := by
  intro due held m sound start fits
  refine ⟨?_, sound, ?_⟩
  · intro moment mem
    cases mem
  · rintro _ _ ⟨⟩
    exact start

theorem gives (a : α) (value : ∀ h, h.Sound → P h → Q a h) : (Pure.pure a : Engine α).Honours P Q :=
  (pure a).weaken value fun _ _ _ => id

theorem throw (e : Interrupt) (held : ∀ m, ¬ (Moment.throws e m).LacksData) :
    (Engine.throw e : Engine α).Honours P Q := by
  intro due _ m sound start fits
  refine ⟨fun moment mem => List.mem_singleton.mp mem ▸ held m, sound, ?_⟩
  rintro _ _ ⟨⟩

theorem andThen {x : Engine β} {f : β → Engine α} (hx : x.Honours P R)
    (hf : ∀ b, (f b).Honours (R b) Q) : (Engine.andThen x f).Honours P Q := by
  intro due held m sound start fits
  simp only [history, List.mem_append] at fits ⊢
  obtain ⟨moments, ends⟩ := hx due held m sound start fun moment mem => fits moment (.inl mem)
  simp only [runUnder]
  cases ran : x.runUnder due m with
  | error e m' =>
    rw [ran] at ends
    simp only [ran, List.not_mem_nil, or_false] at fits ⊢
    refine ⟨moments, ends.sound, ?_⟩
    rintro _ _ ⟨⟩
  | ok b m' =>
    rw [ran] at ends
    simp only [ran] at fits ⊢
    obtain ⟨later, last⟩ := hf b due held m' ends.sound (ends.value b m' rfl)
      fun moment mem => fits moment (.inr mem)
    refine ⟨?_, last⟩
    rintro moment (mem | mem)
    · exact moments moment mem
    · exact later moment mem

theorem bind {x : Engine β} {f : β → Engine α} (hx : x.Honours P R)
    (hf : ∀ b, (f b).Honours (R b) Q) : (x >>= f).Honours P Q :=
  hx.andThen hf

/-- A condition that no heap meets. -/
theorem of_absurd {x : Engine α} (absurd : ∀ h : Heap, ¬ P h) : x.Honours P Q :=
  fun _ _ m _ start => (absurd m.heap start).elim

theorem keeping {x : Engine α} (nodes : List Node) (hx : x.Honours P Q) :
    (Engine.keeping nodes x).Honours P Q := by
  intro due held m sound start fits
  obtain ⟨moments, ends⟩ := hx due held (m.pushRoots nodes) sound start fits
  refine ⟨moments, ?_⟩
  simp only [runUnder]
  cases ran : x.runUnder due (m.pushRoots nodes) with
  | ok a m' =>
    rw [ran] at ends
    refine ⟨ends.sound, ?_⟩
    rintro _ _ ⟨⟩
    exact ends.value a m' rfl
  | error e m' =>
    rw [ran] at ends
    refine ⟨ends.sound, ?_⟩
    rintro _ _ ⟨⟩

theorem holding {x : Engine α} (nodes : List Node) (hx : x.Honours P Q) :
    (Engine.holding nodes x).Honours P Q :=
  fun due held m => hx due (nodes ++ held) m

theorem executing {x : Engine α} (site : Site) (hx : x.Honours P Q) :
    (Engine.executing site x).Honours P Q := by
  intro due held m sound start fits
  obtain ⟨moments, ends⟩ := hx due held m sound start fits
  refine ⟨moments, ?_⟩
  simp only [runUnder]
  cases ran : x.runUnder due m with
  | ok a m' =>
    rw [ran] at ends
    exact ends
  | error e m' =>
    rw [ran] at ends
    refine ⟨ends.sound, ?_⟩
    rintro _ _ ⟨⟩

/-- A call that the budget refuses leaves the machine as it is. -/
theorem of_refused {x : Engine α} {e : Interrupt} {due : Schedule} {held : List Node} {m : Machine}
    (sound : m.heap.Sound) (moments : x.history due held m = [.refuses m])
    (run : x.runUnder due m = .error e m) :
    (∀ moment ∈ x.history due held m, ¬ moment.LacksData) ∧ (x.runUnder due m).Honours Q := by
  rw [moments, run]
  refine ⟨by simp [Moment.LacksData], sound, ?_⟩
  rintro _ _ ⟨⟩

theorem calling {x : Engine α} (name : String) (args : List Ref) (hx : x.Honours P Q) :
    (Engine.calling name args x).Honours P Q := by
  intro due held m sound start fits
  cases entered : m.enter with
  | error e =>
    exact of_refused sound (by simp only [history, Machine.historyInside, entered])
      (by simp only [runUnder, entered]; rfl)
  | ok inner =>
    have heap := Machine.heap_of_enter entered
    simp only [history, Machine.historyInside, entered, List.forall_mem_cons] at fits ⊢
    obtain ⟨moments, ends⟩ := hx due held (inner.observe (.call name)) (heap ▸ sound) (heap ▸ start)
      fits.2
    refine ⟨⟨id, moments⟩, ?_⟩
    simp only [runUnder, entered]
    cases ran : x.runUnder due (inner.observe (.call name)) with
    | ok a m' =>
      rw [ran] at ends
      refine ⟨ends.sound, ?_⟩
      rintro _ _ ⟨⟩
      exact ends.value a m' rfl
    | error e m' =>
      rw [ran] at ends
      refine ⟨ends.sound, ?_⟩
      rintro _ _ ⟨⟩

end Honours

namespace Careful

theorem honours {x : Engine α} (hx : x.Careful) : x.Honours P (fun _ _ => True) :=
  hx.weaken (fun _ _ _ => trivial) fun _ _ _ => id

theorem after {x : Engine β} {f : β → Engine α} (hf : ∀ b, (f b).Careful) (hx : x.Honours P R) :
    (x >>= f).Honours P (fun _ _ => True) :=
  hx.bind fun b => (hf b).honours

theorem pure (a : α) : (Pure.pure a : Engine α).Careful :=
  Honours.pure (Q := fun _ _ => True) a

theorem throw {e : Interrupt} (held : ∀ m, ¬ (Moment.throws e m).LacksData) :
    (Engine.throw e : Engine α).Careful :=
  Honours.throw e held

theorem bind {x : Engine β} {f : β → Engine α} (hx : x.Careful) (hf : ∀ b, (f b).Careful) :
    (x >>= f).Careful :=
  Honours.bind hx hf

theorem keeping {x : Engine α} (nodes : List Node) (hx : x.Careful) :
    (Engine.keeping nodes x).Careful :=
  Honours.keeping nodes hx

theorem holding {x : Engine α} (nodes : List Node) (hx : x.Careful) :
    (Engine.holding nodes x).Careful :=
  Honours.holding nodes hx

theorem executing {x : Engine α} (site : Site) (hx : x.Careful) :
    (Engine.executing site x).Careful :=
  Honours.executing site hx

theorem calling {x : Engine α} (name : String) (args : List Ref) (hx : x.Careful) :
    (Engine.calling name args x).Careful :=
  Honours.calling name args hx

theorem nested {x : Engine α} (hx : x.Careful) : (Engine.nested x).Careful := by
  intro due held m sound start fits
  cases entered : m.enter with
  | error e =>
    exact Honours.of_refused sound (by simp only [history, Machine.historyInside, entered])
      (by simp only [runUnder, entered]; rfl)
  | ok inner =>
    simp only [history, Machine.historyInside, entered, List.forall_mem_cons] at fits ⊢
    obtain ⟨moments, ends⟩ := hx due held inner (Machine.heap_of_enter entered ▸ sound) trivial fits.2
    refine ⟨⟨id, moments⟩, ?_, fun _ _ _ => trivial⟩
    simp only [runUnder, entered]
    cases ran : x.runUnder due inner <;> rw [ran] at ends <;> exact ends.sound

theorem inSection {x : Engine Completion} (phase : Phase) (resumed : Bool) (hx : x.Careful) :
    (Engine.inSection phase resumed x).Careful := by
  intro due held m sound start fits
  cases entered : m.enter with
  | error e =>
    simp only [history, runUnder, entered]
    exact ⟨by simp [Moment.LacksData], sound, fun _ _ _ => trivial⟩
  | ok inner =>
    simp only [history, entered, List.mem_cons, List.mem_append, List.not_mem_nil, or_false] at fits ⊢
    obtain ⟨moments, ends⟩ := hx due held inner (Machine.heap_of_enter entered ▸ sound) trivial
      fun moment mem => fits moment (.inr (.inl mem))
    refine ⟨?_, ?_, fun _ _ _ => trivial⟩
    · rintro moment (rfl | mem | rfl)
      · exact id
      · exact moments moment mem
      · exact id
    · simp only [runUnder, entered]
      cases ran : x.runUnder due inner with
      | ok a m' => rw [ran] at ends; exact ends.sound
      | error e m' => rw [ran] at ends; cases e <;> exact ends.sound

theorem resuming {x : Engine Completion} (generator : Ref) (name : String) (hx : x.Careful) :
    (Engine.resuming generator name x).Careful := by
  intro due held m sound start fits
  cases entered : m.enter with
  | error e =>
    simp only [history, Machine.historyInside, runUnder, entered]
    exact ⟨by simp [Moment.LacksData], sound, fun _ _ _ => trivial⟩
  | ok inner =>
    simp only [history, Machine.historyInside, entered, List.forall_mem_cons] at fits ⊢
    obtain ⟨moments, ends⟩ := hx due held (inner.observe .resume)
      (Machine.heap_of_enter entered ▸ sound) trivial fits.2
    refine ⟨⟨id, moments⟩, ?_, fun _ _ _ => trivial⟩
    simp only [runUnder, entered]
    cases ran : x.runUnder due (inner.observe .resume) with
    | ok a m' => rw [ran] at ends; exact ends.sound
    | error e m' =>
      rw [ran] at ends
      cases e with
      | raised error => exact ends.sound
      | _ => exact Heap.sound_survivesEnds _ _ ends.sound

theorem catching {x : Engine α} (hx : x.Careful) : (Engine.catching x).Careful := by
  intro due held m sound start fits
  obtain ⟨moments, ends⟩ := hx due held m sound trivial fits
  refine ⟨moments, ?_, fun _ _ _ => trivial⟩
  simp only [runUnder]
  cases ran : x.runUnder due m with
  | ok a m' => rw [ran] at ends; exact ends.sound
  | error e m' => rw [ran] at ends; cases e <;> exact ends.sound

theorem forgiving {x : Engine α} (hx : x.Careful) : (Engine.forgiving x).Careful := by
  intro due held m sound start fits
  simp only [history, List.forall_mem_map] at fits ⊢
  obtain ⟨moments, ends⟩ := hx due held m sound trivial fits
  refine ⟨moments, ?_, fun _ _ _ => trivial⟩
  simp only [runUnder]
  cases ran : x.runUnder due m with
  | ok a m' => rw [ran] at ends; exact ends.sound
  | error e m' => rw [ran] at ends; cases e <;> exact ends.sound

end Careful

/-! ### Operations -/

/-- An operation that respects what objects rely on is careful. -/
theorem honours_act (o : Op α) : (act o).Honours (o.Respects ·) (fun _ _ => True) := by
  intro due held m sound respects fits
  refine ⟨?_, o.perform_sound held sound respects (fits _ List.mem_cons_self), fun _ _ _ => trivial⟩
  intro moment mem
  rw [List.mem_singleton.mp mem]
  cases o with
  | raise c => simpa only [Moment.LacksData, Op.Respects, Bool.not_eq_true] using respects
  | _ => exact id

theorem Careful.act {o : Op α} (respects : ∀ h, o.Respects h) : (Engine.act o).Careful :=
  (honours_act o).weaken (fun h _ _ => respects h) fun _ _ _ => id

/-- A question leaves the heap as it is. -/
theorem honours_ask (f : Heap → α) : (ask f).Honours P (fun a h => P h ∧ a = f h) := by
  intro due held m sound start fits
  refine ⟨by simp [ask, history, Moment.LacksData], sound, ?_⟩
  rintro _ _ ⟨⟩
  exact ⟨start, rfl⟩

/-- Reading an object leaves the heap as it is. -/
theorem honours_load (r : Ref) : (load r).Honours P (fun o h => P h ∧ h.object? r = some o) := by
  intro due held m sound start fits
  refine ⟨by simp [load, history, Moment.LacksData], ?_⟩
  simp only [load, runUnder, Op.perform]
  split
  · rename_i found
    refine ⟨sound, ?_⟩
    rintro _ _ ⟨⟩
    exact ⟨start, found⟩
  · refine ⟨sound, ?_⟩
    rintro _ _ ⟨⟩

/-- Reading a payload leaves the heap as it is. -/
theorem honours_payload (r : Ref) : (payload r).Honours P (fun p h => P h ∧ h.payload? r = some p) := by
  refine (honours_load r).bind fun o => ?_
  refine (Honours.pure o.payload).weaken ?_ fun _ _ _ => id
  rintro h - ⟨start, found⟩
  exact ⟨start, by simp [Heap.payload?, found]⟩

/-! ### Frequent computations -/

theorem careful_ask (f : Heap → α) : (ask f).Careful := Careful.act fun _ => trivial

theorem careful_load (r : Ref) : (load r).Careful := Careful.act fun _ => trivial

theorem careful_payload (r : Ref) : (payload r).Careful :=
  (careful_load r).bind fun o => Careful.pure o.payload

theorem careful_loadScope (s : ScopeRef) : (loadScope s).Careful := Careful.act fun _ => trivial

/-- A payload is stored carefully if what it relies on is there. -/
theorem honours_new (p : Payload) : (new p).Honours (p.Relies ·) (fun _ _ => True) :=
  honours_act (.store (.ofPayload p none))

theorem careful_new {p : Payload} (relies : ∀ h, p.Relies h) : (new p).Careful :=
  Careful.act relies

theorem careful_newOf (type : Ref) {p : Payload} (relies : ∀ h, p.Relies h) :
    (newOf type p).Careful :=
  Careful.act relies

theorem careful_newInt (i : Int64) : (newInt i).Careful := careful_new fun _ => trivial

theorem careful_newNum (x : Binary64) : (newNum x).Careful := careful_new fun _ => trivial

theorem careful_newStr (s : String) : (newStr s).Careful := careful_new fun _ => trivial

theorem careful_newList (items : List Ref) : (newList items).Careful := careful_new fun _ => trivial

theorem careful_newScope (outer : ScopeRef) : (newScope outer).Careful := Careful.act fun _ => trivial

/-- Changes other than moving an iterator are careful. -/
theorem careful_change (r : Ref) {c : Change} (other : c.isMove = false) : (change r c).Careful := by
  refine Careful.act fun h => ?_
  cases c with
  | cursor cursor => cases other
  | _ => trivial

theorem careful_writeMember (r : Ref) (name : String) (value : Ref) :
    (writeMember r name value).Careful :=
  Careful.act fun _ => trivial

theorem careful_define (s : ScopeRef) (name : String) (value : Ref) : (define s name value).Careful :=
  Careful.act fun _ => trivial

theorem careful_tick : tick.Careful := Careful.act fun _ => trivial

theorem careful_collectIfDue (nodes : Unit → List Node) : (collectIfDue nodes).Careful :=
  Careful.act fun _ => trivial

theorem careful_pushRoots (nodes : List Node) : (pushRoots nodes).Careful :=
  Careful.act fun _ => trivial

theorem careful_observe (e : Event) : (observe e).Careful := Careful.act fun _ => trivial

theorem careful_observeAt (e : Nat → Event) : (observeAt e).Careful := Careful.act fun _ => trivial

theorem careful_note (n : Notice) : (note n).Careful := Careful.act fun _ => trivial

theorem careful_print (s : String) : (print s).Careful := Careful.act fun _ => trivial

theorem honours_raise {c : Cause} (other : c.isMissingNumber = false) :
    (raise c : Engine α).Honours P Q := by
  intro due held m sound start fits
  refine ⟨by simp [raise, history, Moment.LacksData, other], sound, ?_⟩
  rintro _ _ ⟨⟩

theorem careful_raise {c : Cause} (other : c.isMissingNumber = false) :
    (raise c : Engine α).Careful :=
  honours_raise other

theorem careful_fail {d : Defect} (other : d.isMissingData = false) : (fail d : Engine α).Careful := by
  refine Careful.throw fun m => ?_
  simp [Moment.LacksData, other]

theorem careful_throwRaised (e : Raised) : (throw (.raised e) : Engine α).Careful :=
  Careful.throw fun _ => id

theorem careful_dangling : (throw .dangling : Engine α).Careful := Careful.throw fun _ => id

theorem careful_overflow : (throw .overflow : Engine α).Careful := Careful.throw fun _ => id

theorem careful_outOfFuel : (throw .outOfFuel : Engine α).Careful := Careful.throw fun _ => id

theorem careful_keepingObjects {x : Engine α} (refs : List Ref) (hx : x.Careful) :
    (keepingObjects refs x).Careful :=
  hx.keeping _

attribute [grind =] Defect.isMissingData.eq_def Cause.isMissingNumber.eq_def Change.isMove.eq_def

attribute [grind ←] Careful.pure Careful.bind Careful.keeping Careful.holding Careful.executing
  Careful.nested Careful.inSection Careful.resuming Careful.catching Careful.forgiving
  careful_ask careful_load careful_payload careful_loadScope careful_newInt careful_newNum
  careful_newStr careful_newList careful_newScope careful_change careful_writeMember careful_define
  careful_tick careful_collectIfDue careful_pushRoots careful_observe careful_observeAt careful_note
  careful_print careful_raise careful_fail careful_throwRaised careful_dangling careful_overflow
  careful_outOfFuel careful_keepingObjects

end Engine

end ObjectMachine
