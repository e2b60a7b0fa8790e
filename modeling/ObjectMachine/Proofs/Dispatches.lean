import Mathlib.Data.List.Chain
import ObjectMachine.Proofs.Slices
import ObjectMachine.Proofs.Suspension
/-!
Which blocks are dispatched again. An instruction other than a block changes nothing of its frame but the operands,
the value and, where it opens or closes one, the scope. So it leaves the sections that wait in the frame as they are:
a body in which no section waits dispatches no block again, and one in which sections wait dispatches exactly these
blocks first, the outermost one in front.
-/
namespace ObjectMachine

namespace Frame

/-- The scopes of a frame, and the sections that wait in it. -/
def setting (f : Frame) : (ScopeRef × ScopeRef) × List Parked := ((f.scope, f.baseScope), f.parked)

theorem parked_of_setting {f g : Frame} (same : g.setting = f.setting) : g.parked = f.parked :=
  congrArg Prod.snd same

/-- A frame without its operands and its value. -/
def unloaded (f : Frame) : Frame := { f with stack := [], returned := none }

theorem setting_of_unloaded {f g : Frame} (same : g.unloaded = f.unloaded) : g.setting = f.setting :=
  show g.unloaded.setting = f.unloaded.setting from congrArg setting same

theorem code_of_unloaded {f g : Frame} (same : g.unloaded = f.unloaded) : g.code = f.code :=
  show g.unloaded.code = f.unloaded.code from congrArg (fun f => f.code) same

end Frame

namespace Engine

/-! ### Values of computations -/

/-- All values of a computation have a property. -/
def Gives {α : Type} (P : α → Prop) (x : Engine α) : Prop :=
  ∀ due m a m', x.runUnder due m = .ok a m' → P a

namespace Gives

variable {α β : Type} {P : α → Prop} {Q : β → Prop} {x : Engine α} {f : α → Engine β}

theorem pure {a : α} (holds : P a) : Gives P (Pure.pure a) := by
  rintro due m _ _ ⟨⟩
  exact holds

theorem fail (d : Defect) : Gives P (Engine.fail d : Engine α) := by
  rintro due m _ _ ⟨⟩

theorem raise (c : Cause) : Gives P (Engine.raise c : Engine α) := by
  rintro due m _ _ ⟨⟩

theorem throw (e : Interrupt) : Gives P (Engine.throw e : Engine α) := by
  rintro due m _ _ ⟨⟩

theorem mono {P' : α → Prop} (gives : Gives P x) (weaker : ∀ a, P a → P' a) : Gives P' x :=
  fun due m a m' ended => weaker a (gives due m a m' ended)

theorem bind (first : Gives P x) (later : ∀ a, P a → Gives Q (f a)) : Gives Q (x >>= f) := by
  intro due m b m' ended
  simp only [Bind.bind, runUnder] at ended
  cases ran : x.runUnder due m with
  | error e m₁ =>
    rw [ran] at ended
    cases ended
  | ok a m₁ =>
    rw [ran] at ended
    exact later a (first due m a m₁ ran) due m₁ b m' ended

theorem after (later : ∀ a, Gives Q (f a)) : Gives Q (x >>= f) :=
  bind (P := fun _ => True) (fun _ _ _ _ _ => trivial) fun a _ => later a

end Gives

/-- A step that leaves the setting of a frame as it is; only one instruction hands out a value. -/
def Remains (f : Frame) (op : Opcode) : Step → Prop
  | .next g | .jump _ g => g.setting = f.setting
  | .yielded _ g => op = .yieldValue ∧ g.setting = f.setting
  | .suspended .. => False

/-- A step that changes operands and the value of a frame only, and stays within its code; only one instruction hands
out a value. -/
def Lands (f : Frame) (op : Opcode) : Step → Prop
  | .next g => g.unloaded = f.unloaded
  | .jump target g => g.unloaded = f.unloaded ∧ target ≤ f.code.size
  | .yielded _ g => op = .yieldValue ∧ g.unloaded = f.unloaded
  | .suspended .. => False

theorem Lands.remains {f : Frame} {op : Opcode} {step : Step} (lands : Lands f op step) : Remains f op step := by
  cases step with
  | next g => exact Frame.setting_of_unloaded lands
  | jump target g => exact Frame.setting_of_unloaded lands.1
  | yielded value g => exact ⟨lands.1, Frame.setting_of_unloaded lands.2⟩
  | suspended value g => exact lands

/-- A step that leaves the sections that wait in a frame as they are. -/
def Stays (f : Frame) : Step → Prop
  | .next g | .jump _ g | .yielded _ g => g.parked = f.parked
  | .suspended .. => False

variable {k : Reentry}

theorem gives_pop (f : Frame) : Gives (fun p => p.2.unloaded = f.unloaded) (pop f) := by
  unfold pop
  split
  · exact .pure rfl
  · exact .fail _

theorem gives_popMany (f : Frame) (count : Nat) :
    Gives (fun p => p.2.unloaded = f.unloaded) (popMany f count) := by
  unfold popMany
  split
  · exact .fail _
  · exact .pure rfl

theorem gives_target (f : Frame) (tag : String) : Gives (· < f.code.size) (target f tag) := by
  unfold target
  split
  · rename_i found
    exact .pure (Code.findTagFrom?_eq_some_iff.mp found).carries.lt_size
  · exact .fail _

theorem gives_branch {f g : Frame} {op : Opcode} (same : g.unloaded = f.unloaded) (tag : String) (taken : Bool) :
    Gives (Lands f op) (branch g tag taken) := by
  unfold branch
  split
  · refine (gives_target g tag).bind fun target inside => .pure ⟨same, ?_⟩
    rw [← Frame.code_of_unloaded same]
    exact Nat.le_of_lt inside
  · exact .pure same

theorem gives_replaceTop {f g : Frame} {op : Opcode} (same : g.unloaded = f.unloaded) (x : Ref → Engine Ref) :
    Gives (Lands f op) (replaceTop g x) := by
  refine (gives_pop g).bind fun popped rest => ?_
  exact .after fun result => .pure (rest.trans same)

theorem gives_makeFunction (f : Frame) (name body : String) (params : List ParamSpec) (generator : Bool) :
    Gives (fun p => p.2.unloaded = f.unloaded) (makeFunction f name body params generator) := by
  refine (gives_popMany f _).bind fun popped rest => .after fun params => ?_
  split
  · exact .raise _
  · split
    · exact .fail _
    · exact .after fun _ => .after fun function => .pure rest

theorem gives_makeClass (f : Frame) (name body : String) (count : Nat) :
    Gives (fun p => p.2.unloaded = f.unloaded) (makeClass k f name body count) := by
  refine (gives_popMany f count).bind fun popped rest => .after fun _ => .after fun type => ?_
  split
  · exact .fail _
  · refine .after fun scope => .after fun ended => ?_
    split
    · exact .raise _
    · exact .after fun _ => .after fun _ => .after fun _ => .after fun _ => .pure rest

/-- An instruction that is no block, and neither opens nor closes a scope, changes operands and the value of its
frame only. -/
theorem execute_lands (f : Frame) (op : Opcode) (noBlock : ∀ block binding, op ≠ .tryBlock block binding)
    (noScope : op ≠ .enterScope ∧ op ≠ .exitScope) : Gives (Lands f op) (execute k f op) := by
  cases op with
  | tryBlock block binding => exact (noBlock block binding rfl).elim
  | enterScope => exact (noScope.1 rfl).elim
  | exitScope => exact (noScope.2 rfl).elim
  | pushBool | pushNull | bodyEnd | nop => exact .pure rfl
  | pushInt | pushNum | pushStr | dup | getVar | deleteVar => exact .after fun _ => .pure rfl
  | pop count => exact (gives_popMany f count).bind fun _ rest => .pure rest
  | yieldValue => exact (gives_pop f).bind fun _ rest => .pure ⟨rfl, rest⟩
  | returnValue => exact (gives_pop f).bind fun _ rest => .pure rest
  | throwValue => exact (gives_pop f).bind fun _ _ => .after fun _ => .throw _
  | defineVar | setVar => exact (gives_pop f).bind fun _ rest => .after fun _ => .pure rest
  | deleteMember => exact (gives_pop f).bind fun _ rest => .after fun _ => .pure rest
  | setMember =>
    refine (gives_pop f).bind fun _ first => (gives_pop _).bind fun _ second => ?_
    exact .after fun _ => .pure (second.trans first)
  | swap =>
    simp only [execute]
    split
    · exact .pure rfl
    · exact .fail _
  | buildList count | operator _ count =>
    exact (gives_popMany f count).bind fun _ rest => .after fun _ => .pure rest
  | buildMap count =>
    simp only [execute]
    split
    · exact .fail _
    · exact (gives_popMany f _).bind fun _ rest => .after fun _ => .pure rest
  | getMember | negate =>
    simp only [execute]
    exact gives_replaceTop rfl _
  | call argc => exact (gives_popMany f argc).bind fun _ rest => gives_replaceTop rest _
  | same => exact (gives_pop f).bind fun _ rest => gives_replaceTop rest _
  | callSpread =>
    refine (gives_pop f).bind fun _ first => (gives_pop _).bind fun _ second => .after fun list => ?_
    split
    · exact .after fun _ => .pure (second.trans first)
    · exact .after fun _ => .raise _
  | jump tag => exact gives_branch rfl tag true
  | jumpIfTrue tag | jumpIfFalse tag =>
    exact (gives_pop f).bind fun _ rest => .after fun taken => gives_branch rest tag _
  | typeTest tag =>
    refine (gives_pop f).bind fun _ rest => .after fun value => .after fun isType => ?_
    split
    · exact .after fun matches_ => gives_branch rest tag _
    · exact .after fun _ => .raise _
  | iterNext tag =>
    refine .after fun iterator => .after fun result => ?_
    split
    · exact .pure rfl
    · refine .after fun stop => ?_
      split
      · exact (gives_pop f).bind fun _ rest => gives_branch rest tag true
      · exact .throw _
  | bodyStart closing =>
    simp only [execute]
    split
    · rename_i found
      exact .pure ⟨rfl, (Code.findTagFrom?_eq_some_iff.mp found).carries.lt_size⟩
    · exact .fail _
  | makeFunction name body params generator =>
    exact (gives_makeFunction f name body params generator).bind fun _ rest => .pure rest
  | makeClass name body parents =>
    exact (gives_makeClass f name body parents).bind fun _ rest => .pure rest

/-- Such an instruction leaves the setting of its frame as it is. -/
theorem execute_remains (f : Frame) (op : Opcode) (noBlock : ∀ block binding, op ≠ .tryBlock block binding)
    (noScope : op ≠ .enterScope ∧ op ≠ .exitScope) : Gives (Remains f op) (execute k f op) :=
  (execute_lands f op noBlock noScope).mono fun _ lands => lands.remains

/-- An instruction that opens or closes a scope changes the scope of its frame only. -/
theorem execute_scopes (f : Frame) {op : Opcode} (scopes : op = .enterScope ∨ op = .exitScope) :
    Gives (fun step => ∃ scope, step = .next { f with scope }) (execute k f op) := by
  obtain rfl | rfl := scopes
  · exact .after fun scope => .pure ⟨scope, rfl⟩
  · simp only [execute]
    split
    · exact .fail _
    · refine .after fun scope => ?_
      split
      · rename_i outer _
        exact .pure ⟨outer, rfl⟩
      · exact .fail _

/-- An instruction other than a block leaves the sections that wait in its frame as they are. -/
theorem execute_stays (f : Frame) (op : Opcode) (other : ∀ block binding, op ≠ .tryBlock block binding) :
    Gives (Stays f) (execute k f op) := by
  by_cases scopes : op = .enterScope ∨ op = .exitScope
  · refine (execute_scopes f scopes).mono ?_
    rintro _ ⟨scope, rfl⟩
    rfl
  intro due m step m' ran
  have remains := execute_remains f op other (not_or.mp scopes) due m step m' ran
  cases step with
  | next g => exact Frame.parked_of_setting remains
  | jump target g => exact Frame.parked_of_setting remains
  | yielded value g => exact Frame.parked_of_setting remains.2
  | suspended value g => exact remains

/-- Only a block hands out a value from within, and it waits at the same instruction. -/
theorem suspended_waits {due : Schedule} {f g : Frame} {op : Opcode} {m m' : Machine} {value : Ref}
    (ended : (execute k f op).runUnder due m = .ok (.suspended value g) m') :
    g.base = f.base ∧ g.parked ≠ [] := by
  by_cases block : ∃ name binding, op = .tryBlock name binding
  · obtain ⟨name, binding, rfl⟩ := block
    replace ended : (protect k f name binding).runUnder due m = .ok (.suspended value g) m' := ended
    cases found : Sections.find? f name with
    | none =>
      simp only [protect, found] at ended
      cases ended
    | some s =>
      -- a block that hands out a value is at one of its sections, so something waits in its frame
      obtain ⟨c, -, shows⟩ := protect_follows due [] k m found binding
      rw [ended] at shows
      cases shows with
      | finished delivered => cases delivered
      | waiting _ _ same control =>
        refine ⟨same, fun none => ?_⟩
        rw [Frame.control, none] at control
        cases control
  · exact (execute_stays f op (fun name binding same => block ⟨name, binding, same⟩) due m _ m' ended).elim

end Engine

/-! ### Bodies in which no section waits -/

/-- Every frame in which a section waits stands at a block, and something is pending only during a
cleanup. -/
def Activation.InBlocks : Activation → List Parked → Prop
  | _, [] => True
  | f, ⟨phase, pending, body⟩ :: inner =>
    (∃ instruction name binding, f.code.at? f.ip = some instruction ∧ instruction.op = .tryBlock name binding) ∧
      (phase = .cleanup ∨ pending = .proceed) ∧ body.InBlocks inner

/-- Every section of a frame that waits is one of a block. -/
def Frame.InBlocks (f : Frame) : Prop := f.toActivation.InBlocks f.parked

theorem Frame.inBlocks_of_unparked {f : Frame} (unparked : f.parked = []) : f.InBlocks := by
  rw [Frame.InBlocks, unparked]
  exact trivial

/-- What happens in a body in which no section waits; values are handed out only where they are recorded. -/
def BodyEvent.Fresh (records : Bool) : BodyEvent → Prop
  | dispatched d => d.again = false
  | handedOut _ => records = true

theorem BodyEvent.Fresh.again {records : Bool} {e : BodyEvent} (fresh : e.Fresh records) :
    e.again = false := by
  cases e with
  | dispatched d => exact fresh
  | handedOut value => rfl

theorem BodyEvent.Fresh.value? {e : BodyEvent} (fresh : e.Fresh false) : e.value? = none := by
  cases e with
  | dispatched d => rfl
  | handedOut value => cases fresh

/-- No block is dispatched again, and all values have a property. -/
structure Trail.Plain {α : Type} (records : Bool) (P : α → Prop) (t : Trail α) : Prop where
  /-- No block is dispatched again. -/
  fresh : ∀ e ∈ t.log, e.Fresh records
  /-- The value has the property. -/
  value : ∀ a m, t.outcome = .ok a m → P a

namespace Trail.Plain

variable {α β : Type} {records : Bool} {P Q : α → Prop} {R : β → Prop} {t : Trail α}

theorem ok {a : α} (holds : P a) (m : Machine) : Plain records P ⟨[], .ok a m⟩ :=
  ⟨List.forall_mem_nil _, by rintro _ _ ⟨⟩; exact holds⟩

theorem error (e : Interrupt) (m : Machine) : Plain records P (⟨[], .error e m⟩ : Trail α) :=
  ⟨List.forall_mem_nil _, fun _ _ ended => nomatch ended⟩

theorem of {x : Engine α} (gives : x.Gives P) (m : Machine) :
    Plain records P (.of (x.runUnder .never m)) := by
  cases ran : x.runUnder .never m with
  | ok a m' => exact .ok (gives .never m a m' ran) m'.bare
  | error e m' => exact .error e m'.bare

theorem after (plain : t.Plain records P) {log : List BodyEvent} (fresh : ∀ e ∈ log, e.Fresh records) :
    (t.after log).Plain records P :=
  ⟨fun e member => (List.mem_append.mp member).elim (fresh e) (plain.fresh e), plain.value⟩

theorem andThen {f : α → Machine → Trail β} (first : t.Plain records P)
    (later : ∀ a m, P a → (f a m).Plain records R) : (t.andThen f).Plain records R := by
  obtain ⟨log, ⟨a, m⟩ | ⟨e, m⟩⟩ := t
  · exact (later a m (first.value a m rfl)).after first.fresh
  · exact ⟨first.fresh, fun _ _ ended => nomatch ended⟩

theorem mono (plain : t.Plain records P) (weaker : ∀ a, P a → Q a) : t.Plain records Q :=
  ⟨plain.fresh, fun a m ended => weaker a (plain.value a m ended)⟩

theorem atSite (plain : t.Plain records P) (site : Site) : (t.atSite site).Plain records P := by
  obtain ⟨log, ⟨a, m⟩ | ⟨e, m⟩⟩ := t
  · exact plain
  · exact ⟨plain.fresh, fun _ _ ended => nomatch ended⟩

end Trail.Plain

namespace Engine

/-- How a body ends in which no section waits: a run that records values hands out none. -/
def Halts (records : Bool) : Completion → Prop
  | .done _ => True
  | .yielded _ g => records = false ∧ g.InBlocks

/-- How a section ends in which no section waits. -/
def HaltsSection (records : Bool) : SectionEnd → Prop
  | .yielded _ g => records = false ∧ g.InBlocks
  | .ended _ => True

/-- Where an instruction leads in whose frame no section waits. -/
def Leads (records : Bool) (f : Frame) : Step → Prop
  | .next g | .jump _ g | .yielded _ g => g.parked = []
  | .suspended _ g =>
    records = false ∧ ∃ phase pending body, g = park f phase pending body ∧
      (phase = .cleanup ∨ pending = .proceed) ∧ body.InBlocks

/-- Where an instruction leads, whatever it is. -/
def Proceeds (records : Bool) : Step → Prop
  | .next g | .jump _ g | .yielded _ g => g.parked = []
  | .suspended _ g => records = false ∧ g.InBlocks

theorem Leads.proceeds {records : Bool} {f : Frame} {instruction : Instruction} {name : String}
    {binding : Option String} (found : f.code.at? f.ip = some instruction)
    (block : instruction.op = .tryBlock name binding) (step : Step) (leads : Leads records f step) :
    Proceeds records step := by
  cases step with
  | suspended value g =>
    obtain ⟨stops, phase, pending, body, rfl, idle, inner⟩ := leads
    exact ⟨stops, ⟨instruction, name, binding, found, block⟩, idle, inner⟩
  | _ => exact leads

section
variable {records : Bool} {run : Runner}
  (plain : ∀ around f m, f.parked = [] → (run around f m).Plain records (Halts records))

theorem halts_leaving {t : Trail Completion} (value : ∀ a m, t.outcome = .ok a m → Halts records a)
    (a : SectionEnd) (m : Machine) (ended : t.leaving.outcome = .ok a m) : HaltsSection records a := by
  obtain ⟨log, ⟨c, last⟩ | ⟨e, last⟩⟩ := t
  · cases c with
    | done v =>
      cases ended
      trivial
    | yielded v g =>
      cases ended
      exact value _ last rfl
  · cases e with
    | raised e =>
      cases ended
      trivial
    | _ => cases ended

variable {f : Frame} {s : Sections} (unparked : f.parked = [])

include unparked in
theorem plain_finish (pending : Pending) (m : Machine) :
    (finishTrail f s pending m).Plain records (Leads records f) := by
  cases pending with
  | proceed => exact .ok (a := Step.jump s.next f) unparked _
  | leave value => exact .ok (a := Step.jump s.next { f with returned := some value }) unparked _
  | rethrow e => exact .error _ _

include plain

theorem plain_section (around : List Waiting) (f : Frame) (phase : Phase) (pending : Pending)
    {body : Frame} (start : body.parked = []) (m : Machine) :
    (sectionTrail run around f phase pending body m).Plain records (HaltsSection records) := by
  unfold sectionTrail
  cases m.enter with
  | error e => exact .error _ _
  | ok inner =>
    have whole := plain (⟨f, phase, pending⟩ :: around) body inner start
    exact ⟨whole.fresh, halts_leaving whole.value⟩

theorem plain_phase {rest : Except Raised (Option Ref) → Machine → Trail Step} (around : List Waiting)
    {phase : Phase} {pending : Pending} (idle : phase = .cleanup ∨ pending = .proceed)
    (goesOn : ∀ result m, (rest result m).Plain records (Leads records f)) {body : Frame}
    (start : body.parked = []) (m : Machine) :
    (phaseTrail run around f phase pending rest body m).Plain records (Leads records f) := by
  refine (plain_section plain around f phase pending start m).andThen fun ended m halts => ?_
  cases ended with
  | yielded value body => exact .ok ⟨halts.1, phase, pending, body, rfl, idle, halts.2⟩ m
  | ended result => exact goesOn result m

include unparked
variable (around : List Waiting)

theorem plain_startCleanup (pending : Pending) (m : Machine) :
    (startCleanupTrail run around f s pending m).Plain records (Leads records f) := by
  unfold startCleanupTrail
  split
  · exact plain_phase plain around (.inl rfl) (fun result => plain_finish unparked _) rfl m
  · exact plain_finish unparked pending m

theorem plain_afterGuarded (binding : Option String) (result : Except Raised (Option Ref)) (m : Machine) :
    (afterGuardedTrail run around f s binding result m).Plain records (Leads records f) := by
  unfold afterGuardedTrail
  split
  · refine Trail.Plain.andThen (P := fun _ => True) (.of (fun _ _ _ _ _ => trivial) m) fun scope m _ => ?_
    exact plain_phase plain around (.inr rfl)
      (fun result m => plain_startCleanup plain unparked around (.ofResult result) m) rfl m
  · exact plain_startCleanup plain unparked around _ m

theorem plain_protect (block : String) (binding : Option String) (m : Machine) :
    (protectTrail run around f block binding m).Plain records (Leads records f) := by
  unfold protectTrail
  split
  · exact .error _ m
  · rw [unparked]
    exact plain_phase plain around (.inr rfl) (plain_afterGuarded plain unparked around binding) rfl m

end

section
variable {records : Bool} {run : Runner}
  (plain : ∀ around f m, f.parked = [] → (run around f m).Plain records (Halts records))
include plain

theorem plain_instruction {f : Frame} {instruction : Instruction} (fuel : Nat) (unparked : f.parked = [])
    (found : f.code.at? f.ip = some instruction) (around : List Waiting) (m : Machine) :
    (instructionTrail fuel run around f instruction.op m).Plain records (Proceeds records) := by
  have other (simple : ∀ block binding, instruction.op ≠ .tryBlock block binding) :
      (Trail.of ((execute (reentry fuel) f instruction.op).runUnder .never m)).Plain records
        (Proceeds records) := by
    refine .of (fun due m step m' ran => ?_) m
    have stays := execute_stays f instruction.op simple due m step m' ran
    cases step with
    | suspended => exact stays.elim
    | _ => exact stays.trans unparked
  cases op : instruction.op with
  | tryBlock block binding =>
    exact (plain_protect plain unparked around block binding m).mono (Leads.proceeds found op)
  | _ =>
    rw [op] at other
    exact other nofun

theorem plain_proceed {step : Step} (proceeds : Proceeds records step) (around : List Waiting) (ip : Nat)
    (m : Machine) : (proceedTrail records run around ip step m).Plain records (Halts records) := by
  -- a step that is not the end leads to the next instruction, unless the frame returns
  have goesOn (g : Frame) (unparked : g.parked = []) (settled : settle ip step = settle.proceed g) :
      (proceedTrail records run around ip step m).Plain records (Halts records) := by
    unfold proceedTrail
    rw [settled]
    unfold settle.proceed
    cases g.returned with
    | none => exact plain around g m unparked
    | some value => exact .ok trivial m
  cases step with
  | next g => exact goesOn { g with ip := ip + 1 } proceeds rfl
  | jump target g => exact goesOn { g with ip := target } proceeds rfl
  | yielded value g =>
    have unparked : ({ g with ip := ip + 1 } : Frame).parked = [] := proceeds
    cases records with
    | true => exact (plain around _ m unparked).after (by simp [BodyEvent.Fresh])
    | false => exact .ok ⟨rfl, Frame.inBlocks_of_unparked unparked⟩ m
  | suspended value g =>
    obtain ⟨rfl, inBlocks⟩ := proceeds
    exact .ok ⟨rfl, inBlocks⟩ m

end

/-- In a body in which no section waits, no block is dispatched again. -/
theorem plain_straight (records : Bool) (n : Nat) (around : List Waiting) (f : Frame) (m : Machine)
    (unparked : f.parked = []) : (straight records n around f m).Plain records (Halts records) := by
  induction n generalizing around f m with
  | zero => exact .error _ m
  | succ n ih =>
    unfold straight
    split <;> rename_i found
    · exact .ok trivial m
    · rename_i instruction
      refine Trail.Plain.after ?_ (by simp [BodyEvent.Fresh, Dispatch.again, unparked])
      have executed := (plain_instruction ih n unparked found around m).atSite ⟨instruction.op, f.ip⟩
      exact executed.andThen fun step m proceeds => plain_proceed ih proceeds around f.ip m

end Engine

/-! ### Bodies in which sections wait -/

/-- When an event may follow another: a block is dispatched again where the body is resumed, the outermost
one directly after a value was handed out, and each other one within the block dispatched before. -/
def BodyEvent.Precedes (e : BodyEvent) : BodyEvent → Prop
  | .handedOut _ => True
  | .dispatched d' => d'.again = true →
    match e with
    | .handedOut _ => d'.around = []
    | .dispatched d => ∃ phase pending,
      d.frame.parked = ⟨phase, pending, d'.frame.toActivation⟩ :: d'.frame.parked ∧
        d'.around = ⟨d.frame.base, phase, pending⟩ :: d.around

theorem BodyEvent.precedes_of_fresh (e : BodyEvent) {e' : BodyEvent} (fresh : e'.again = false) :
    e.Precedes e' := by
  cases e' with
  | handedOut value => trivial
  | dispatched d' =>
    intro again
    rw [show d'.again = false from fresh] at again
    cases again

/-- What happens when a body is resumed in a frame: the blocks in which it waits are dispatched again, the
outermost one first, and nothing else is. -/
structure Resumes (around : List Waiting) (f : Frame) (log : List BodyEvent) : Prop where
  /-- A block is dispatched again only within one that was dispatched again just before. -/
  chain : log.IsChain BodyEvent.Precedes
  /-- The first one is that of the frame. -/
  head : ∀ d, log.head? = some (.dispatched d) → d.again = true → d.around = around ∧ d.frame = f

namespace Resumes

variable {around : List Waiting} {f : Frame} {log later : List BodyEvent}

theorem of_fresh (fresh : ∀ e ∈ log, e.again = false) : Resumes around f log := by
  constructor
  · refine List.isChain_iff_forall_rel_of_append_cons_cons.mpr ?_
    rintro e e' before after rfl
    exact e.precedes_of_fresh (fresh e' (by simp))
  · intro d first again
    rw [show d.again = false from fresh _ (List.mem_of_mem_head? first)] at again
    cases again

theorem append (resumes : Resumes around f log) (fresh : ∀ e ∈ later, e.again = false) :
    Resumes around f (log ++ later) := by
  have rest : Resumes around f later := of_fresh fresh
  constructor
  · refine List.isChain_append.mpr ⟨resumes.chain, rest.chain, fun e _ e' first => ?_⟩
    exact e.precedes_of_fresh (fresh e' (List.mem_of_mem_head? first))
  · cases log with
    | nil => exact rest.head
    | cons e log => exact resumes.head

/-- After a value was handed out, the body is resumed in another frame. -/
theorem append_handedOut {g : Frame} (resumes : Resumes around f log) (value : Ref)
    (next : Resumes [] g later) : Resumes around f (log ++ .handedOut value :: later) := by
  have rest : (BodyEvent.handedOut value :: later).IsChain BodyEvent.Precedes := by
    refine .cons next.chain fun e first => ?_
    cases e with
    | handedOut value' => trivial
    | dispatched d => exact fun again => (next.head d first again).1
  constructor
  · refine List.isChain_append.mpr ⟨resumes.chain, rest, fun e _ e' first => ?_⟩
    cases first
    trivial
  · cases log with
    | nil => exact fun d first => nomatch first
    | cons e log => exact resumes.head

end Resumes

/-- A trail resumes a frame, and all its values have a property. -/
structure Trail.Resuming {α : Type} (around : List Waiting) (f : Frame) (P : α → Prop) (t : Trail α) : Prop where
  /-- The blocks in which the frame waits are dispatched again. -/
  resumes : Resumes around f t.log
  /-- No value is recorded. -/
  silent : ∀ e ∈ t.log, e.value? = none
  /-- The value has the property. -/
  value : ∀ a m, t.outcome = .ok a m → P a

namespace Trail

variable {α β : Type} {around : List Waiting} {f : Frame} {P : α → Prop} {Q : β → Prop} {t : Trail α}

theorem Plain.resuming (plain : t.Plain false P) : t.Resuming around f P where
  resumes := .of_fresh fun e member => (plain.fresh e member).again
  silent e member := (plain.fresh e member).value?
  value := plain.value

theorem Resuming.andThen {g : α → Machine → Trail β} (first : t.Resuming around f P)
    (later : ∀ a m, P a → (g a m).Plain false Q) : (t.andThen g).Resuming around f Q := by
  obtain ⟨log, ⟨a, m⟩ | ⟨e, m⟩⟩ := t
  · have rest := later a m (first.value a m rfl)
    refine ⟨first.resumes.append fun e member => (rest.fresh e member).again, fun e member => ?_, rest.value⟩
    exact (List.mem_append.mp member).elim (first.silent e) fun member => (rest.fresh e member).value?
  · exact ⟨first.resumes, first.silent, fun _ _ ended => nomatch ended⟩

theorem Resuming.atSite (resuming : t.Resuming around f P) (site : Site) :
    (t.atSite site).Resuming around f P := by
  obtain ⟨log, ⟨a, m⟩ | ⟨e, m⟩⟩ := t
  · exact resuming
  · exact ⟨resuming.resumes, resuming.silent, fun _ _ ended => nomatch ended⟩

end Trail

namespace Engine

theorem resuming_phase {run : Runner} {rest : Except Raised (Option Ref) → Machine → Trail Step}
    {around : List Waiting} {f body : Frame} {phase : Phase} {pending : Pending}
    (inner : ∀ m, (run (⟨f, phase, pending⟩ :: around) body m).Resuming (⟨f, phase, pending⟩ :: around)
      body (Halts false))
    (idle : phase = .cleanup ∨ pending = .proceed)
    (goesOn : ∀ result m, (rest result m).Plain false (Leads false f)) (m : Machine) :
    (phaseTrail run around f phase pending rest body m).Resuming (⟨f, phase, pending⟩ :: around) body
      (Leads false f) := by
  have section_ : (sectionTrail run around f phase pending body m).Resuming
      (⟨f, phase, pending⟩ :: around) body (HaltsSection false) := by
    unfold sectionTrail
    cases m.enter with
    | error e => exact (Trail.Plain.error _ m).resuming
    | ok deeper => exact ⟨(inner deeper).resumes, (inner deeper).silent, halts_leaving (inner deeper).value⟩
  -- what follows the section starts afresh
  refine section_.andThen fun ended m halts => ?_
  cases ended with
  | yielded value body => exact .ok ⟨rfl, phase, pending, body, rfl, idle, halts.2⟩ m
  | ended result => exact goesOn result m

theorem resuming_resume {run : Runner} (around : List Waiting) {f body : Frame} {phase : Phase}
    {pending : Pending} (plain : ∀ around f m, f.parked = [] → (run around f m).Plain false (Halts false))
    (inner : ∀ m, (run (⟨f, phase, pending⟩ :: around) body m).Resuming (⟨f, phase, pending⟩ :: around)
      body (Halts false))
    (idle : phase = .cleanup ∨ pending = .proceed) (unparked : f.parked = []) (s : Sections)
    (binding : Option String) (m : Machine) :
    (resumeTrail run around f s binding phase pending body m).Resuming (⟨f, phase, pending⟩ :: around) body
      (Leads false f) := by
  cases phase with
  | guarded =>
    obtain rfl := idle.resolve_left nofun
    exact resuming_phase inner idle (plain_afterGuarded plain unparked around binding) m
  | handler =>
    obtain rfl := idle.resolve_left nofun
    exact resuming_phase inner idle
      (fun result m => plain_startCleanup plain unparked around (.ofResult result) m) m
  | cleanup => exact resuming_phase inner idle (fun result => plain_finish unparked _) m

/-- A body that is resumed dispatches the blocks again in which it waits, and no other ones. -/
theorem resuming_straight (n : Nat) (around : List Waiting) {f : Frame} (inBlocks : f.InBlocks)
    (m : Machine) :
    (straight false n around f m).Resuming around f (Halts false) := by
  induction n generalizing around f m with
  | zero => exact (Trail.Plain.error _ m).resuming
  | succ n ih =>
    obtain ⟨activation, parked⟩ := f
    cases parked with
    | nil => exact (plain_straight false (n + 1) around ⟨activation, []⟩ m rfl).resuming
    | cons p inner =>
      obtain ⟨phase, pending, body⟩ := p
      obtain ⟨⟨instruction, name, binding, found, op⟩, idle, inside⟩ := inBlocks
      -- the outermost section waits in the block at which the frame stands
      let f : Frame := ⟨activation, ⟨phase, pending, body⟩ :: inner⟩
      let waiting : Waiting := ⟨f.base, phase, pending⟩
      have executed : (instructionTrail n (straight false n) around f instruction.op m).Resuming
          (waiting :: around) ⟨body, inner⟩ (Proceeds false) := by
        rw [op]
        show (protectTrail _ around f name binding m).Resuming _ _ _
        unfold protectTrail
        split
        · exact (Trail.Plain.error _ m).resuming
        · rename_i s _
          -- the section is resumed by induction, with the sections that wait in it
          have resumed := resuming_resume around (f := f.base) (plain_straight false n)
            (fun m => ih _ (f := ⟨body, inner⟩) inside m) idle rfl s binding m
          exact ⟨resumed.resumes, resumed.silent, fun a m ended =>
            Leads.proceeds (f := f.base) found op a (resumed.value a m ended)⟩
      have whole := (executed.atSite ⟨instruction.op, f.ip⟩).andThen fun step m proceeds =>
        plain_proceed (plain_straight false n) proceeds around f.ip m
      unfold straight
      simp only [found]
      refine ⟨⟨.cons whole.resumes.chain fun e first => ?_, fun d first _ => ?_⟩, ?_, whole.value⟩
      · cases e with
        | handedOut value => trivial
        | dispatched d =>
          intro again
          obtain ⟨around', frame⟩ := whole.resumes.head d first again
          exact ⟨phase, pending, by rw [frame], around'⟩
      · cases first
        exact ⟨rfl, rfl⟩
      · exact List.forall_mem_cons.mpr ⟨rfl, whole.silent⟩

end Engine

end ObjectMachine
