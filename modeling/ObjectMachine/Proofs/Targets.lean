import Mathlib.Logic.Relation
import ObjectMachine.Proofs.Courses
import ObjectMachine.Proofs.Dispatches
/-!
Where instructions lead. A frame counts positions from the start of its own code, which may have been cut out of other
code. Every position that one of its instructions computes is a position of that code, or the one behind it: the target
of a jump, the end of a body that is passed over, and where the code goes on behind a protected block. So a frame never
leaves its code, for as long as it runs and however often it waits and is resumed.
-/
namespace ObjectMachine

/-- A step stays in the code of its frame: it goes on at a position of the code, or behind it. -/
def Step.StaysIn (f : Frame) : Step → Prop
  | .next g | .yielded _ g => g.code = f.code
  | .jump target g => g.code = f.code ∧ target ≤ f.code.size
  | .suspended _ g => g.code = f.code ∧ g.ip = f.ip

/-- A frame goes on in its code or waits there: at a position of the code, or behind it. -/
def Engine.Progress.StaysIn (f : Frame) : Engine.Progress → Prop
  | .running g | .complete (.yielded _ g) => g.code = f.code ∧ g.ip ≤ f.code.size
  | .complete (.done _) => True

namespace Engine

/-! ### Single instructions -/

namespace Gives

variable {α : Type} {P : α → Prop} {x : Engine α}

theorem keeping (gives : Gives P x) (nodes : List Node) : Gives P (Engine.keeping nodes x) := by
  intro due m a m' ended
  simp only [runUnder] at ended
  cases ran : x.runUnder due (m.pushRoots nodes) with
  | ok b m₁ =>
    rw [ran] at ended
    cases ended
    exact gives due _ a m₁ ran
  | error e m₁ =>
    rw [ran] at ended
    cases ended

theorem executing (gives : Gives P x) (site : Site) : Gives P (Engine.executing site x) := by
  intro due m a m' ended
  simp only [runUnder] at ended
  cases ran : x.runUnder due m with
  | ok b m₁ =>
    rw [ran] at ended
    cases ended
    exact gives due m a m' ran
  | error e m₁ =>
    rw [ran] at ended
    cases ended

end Gives

theorem Lands.staysIn {f : Frame} {op : Opcode} {step : Step} (lands : Lands f op step) : step.StaysIn f := by
  cases step with
  | next g => exact Frame.code_of_unloaded lands
  | jump target g => exact ⟨Frame.code_of_unloaded lands.1, lands.2⟩
  | yielded value g => exact Frame.code_of_unloaded lands.2
  | suspended value g => exact lands.elim

/-- A protected block goes on behind its last section, or waits where it is. -/
theorem protect_staysIn (k : Reentry) (f : Frame) (block : String) (binding : Option String) :
    Gives (Step.StaysIn f) (protect k f block binding) := by
  intro due m step m' ended
  cases found : Sections.find? f block with
  | none =>
    simp only [protect, found] at ended
    cases ended
  | some s =>
    obtain ⟨c, -, shows⟩ := protect_follows due [] k m found binding
    have inside := (Sections.within_of_find? found).inside
    rw [ended] at shows
    cases shows with
    | waiting _ _ same _ =>
      exact ⟨show _ = f.base.code from congrArg (fun f => f.code) same,
        show _ = f.base.ip from congrArg (fun f => f.ip) same⟩
    | finished delivered => cases delivered <;> exact ⟨rfl, inside⟩

/-- Whatever its instruction is, a frame stays in its code. -/
theorem execute_staysIn (k : Reentry) (f : Frame) (op : Opcode) : Gives (Step.StaysIn f) (execute k f op) := by
  by_cases block : ∃ name binding, op = .tryBlock name binding
  · obtain ⟨name, binding, rfl⟩ := block
    exact protect_staysIn k f name binding
  by_cases scopes : op = .enterScope ∨ op = .exitScope
  · refine (execute_scopes f scopes).mono ?_
    rintro _ ⟨scope, rfl⟩
    rfl
  · refine (execute_lands f op (fun name binding same => block ⟨name, binding, same⟩) (not_or.mp scopes)).mono ?_
    exact fun _ lands => lands.staysIn

theorem settle_staysIn {f : Frame} {step : Step} (inside : f.ip < f.code.size) (stays : step.StaysIn f) :
    (settle f.ip step).StaysIn f := by
  have proceed {g : Frame} (code : g.code = f.code) {ip : Nat} (within : ip ≤ f.code.size) :
      (settle.proceed { g with ip }).StaysIn f := by
    simp only [settle.proceed]
    split
    · trivial
    · exact ⟨code, within⟩
  cases step with
  | next g => exact proceed stays inside
  | jump target g => exact proceed stays.1 stays.2
  | yielded value g => exact ⟨stays, inside⟩
  | suspended value g => exact ⟨stays.1, stays.2.trans_le (Nat.le_of_lt inside)⟩

theorem runInstruction_staysIn (k : Reentry) (f : Frame) : Gives (Progress.StaysIn f) (runInstruction k f) := by
  unfold runInstruction
  split
  · exact .pure trivial
  · rename_i instruction found
    have inside := Code.lt_size_of_at? found
    refine .after fun _ => .after fun _ => .after fun _ => ?_
    refine (((execute_staysIn k f instruction.op).keeping _).executing _).bind fun step stays => ?_
    exact .pure (settle_staysIn inside stays)

end Engine

/-! ### Runs -/

namespace Standing

variable {due : Schedule} {p q : Standing}

theorem staysIn_of_progress {progress : Engine.Progress} {m : Machine} (goes : p.progress due = .ok progress m) :
    progress.StaysIn p.frame := by
  obtain ⟨fuel, f, start⟩ := p
  cases fuel with
  | zero => cases goes
  | succ n => exact Engine.runInstruction_staysIn (Engine.reentry n) f due start progress m goes

/-- A run that goes on, or is resumed, is in the same code, at a position of it or behind it. -/
theorem Moves.staysIn (moves : p.Moves due q) :
    q.frame.code = p.frame.code ∧ q.frame.ip ≤ p.frame.code.size := by
  cases moves with
  | on goes => exact staysIn_of_progress goes
  | resumed waits => exact staysIn_of_progress waits

/-- So it stays there. -/
theorem staysIn_of_moves (inside : p.frame.ip ≤ p.frame.code.size) (moves : Relation.ReflTransGen (Moves due) p q) :
    q.frame.code = p.frame.code ∧ q.frame.ip ≤ p.frame.code.size := by
  induction moves with
  | refl => exact ⟨rfl, inside⟩
  | tail _ last ih =>
    obtain ⟨same, _⟩ := ih
    have stays := last.staysIn
    rw [same] at stays
    exact stays

end Standing

/-! ### Slices keep tags -/

/-- A slice reads as the stretch of code it was cut out of, with every tag where the code has it; it shows in a window
on the same instructions. A body that is found is exactly what stands between its two instructions, and however deep
the bodies are from which code was cut out, it is one stretch of the whole. The instructions of a frame lead nowhere
but to positions of its code and the one behind it, so that the frame is there for as long as it runs. -/
theorem Code.slices_keep_tags {c : Code} {a b : Nat} (ordered : a ≤ b) (inside : b ≤ c.size) :
    c.CutOut a b (c.slice a b) ∧
    (∀ w : Window, w.code = c → ∃ v : Window,
      v.storage = w.storage ∧ v.start = w.start + a ∧ v.stop = w.start + b ∧ v.code = c.slice a b) ∧
    (∀ start tag i, c.findTagFrom? start tag = some i ↔ c.First tag start i) ∧
    (∀ start tag body, c.bodyFrom? start tag = some body → c.Encloses start tag body ∧
      start ≤ body.start ∧ body.start < body.stop ∧ body.stop < c.size) ∧
    (∀ d, c.Nested d → ∃ first last, first ≤ last ∧ last ≤ c.size ∧ c.CutOut first last d) ∧
    (∀ f : Frame, f.code = c → (∀ block s, Sections.find? f block = some s → s.Within f) ∧
      ∀ k op, (Engine.execute k f op).Gives (Step.StaysIn f)) ∧
    ∀ due (p q : Standing), p.frame.code = c → p.frame.ip ≤ c.size →
      Relation.ReflTransGen (Standing.Moves due) p q → q.frame.code = c ∧ q.frame.ip ≤ c.size := by
  refine ⟨cutOut_slice ordered inside, ?_, fun _ _ _ => findTagFrom?_eq_some_iff, ?_,
    fun _ nested => nested.exists_cutOut, ?_, ?_⟩
  · rintro w rfl
    have fits : b ≤ w.stop - w.start := w.size_code ▸ inside
    exact ⟨w.narrow a b ordered fits, rfl, rfl, rfl, w.code_narrow ordered fits⟩
  · intro start tag body found
    have encloses := encloses_of_bodyFrom? found
    exact ⟨encloses, encloses.opens.behind, encloses.start_lt_stop, encloses.stop_lt_size⟩
  · rintro f rfl
    exact ⟨fun _ _ found => Sections.within_of_find? found, fun k op => Engine.execute_staysIn k f op⟩
  · rintro due p q rfl within moves
    exact Standing.staysIn_of_moves within moves

/-- A body in a body, with the same tags in both. -/
def Code.nestedBodies : Code := .ofList
  [⟨.pushInt 1, none⟩, ⟨.bodyStart "outer end", some "body"⟩, ⟨.bodyStart "inner end", some "body"⟩,
    ⟨.nop, some "here"⟩, ⟨.bodyEnd, some "inner end"⟩, ⟨.nop, some "here"⟩, ⟨.bodyEnd, some "outer end"⟩,
    ⟨.nop, some "here"⟩]

/-- In the outer body the tags count from its own start, and its end is not in it. -/
theorem Code.slices_keep_tags_nestedBodies :
    2 ≤ 6 ∧ 6 ≤ nestedBodies.size ∧
      (nestedBodies.slice 2 6).findTagFrom? 0 "here" = some 1 ∧
      (nestedBodies.slice 2 6).findTagFrom? 2 "here" = some 3 ∧
      (nestedBodies.slice 2 6).findTagFrom? 4 "here" = none ∧
      (nestedBodies.slice 2 6).findTagFrom? 0 "outer end" = none ∧
      (nestedBodies.slice 2 6).slice 1 2 = nestedBodies.slice 3 4 := by
  have ordered : 2 ≤ 6 := by decide
  have inside : 6 ≤ nestedBodies.size := by decide
  obtain ⟨cut, -⟩ := slices_keep_tags ordered inside
  refine ⟨ordered, inside, ?_, ?_, ?_, ?_, cut.slices 1 2 (by decide) (by decide)⟩
  all_goals
    rw [cut.tags]
    decide +kernel

end ObjectMachine
