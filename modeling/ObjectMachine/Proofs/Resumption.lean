import ObjectMachine.Proofs.Dispatches
/-!
Runs that stop and runs that go on. A run that stops where a value is handed out, and is resumed there, gets
as far as a run that records the value and goes on: what was left to wait is entered again as it was.
`Engine.straight_resumed` says so for any fuel, once as a lower and once as an upper bound.
-/
namespace ObjectMachine

namespace Trail

variable {α β γ : Type} {t t' t'' : Trail α}

/-- What happens apart from blocks that are dispatched again. -/
def news (t : Trail α) : List BodyEvent := t.log.filter fun e => !e.again

/-- The run was cut off. -/
def CutOff (t : Trail α) : Prop := ∃ m, t.outcome = .error .outOfFuel m

/-- Two runs do and end the same, unless the first one was cut off; blocks that are dispatched again do not
count. -/
inductive Below (t t' : Trail α) : Prop where
  | cutOff (cut : t.CutOff) (news : t.news <+: t'.news)
  | same (news : t.news = t'.news) (outcome : t.outcome = t'.outcome)

theorem Below.refl (t : Trail α) : t.Below t := .same rfl rfl

theorem Below.trans (first : t.Below t') (second : t'.Below t'') : t.Below t'' := by
  cases first with
  | cutOff cut news =>
    -- what the first run did, the second one did as well, and so did the third one
    refine .cutOff cut (news.trans ?_)
    cases second with
    | cutOff _ news' => exact news'
    | same news' => exact news' ▸ List.prefix_rfl
  | same news outcome =>
    cases second with
    | cutOff cut news' => exact .cutOff (by rwa [CutOff, outcome]) (news ▸ news')
    | same news' outcome' => exact .same (news.trans news') (outcome.trans outcome')

theorem below_of_outOfFuel (m : Machine) (t : Trail α) : Below ⟨[], .error .outOfFuel m⟩ t :=
  .cutOff ⟨m, rfl⟩ (List.nil_prefix)

theorem news_after (log : List BodyEvent) (t : Trail α) :
    (t.after log).news = log.filter (fun e => !e.again) ++ t.news :=
  List.filter_append ..

theorem Below.after (below : t.Below t') (log : List BodyEvent) : (t.after log).Below (t'.after log) := by
  cases below with
  | cutOff cut news =>
    refine .cutOff cut ?_
    simp only [news_after]
    exact (List.prefix_append_right_inj _).mpr news
  | same news outcome => exact .same (by simp only [news_after, news]) outcome

theorem news_andThen_prefix (t : Trail α) (f : α → Machine → Trail β) : t.news <+: (t.andThen f).news := by
  obtain ⟨log, ⟨a, m⟩ | ⟨e, m⟩⟩ := t
  · exact (news_after log (f a m)).symm ▸ List.prefix_append ..
  · exact List.prefix_rfl

theorem Below.andThen {f g : α → Machine → Trail β} (first : t.Below t')
    (later : ∀ a m, t.outcome = .ok a m → t'.outcome = .ok a m → (f a m).Below (g a m)) :
    (t.andThen f).Below (t'.andThen g) := by
  cases first with
  | cutOff cut news =>
    -- a run that is cut off does not get to what follows
    obtain ⟨log, outcome⟩ := t
    obtain ⟨m, rfl⟩ : ∃ m, outcome = .error .outOfFuel m := cut
    exact .cutOff ⟨m, rfl⟩ (news.trans (t'.news_andThen_prefix g))
  | same news outcome =>
    obtain ⟨log, end_⟩ := t
    obtain ⟨log', end'⟩ := t'
    obtain rfl : end_ = end' := outcome
    cases end_ with
    | error e m => exact .same news rfl
    | ok a m =>
      have rest := (later a m rfl rfl).after log
      refine rest.trans (.same ?_ rfl)
      show ((g a m).after log).news = ((g a m).after log').news
      simp only [news_after]
      exact congrArg (· ++ (g a m).news) news

theorem Below.atSite (below : t.Below t') (site : Site) : (t.atSite site).Below (t'.atSite site) := by
  cases below with
  | cutOff cut news =>
    obtain ⟨m, cut⟩ := cut
    exact .cutOff ⟨m, by simp only [Trail.atSite, cut]; rfl⟩ news
  | same news outcome => exact .same news (by simp only [Trail.atSite, outcome])

theorem Below.leaving {t t' : Trail Completion} (below : t.Below t') : t.leaving.Below t'.leaving := by
  cases below with
  | cutOff cut news =>
    obtain ⟨m, cut⟩ := cut
    exact .cutOff ⟨m.leave, by simp only [Trail.leaving, cut]⟩ news
  | same news outcome => exact .same news (by simp only [Trail.leaving, outcome])

theorem after_andThen (log : List BodyEvent) (t : Trail α) (f : α → Machine → Trail β) :
    (t.after log).andThen f = (t.andThen f).after log := by
  obtain ⟨log', ⟨a, m⟩ | ⟨e, m⟩⟩ := t
  · simp only [andThen, after, List.append_assoc]
  · rfl

theorem andThen_assoc (t : Trail α) (f : α → Machine → Trail β) (g : β → Machine → Trail γ) :
    (t.andThen f).andThen g = t.andThen fun a m => (f a m).andThen g := by
  obtain ⟨log, ⟨a, m⟩ | ⟨e, m⟩⟩ := t
  · show ((f a m).after log).andThen g = ((f a m).andThen g).after log
    exact after_andThen log (f a m) g
  · rfl

theorem after_atSite (log : List BodyEvent) (t : Trail α) (site : Site) :
    (t.after log).atSite site = (t.atSite site).after log := rfl

theorem andThen_atSite (t : Trail α) (f : α → Machine → Trail β) (site : Site) :
    (t.andThen f).atSite site = (t.atSite site).andThen fun a m => (f a m).atSite site := by
  obtain ⟨log, ⟨a, m⟩ | ⟨e, m⟩⟩ := t <;> rfl

theorem bare_of_eq_ok {o : Outcome α} {a : α} {m : Machine} (ended : (of o).outcome = .ok a m) :
    m.bare = m := by
  cases o with
  | ok b last =>
    cases ended
    exact last.bare_bare
  | error e last => cases ended

theorem eq_ok_of_atSite {t : Trail α} {site : Site} {a : α} {m : Machine}
    (ended : (t.atSite site).outcome = .ok a m) : t.outcome = .ok a m := by
  obtain ⟨log, ⟨b, last⟩ | ⟨e, last⟩⟩ := t
  · exact ended
  · cases ended

theorem ok_andThen (a : α) (m : Machine) (f : α → Machine → Trail β) :
    (⟨[], .ok a m⟩ : Trail α).andThen f = f a m := rfl

/-- One of two runs gets at most as far as the other one. -/
def Ordered (up : Bool) (t t' : Trail α) : Prop :=
  if up then t.Below t' else t'.Below t

namespace Ordered

variable {up : Bool}

theorem refl (t : Trail α) : t.Ordered up t := by
  cases up <;> exact .refl t

theorem of_below (below : t.Below t') : t.Ordered true t' := below

theorem of_eq (same : t = t') : t.Ordered up t' := same ▸ refl t

theorem trans (first : t.Ordered up t') (second : t'.Ordered up t'') : t.Ordered up t'' := by
  cases up with
  | true => exact Below.trans first second
  | false => exact Below.trans second first

theorem after (ordered : t.Ordered up t') (log : List BodyEvent) :
    (t.after log).Ordered up (t'.after log) := by
  cases up <;> exact Below.after ordered log

theorem andThen {f g : α → Machine → Trail β} (first : t.Ordered up t')
    (later : ∀ a m, t'.outcome = .ok a m → (f a m).Ordered up (g a m)) :
    (t.andThen f).Ordered up (t'.andThen g) := by
  cases up with
  | true => exact Below.andThen first fun a m _ ended => later a m ended
  | false => exact Below.andThen first fun a m ended _ => later a m ended

theorem atSite (ordered : t.Ordered up t') (site : Site) :
    (t.atSite site).Ordered up (t'.atSite site) := by
  cases up <;> exact Below.atSite ordered site

theorem leaving {t t' : Trail Completion} (ordered : t.Ordered up t') :
    t.leaving.Ordered up t'.leaving := by
  cases up <;> exact Below.leaving ordered

end Ordered

end Trail

namespace Engine

/-! ### More fuel -/

section
variable {up : Bool} {T T' : Runner} (later : ∀ around f m, (T around f m).Ordered up (T' around f m))
include later

theorem ordered_section (around : List Waiting) (f : Frame) (phase : Phase) (pending : Pending)
    (body : Frame) (m : Machine) :
    (sectionTrail T around f phase pending body m).Ordered up
      (sectionTrail T' around f phase pending body m) := by
  unfold sectionTrail
  cases m.enter with
  | error e => exact .refl _
  | ok inner => exact (later _ body inner).leaving

theorem ordered_phase {rest rest' : Except Raised (Option Ref) → Machine → Trail Step}
    (around : List Waiting) (f : Frame) (phase : Phase) (pending : Pending)
    (goesOn : ∀ result m, (rest result m).Ordered up (rest' result m)) (body : Frame) (m : Machine) :
    (phaseTrail T around f phase pending rest body m).Ordered up
      (phaseTrail T' around f phase pending rest' body m) := by
  refine (ordered_section later around f phase pending body m).andThen fun ended m _ => ?_
  cases ended with
  | yielded value body => exact .refl _
  | ended result => exact goesOn result m

variable (around : List Waiting) (f : Frame) (s : Sections)

theorem ordered_cleanup (pending : Pending) (body : Frame) (m : Machine) :
    (cleanupTrail T around f s pending body m).Ordered up (cleanupTrail T' around f s pending body m) :=
  ordered_phase later around f .cleanup pending (fun _ _ => .refl _) body m

theorem ordered_startCleanup (pending : Pending) (m : Machine) :
    (startCleanupTrail T around f s pending m).Ordered up
      (startCleanupTrail T' around f s pending m) := by
  unfold startCleanupTrail
  split
  · exact ordered_cleanup later around f s pending _ m
  · exact .refl _

theorem ordered_handler (body : Frame) (m : Machine) :
    (handlerTrail T around f s body m).Ordered up (handlerTrail T' around f s body m) :=
  ordered_phase later around f .handler .proceed
    (fun result m => ordered_startCleanup later around f s (.ofResult result) m) body m

theorem ordered_afterGuarded (binding : Option String) (result : Except Raised (Option Ref))
    (m : Machine) :
    (afterGuardedTrail T around f s binding result m).Ordered up
      (afterGuardedTrail T' around f s binding result m) := by
  unfold afterGuardedTrail
  split
  · exact (Trail.Ordered.refl _).andThen fun scope m _ => ordered_handler later around f s _ m
  · exact ordered_startCleanup later around f s _ m

theorem ordered_guarded (binding : Option String) (body : Frame) (m : Machine) :
    (guardedTrail T around f s binding body m).Ordered up
      (guardedTrail T' around f s binding body m) :=
  ordered_phase later around f .guarded .proceed
    (ordered_afterGuarded later around f s binding) body m

theorem ordered_resume (binding : Option String) (phase : Phase) (pending : Pending) (body : Frame)
    (m : Machine) :
    (resumeTrail T around f s binding phase pending body m).Ordered up
      (resumeTrail T' around f s binding phase pending body m) := by
  cases phase with
  | guarded => exact ordered_guarded later around f s binding body m
  | handler => exact ordered_handler later around f s body m
  | cleanup => exact ordered_cleanup later around f s pending body m

omit s in
theorem ordered_protect (block : String) (binding : Option String) (m : Machine) :
    (protectTrail T around f block binding m).Ordered up (protectTrail T' around f block binding m) := by
  unfold protectTrail
  split
  · exact .refl _
  · split
    · exact ordered_guarded later around f _ binding _ m
    · exact ordered_resume later around _ _ binding _ _ _ m

omit f s in
theorem ordered_proceed (records : Bool) (ip : Nat) (step : Step) (m : Machine) :
    (proceedTrail records T around ip step m).Ordered up
      (proceedTrail records T' around ip step m) := by
  unfold proceedTrail
  split
  · exact later around _ m
  · exact .refl _
  · split
    · exact (later around _ m).after _
    · exact .refl _

end

theorem below_of_execute (n more : Nat) (f : Frame) (op : Opcode) (m : Machine) :
    (Trail.of ((execute (reentry n) f op).runUnder .never m)).Below
      (.of ((execute (reentry (n + more)) f op).runUnder .never m)) := by
  have below := below_execute (r := ⟨false, false⟩) (below_reentry n more) f op
  have ends : (∃ m', (execute (reentry n) f op).runUnder .never m = .error .outOfFuel m') ∨ _ :=
    below.runUnder_eq m
  rcases ends with ⟨m', cut⟩ | same
  · rw [cut]
    exact Trail.below_of_outOfFuel m'.bare _
  · rw [same]
    exact .refl _

theorem below_instruction {T T' : Runner} (later : ∀ around f m, (T around f m).Below (T' around f m))
    (n more : Nat) (around : List Waiting) (f : Frame) (op : Opcode) (m : Machine) :
    (instructionTrail n T around f op m).Below (instructionTrail (n + more) T' around f op m) := by
  cases op with
  | tryBlock block binding =>
    exact ordered_protect (fun around f m => Trail.Ordered.of_below (later around f m)) around f block
      binding m
  | _ => exact below_of_execute n more f _ m

/-- With more fuel, a body runs as far as with less, and further. -/
theorem below_straight (records : Bool) (n more : Nat) (around : List Waiting) (f : Frame) (m : Machine) :
    (straight records n around f m).Below (straight records (n + more) around f m) := by
  -- by induction on the lesser fuel; a section runs with one unit less than its block
  induction n generalizing around f m with
  | zero => exact Trail.below_of_outOfFuel m _
  | succ n ih =>
    rw [Nat.add_right_comm]
    unfold straight
    split
    · exact .refl _
    · refine Trail.Below.after (Trail.Below.andThen ?_ fun step m _ _ => ?_) _
      · exact (below_instruction ih n more around f _ m).atSite _
      · exact ordered_proceed (fun around f m => Trail.Ordered.of_below (ih around f m)) around records
          f.ip step m

/-! ### Runs that stop and are resumed -/

/-- Resumes a body that handed out a value. -/
def resumed (run : Runner) (around : List Waiting) (completion : Completion) (m : Machine) :
    Trail Completion :=
  match completion with
  | .done value => ⟨[], .ok (.done value) m⟩
  | .yielded value f => (run around f m).after [.handedOut value]

/-- Resumes a section that handed out a value. -/
def resumedSection (run : Runner) (around : List Waiting) (f : Frame) (phase : Phase) (pending : Pending)
    (ended : SectionEnd) (m : Machine) : Trail SectionEnd :=
  match ended with
  | .yielded value body => (sectionTrail run around f phase pending body m).after [.handedOut value]
  | .ended result => ⟨[], .ok (.ended result) m⟩

/-- Resumes an instruction that handed out a value from within. -/
def resumedStep (execute : Frame → Machine → Trail Step) (step : Step) (m : Machine) : Trail Step :=
  match step with
  | .suspended value f => (execute f m).after [.handedOut value]
  | step => ⟨[], .ok step m⟩

/-- Runs from bare machines lead to bare machines, at the same depth and under the same limit. -/
def Keeps (run : Runner) : Prop :=
  ∀ around f (m : Machine), m.bare = m →
    (run around f m).outcome.machine.bare = (run around f m).outcome.machine ∧
      (run around f m).outcome.machine.nesting = m.nesting

theorem stops_finish {up : Bool} (f : Frame) (s : Sections) (pending : Pending)
    (execute : Frame → Machine → Trail Step) (m : Machine) :
    (finishTrail f s pending m).Ordered up ((finishTrail f s pending m).andThen (resumedStep execute)) := by
  cases pending <;> exact .refl _

section
variable {up : Bool} {T S T' : Runner}
  (later : ∀ around f m, (T around f m).Ordered up (T' around f m)) (keeps : Keeps S)
  (stops : ∀ around f (m : Machine), m.bare = m →
    (T around f m).Ordered up ((S around f m).andThen (resumed T' around)))

theorem Keeps.section (keeps : Keeps S) (around : List Waiting) (f : Frame) (phase : Phase)
    (pending : Pending) (body : Frame) {m : Machine} (bare : m.bare = m) :
    (sectionTrail S around f phase pending body m).outcome.machine.bare =
      (sectionTrail S around f phase pending body m).outcome.machine := by
  have entering := m.bare_enter
  rw [bare] at entering
  unfold sectionTrail
  cases entered : m.enter with
  | error e => exact bare
  | ok inner =>
    rw [entered] at entering
    have last := (keeps (⟨f, phase, pending⟩ :: around) body inner (Except.ok.inj entering).symm).1
    simp only [Trail.leaving]
    generalize (S (⟨f, phase, pending⟩ :: around) body inner).outcome = o at last ⊢
    rcases o with ⟨_ | _, _⟩ | ⟨_ | _, _⟩ <;> exact congrArg Machine.leave last

include keeps stops

theorem stops_section (around : List Waiting) (f : Frame) (phase : Phase) (pending : Pending)
    (body : Frame) {m : Machine} (bare : m.bare = m) :
    (sectionTrail T around f phase pending body m).Ordered up
      ((sectionTrail S around f phase pending body m).andThen
        (resumedSection T' around f phase pending)) := by
  have entering := m.bare_enter
  rw [bare] at entering
  cases entered : m.enter with
  | error e =>
    simp only [sectionTrail, entered]
    exact .refl _
  | ok inner =>
    rw [entered] at entering
    have bareInner : inner.bare = inner := (Except.ok.inj entering).symm
    have whole := (stops (⟨f, phase, pending⟩ :: around) body inner bareInner).leaving
    have nesting := (keeps (⟨f, phase, pending⟩ :: around) body inner bareInner).2
    simp only [sectionTrail, entered]
    refine whole.trans (.of_eq ?_)
    generalize S (⟨f, phase, pending⟩ :: around) body inner = trail at nesting ⊢
    obtain ⟨log, ⟨completion, last⟩ | ⟨e, last⟩⟩ := trail
    · cases completion with
      | done value => rfl
      | yielded value body =>
        -- the section is entered again as it was left
        have again : last.leave.enter = .ok last := Machine.enter_leave entered nesting
        simp only [Trail.andThen, Trail.leaving, resumed, resumedSection, sectionTrail, again]
        rfl
    · cases e <;>
        simp only [Trail.andThen, Trail.leaving, Trail.after, resumedSection, List.append_nil]

theorem stops_phase {rest rest' : Except Raised (Option Ref) → Machine → Trail Step}
    {restS : Except Raised (Option Ref) → Machine → Trail Step} {execute : Frame → Machine → Trail Step}
    (around : List Waiting) (f : Frame) (phase : Phase) (pending : Pending)
    (more : ∀ result m, (rest result m).Ordered up (rest' result m))
    (goesOn : ∀ result (m : Machine), m.bare = m →
      (rest result m).Ordered up ((restS result m).andThen (resumedStep execute)))
    (resumes : ∀ body m,
      execute (park f phase pending body) m = phaseTrail T' around f phase pending rest' body m)
    (body : Frame) {m : Machine} (bare : m.bare = m) :
    (phaseTrail T around f phase pending rest body m).Ordered up
      ((phaseTrail S around f phase pending restS body m).andThen (resumedStep execute)) := by
  let goOn (rest : Except Raised (Option Ref) → Machine → Trail Step) (ended : SectionEnd) (m : Machine) :
      Trail Step :=
    match ended with
    | .yielded value body => ⟨[], .ok (.suspended value (park f phase pending body)) m⟩
    | .ended result => rest result m
  -- first the section is split where it stops, then what follows it is compared
  have first := (stops_section keeps stops around f phase pending body bare).andThen
    (f := goOn rest) (g := goOn rest) fun _ _ _ => .refl _
  refine first.trans ?_
  unfold phaseTrail
  rw [Trail.andThen_assoc, Trail.andThen_assoc]
  refine (Trail.Ordered.refl _).andThen fun ended m' ran => ?_
  have bare' : m'.bare = m' := by
    have last := keeps.section around f phase pending body bare
    rwa [ran] at last
  cases ended with
  | ended result => exact goesOn result m' bare'
  | yielded value body =>
    -- the block waits with the section; dispatched again, it goes on where the section goes on
    simp only [resumedSection, Trail.after_andThen, Trail.ok_andThen, resumedStep, resumes]
    refine Trail.Ordered.after ((Trail.Ordered.refl _).andThen fun ended m _ => ?_) _
    cases ended with
    | yielded value body => exact .refl _
    | ended result => exact more result m

include later

variable {f : Frame} {s : Sections} {binding : Option String} {execute : Frame → Machine → Trail Step}
  (around : List Waiting)
  (resumes : ∀ phase pending body m,
    execute (park f phase pending body) m = resumeTrail T' around f s binding phase pending body m)
include resumes

omit later in
theorem stops_cleanup (pending : Pending) (body : Frame) {m : Machine} (bare : m.bare = m) :
    (cleanupTrail T around f s pending body m).Ordered up
      ((cleanupTrail S around f s pending body m).andThen (resumedStep execute)) :=
  stops_phase keeps stops around f .cleanup pending (fun _ _ => .refl _)
    (fun _ m _ => stops_finish f s _ execute m) (resumes .cleanup pending) body bare

omit later in
theorem stops_startCleanup (pending : Pending) {m : Machine} (bare : m.bare = m) :
    (startCleanupTrail T around f s pending m).Ordered up
      ((startCleanupTrail S around f s pending m).andThen (resumedStep execute)) := by
  unfold startCleanupTrail
  split
  · exact stops_cleanup keeps stops around resumes pending _ bare
  · exact stops_finish f s pending execute m

theorem stops_handler (body : Frame) {m : Machine} (bare : m.bare = m) :
    (handlerTrail T around f s body m).Ordered up
      ((handlerTrail S around f s body m).andThen (resumedStep execute)) :=
  stops_phase keeps stops around f .handler .proceed
    (fun result m => ordered_startCleanup later around f s (.ofResult result) m)
    (fun _ _ bare => stops_startCleanup keeps stops around resumes _ bare)
    (resumes .handler .proceed) body bare

theorem stops_afterGuarded (result : Except Raised (Option Ref)) {m : Machine} (bare : m.bare = m) :
    (afterGuardedTrail T around f s binding result m).Ordered up
      ((afterGuardedTrail S around f s binding result m).andThen (resumedStep execute)) := by
  unfold afterGuardedTrail
  split
  · rw [Trail.andThen_assoc]
    refine (Trail.Ordered.refl _).andThen fun scope m' bound => ?_
    exact stops_handler later keeps stops around resumes _ (Trail.bare_of_eq_ok bound)
  · exact stops_startCleanup keeps stops around resumes _ bare

theorem stops_guarded (body : Frame) {m : Machine} (bare : m.bare = m) :
    (guardedTrail T around f s binding body m).Ordered up
      ((guardedTrail S around f s binding body m).andThen (resumedStep execute)) :=
  stops_phase keeps stops around f .guarded .proceed (ordered_afterGuarded later around f s binding)
    (fun result _ bare => stops_afterGuarded later keeps stops around resumes result bare)
    (resumes .guarded .proceed) body bare

theorem stops_resume (phase : Phase) (pending : Pending) (body : Frame) {m : Machine} (bare : m.bare = m) :
    (resumeTrail T around f s binding phase pending body m).Ordered up
      ((resumeTrail S around f s binding phase pending body m).andThen (resumedStep execute)) := by
  cases phase with
  | guarded => exact stops_guarded later keeps stops around resumes body bare
  | handler => exact stops_handler later keeps stops around resumes body bare
  | cleanup => exact stops_cleanup keeps stops around resumes pending body bare

omit resumes in
theorem stops_protect (f : Frame) (block : String) (binding : Option String) {m : Machine}
    (bare : m.bare = m) :
    (protectTrail T around f block binding m).Ordered up
      ((protectTrail S around f block binding m).andThen
        (resumedStep fun g => protectTrail T' around g block binding)) := by
  have resumes (s : Sections) (found : Sections.find? f block = some s) (phase : Phase)
      (pending : Pending) (body : Frame) (m : Machine) :
      protectTrail T' around (park f.base phase pending body) block binding m =
        resumeTrail T' around f.base s binding phase pending body m := by
    -- a block finds its sections from its own instruction, whatever waits in it
    have found' : Sections.find? (park f.base phase pending body) block = some s := found
    simp only [protectTrail, found']
    rfl
  unfold protectTrail
  split <;> rename_i found
  · exact .refl _
  · split <;> rename_i waits
    · have whole : f = f.base := by
        obtain ⟨body, parked⟩ := f
        obtain rfl : parked = [] := waits
        rfl
      rw [whole]
      exact stops_guarded later keeps stops around (resumes _ found) _ bare
    · exact stops_resume later keeps stops around (resumes _ found) _ _ _ bare

end

/-- Whichever of the two runs has less fuel, it gets at most as far: the run that records values with `p`, or
the run that stops with `n` and is resumed with `q`. -/
def Fuelled (up : Bool) (n p q : Nat) : Prop := if up then p ≤ n ∧ p ≤ q else n + q ≤ p

theorem keeps_straight (n : Nat) : Keeps (straight false n) := fun around f _ bare =>
  (mirrors_runFrame n around f).kept ((below_reentry n 0).runFrame ⟨false, false⟩ f []) bare

theorem stops_instruction {up : Bool} {n p q : Nat} {T S T' : Runner} (enough : Fuelled up n p q)
    (later : ∀ around f m, (T around f m).Ordered up (T' around f m)) (keeps : Keeps S)
    (stops : ∀ around f (m : Machine), m.bare = m →
      (T around f m).Ordered up ((S around f m).andThen (resumed T' around)))
    (around : List Waiting) (f : Frame) (op : Opcode) {m : Machine} (bare : m.bare = m) :
    (instructionTrail p T around f op m).Ordered up
      ((instructionTrail n S around f op m).andThen
        (resumedStep fun g => instructionTrail q T' around g op)) := by
  have other (plain : ∀ block binding, op ≠ .tryBlock block binding) :
      (Trail.of ((execute (reentry p) f op).runUnder .never m)).Ordered up
        ((Trail.of ((execute (reentry n) f op).runUnder .never m)).andThen
          (resumedStep fun g => instructionTrail q T' around g op)) := by
    -- nothing but a block stops from within, so there is nothing to resume
    have unresumed : (Trail.of ((execute (reentry n) f op).runUnder .never m)).andThen
        (resumedStep fun g => instructionTrail q T' around g op) =
        .of ((execute (reentry n) f op).runUnder .never m) := by
      cases ran : (execute (reentry n) f op).runUnder .never m with
      | error e m' => rfl
      | ok step m' =>
        have stays := execute_stays f op plain .never m step m' ran
        cases step with
        | suspended => exact stays.elim
        | _ => rfl
    rw [unresumed]
    cases up with
    | true =>
      obtain ⟨more, rfl⟩ := Nat.exists_eq_add_of_le enough.1
      exact below_of_execute p more f op m
    | false =>
      obtain ⟨more, rfl⟩ := Nat.exists_eq_add_of_le (Nat.le_of_add_right_le enough)
      exact below_of_execute n more f op m
  cases op with
  | tryBlock block binding => exact stops_protect later keeps stops around f block binding bare
  | _ => exact other nofun

theorem ordered_straight {up : Bool} {p q : Nat} (enough : if up then p ≤ q else q ≤ p)
    (around : List Waiting) (f : Frame) (m : Machine) :
    (straight true p around f m).Ordered up (straight true q around f m) := by
  cases up with
  | true =>
    obtain ⟨more, rfl⟩ := Nat.exists_eq_add_of_le enough
    exact below_straight true p more around f m
  | false =>
    obtain ⟨more, rfl⟩ := Nat.exists_eq_add_of_le enough
    exact below_straight true q more around f m

theorem Fuelled.ordered {up : Bool} {n p q : Nat} (enough : Fuelled up n p q) :
    if up then p ≤ q else q ≤ p := by
  cases up with
  | true => exact enough.2
  | false => exact Nat.le_of_add_left_le enough

/-- Where a block handed out a value, it is dispatched again and goes on with its section. -/
theorem straight_again (up : Bool) (q : Nat) (around : List Waiting) {g : Frame} {instruction : Instruction}
    (found : g.code.at? g.ip = some instruction) (waits : g.parked ≠ []) (m : Machine) :
    (((instructionTrail q (straight true q) around g instruction.op m).atSite
        ⟨instruction.op, g.ip⟩).andThen (proceedTrail true (straight true q) around g.ip)).Ordered up
      (straight true (q + 1) around g m) := by
  have again : (BodyEvent.dispatched ⟨around, g, m⟩).again = true := by
    simpa only [BodyEvent.again, Dispatch.again, Bool.not_eq_true', List.isEmpty_eq_false_iff] using waits
  unfold straight
  simp only [found]
  have news (t : Trail Completion) : t.news = (t.after [.dispatched ⟨around, g, m⟩]).news := by
    simp only [Trail.news_after, List.filter_cons, again, Bool.not_true, Bool.false_eq_true, if_false,
      List.filter_nil, List.nil_append]
  cases up
  · exact .same (news _).symm rfl
  · exact .same (news _) rfl

/-- What follows an instruction: the run that stops goes on, or it is resumed. -/
theorem stops_proceed {up : Bool} {n p q : Nat} (enough : Fuelled up n p q)
    (stops : ∀ around f (m : Machine), m.bare = m → (straight true p around f m).Ordered up
      ((straight false n around f m).andThen (resumed (straight true q) around)))
    (around : List Waiting) (ip : Nat) (step : Step) {m : Machine} (bare : m.bare = m) :
    (proceedTrail true (straight true p) around ip step m).Ordered up
      ((proceedTrail false (straight false n) around ip step m).andThen
        (resumed (straight true q) around)) := by
  unfold proceedTrail
  split
  · exact stops around _ m bare
  · exact .refl _
  · exact Trail.Ordered.after (ordered_straight enough.ordered around _ m) _

/-- A run that stops where a value is handed out, and is resumed there, gets as far as a run that records
the value and goes on. -/
theorem straight_resumed {up : Bool} {n p q : Nat} (enough : Fuelled up n p q) (around : List Waiting)
    (f : Frame) {m : Machine} (bare : m.bare = m) :
    (straight true p around f m).Ordered up
      ((straight false n around f m).andThen (resumed (straight true q) around)) := by
  induction n generalizing p q around f m with
  | zero =>
    cases up with
    | true =>
      obtain rfl : p = 0 := Nat.le_zero.mp enough.1
      exact Trail.below_of_outOfFuel m _
    | false => exact Trail.below_of_outOfFuel m _
  | succ n ih =>
    cases p with
    | zero =>
      cases up with
      | true => exact Trail.below_of_outOfFuel m _
      | false =>
        have none : n + 1 + q ≤ 0 := enough
        omega
    | succ p =>
      have less : Fuelled up n p q := by
        cases up <;> simp only [Fuelled] at enough ⊢ <;> grind
      have least : Fuelled up n p (q - 1) := by
        cases up <;> simp only [Fuelled] at enough ⊢ <;> grind
      unfold straight
      split <;> rename_i found
      · exact .refl _
      rename_i instruction
      rw [Trail.after_andThen, Trail.andThen_assoc]
      refine Trail.Ordered.after ?_ _
      -- the run that stops is split at the first value from within the instruction, which is executed
      -- again when it is resumed
      have executed := (stops_instruction least (fun around f m => ordered_straight least.ordered around f m)
        (keeps_straight n) (fun around f m bare => ih least around f bare)
        around f instruction.op bare).atSite ⟨instruction.op, f.ip⟩
      refine (executed.andThen (g := proceedTrail true (straight true p) around f.ip)
        fun _ _ _ => .refl _).trans ?_
      rw [Trail.andThen_atSite, Trail.andThen_assoc]
      refine (Trail.Ordered.refl _).andThen fun step m' ran => ?_
      obtain ⟨last, executed, rfl⟩ := (mirrors_instruction n (mirrors_runFrame n) around f
        instruction.op).run_of_ok (below_execute (r := ⟨false, false⟩) (below_reentry n 0) f _) bare
        (Trail.eq_ok_of_atSite ran)
      cases step with
      | suspended value g =>
        obtain ⟨same, waits⟩ := suspended_waits executed
        -- the frame waits at the same instruction
        have activation : g.toActivation = f.toActivation := by
          show g.base.toActivation = f.base.toActivation
          rw [same]
        have found' : g.code.at? g.ip = some instruction := by rw [activation, found]
        have ip : f.ip = g.ip := by rw [activation]
        simp only [resumedStep, Trail.after_atSite, Trail.after_andThen, ip]
        refine Trail.Ordered.after ?_ _
        cases q with
        | zero =>
          cases up with
          | true => exact absurd enough.2 (Nat.not_succ_le_zero p)
          | false => exact Trail.below_of_outOfFuel last.bare _
        | succ q =>
          have again := straight_again up q around found' waits last.bare
          refine Trail.Ordered.trans (Trail.Ordered.andThen (.refl _) fun step m _ => ?_) again
          exact ordered_proceed (fun around f m => ordered_straight least.ordered around f m)
            around true g.ip step m
      | _ =>
        exact stops_proceed less (fun around f m bare => ih less around f bare) around f.ip _ last.bare_bare

end Engine

end ObjectMachine
