import ObjectMachine.Proofs.Fuel.Run
/-!
What the computations of the engine do to a machine, from the start to the end. A relation between the
two machines that holds for every operation, and that goes with the nesting of calls and the keeping of
roots, holds for every computation. Asking a generator for an item may be treated as a whole.
-/
namespace ObjectMachine

/-- A relation between the machines before and after a computation that uses certain rights goes with
everything computations are put together from. -/
structure Rights.Carries (due : Schedule) (R : Rights → Machine → Machine → Prop) : Prop where
  /-- Nothing happens. -/
  refl : ∀ r m, R r m m
  /-- One thing happens after another. -/
  trans : ∀ {r m m' m''}, R r m m' → R r m' m'' → R r m m''
  /-- An operation is performed. -/
  act : ∀ {r m} {α : Type} (o : Op α), o.Permitted r → R r m (o.perform due m).machine
  /-- Roots are added for a while. -/
  keeping : ∀ {r m m'} (nodes : List Node), R { r with roots := true } (m.pushRoots nodes) m' →
    R r m (m'.truncateRoots m.roots.size)
  /-- Something happens one call deeper. -/
  nested : ∀ {r m inner m'}, m.enter = .ok inner → R r inner m' → R r m m'.leave
  /-- An event is reported. -/
  observe : ∀ r m e, R r m (m.observe e)
  /-- A generator is over. -/
  finish : ∀ {r} (m : Machine) (generator : Ref), r.generators = true →
    R r m (m.withHeap fun h => h.modify generator (Change.generator .finished).apply)
  /-- A generator is asked for an item. -/
  generator : ∀ {r m} {k : Reentry} {generator : Ref},
    (∀ f m, R { r with generators := false } m ((k.runFrame f).runUnder due m).machine) →
    R { r with generators := true } m ((Engine.generatorNext k generator).runUnder due m).machine →
    R r m ((Engine.generatorNext k generator).runUnder due m).machine

namespace Engine

variable {α : Type} {kept : List Ref} {r : Rights} {x y : Engine α} {due : Schedule}
  {R : Rights → Machine → Machine → Prop}

/-- What is carried by everything computations are put together from holds of every computation. -/
theorem BelowWith.carried (carries : Rights.Carries due R) (below : BelowWith kept r x y) (m : Machine) :
    R r m (x.runUnder due m).machine := by
  induction below generalizing m with
  | outOfFuel y => exact carries.refl _ m
  | give a => exact carries.refl _ m
  | throw e => exact carries.refl _ m
  | act permitted => exact carries.act _ permitted
  | @andThen _ _ _ _ x _ f _ _ _ _ _ ihx ihf =>
    have first := ihx m
    simp only [runUnder]
    cases ran : x.runUnder due m with
    | ok a m' =>
      rw [ran] at first
      exact carries.trans first (ihf a ⟨due, m, m', ran⟩ m')
    | error e m' =>
      rw [ran] at first
      exact first
  | @keeping _ _ _ x _ nodes _ ih =>
    have inner := ih (m.pushRoots nodes)
    simp only [runUnder]
    cases ran : x.runUnder due (m.pushRoots nodes) <;> rw [ran] at inner <;>
      exact carries.keeping nodes inner
  | holding _ _ ih => exact ih m
  | @executing _ _ _ x _ _ _ ih =>
    have inner := ih m
    simp only [runUnder]
    cases ran : x.runUnder due m <;> rw [ran] at inner <;> exact inner
  | @calling _ r _ x _ name _ _ ih =>
    cases entered : m.enter with
    | error e => simp only [runUnder, entered]; exact carries.refl r m
    | ok inner =>
      simp only [runUnder, entered]
      have last := carries.trans (carries.observe r inner (.call name)) (ih (inner.observe (.call name)))
      cases ran : x.runUnder due (inner.observe (.call name)) <;> rw [ran] at last <;>
        exact carries.nested entered (carries.trans last (carries.observe r _ .leave))
  | @nested _ r _ x _ _ ih =>
    cases entered : m.enter with
    | error e => simp only [runUnder, entered]; exact carries.refl r m
    | ok inner =>
      simp only [runUnder, entered]
      have last := ih inner
      cases ran : x.runUnder due inner <;> rw [ran] at last <;> exact carries.nested entered last
  | @inSection _ r x _ _ _ _ ih =>
    cases entered : m.enter with
    | error e => simp only [runUnder, entered]; exact carries.refl r m
    | ok inner =>
      simp only [runUnder, entered]
      have last := ih inner
      cases ran : x.runUnder due inner with
      | ok a m' =>
        rw [ran] at last
        exact carries.nested entered last
      | error e m' =>
        rw [ran] at last
        have left := carries.nested entered last
        cases e with
        | raised e => exact left
        | _ => exact carries.trans left (carries.observe r _ .tryExit)
  | @resuming _ r x _ generator _ right _ ih =>
    cases entered : m.enter with
    | error e => simp only [runUnder, entered]; exact carries.refl r m
    | ok inner =>
      simp only [runUnder, entered]
      have last := carries.trans (carries.observe r inner .resume) (ih (inner.observe .resume))
      cases ran : x.runUnder due (inner.observe .resume) with
      | ok a m' =>
        rw [ran] at last
        exact carries.nested entered last
      | error e m' =>
        rw [ran] at last
        have left := carries.nested entered last
        -- an error that cannot be caught finishes the generator at once
        cases e with
        | raised e => exact left
        | _ => exact carries.trans left (carries.finish _ generator right)
  | generator _ _ _ _ ihbody ih => exact carries.generator (fun f m => ihbody f m) (ih m)
  | @catching _ _ _ x _ _ ih =>
    have inner := ih m
    simp only [runUnder]
    cases ran : x.runUnder due m with
    | ok a m' => rw [ran] at inner; exact inner
    | error e m' => rw [ran] at inner; cases e <;> exact inner
  | @forgiving _ _ _ x _ _ _ ih =>
    have inner := ih m
    simp only [runUnder]
    cases ran : x.runUnder due m with
    | ok a m' => rw [ran] at inner; exact inner
    | error e m' => rw [ran] at inner; cases e <;> exact inner

theorem Below.carried (carries : Rights.Carries due R) (below : Below r x y) (m : Machine) :
    R r m (x.runUnder due m).machine :=
  (below []).carried carries m

/-- A computation does the same with more fuel, unless it ran out of it. -/
theorem BelowWith.runUnder_eq (below : BelowWith kept r x y) (m : Machine) :
    (∃ m', x.runUnder due m = .error .outOfFuel m') ∨ y.runUnder due m = x.runUnder due m := by
  induction below generalizing m with
  | outOfFuel y => exact .inl ⟨m, rfl⟩
  | give a => exact .inr rfl
  | throw e => exact .inr rfl
  | act permitted => exact .inr rfl
  | @andThen _ _ _ _ x _ f _ _ _ _ _ ihx ihf =>
    simp only [runUnder]
    -- running out of fuel cannot be caught, so it ends the whole
    rcases ihx m with ⟨m', ran⟩ | same
    · exact .inl ⟨m', by rw [ran]⟩
    · rw [same]
      cases ran : x.runUnder due m with
      | ok a m' => exact ihf a ⟨due, m, m', ran⟩ m'
      | error e m' => exact .inr rfl
  | @keeping _ _ _ x _ nodes _ ih =>
    simp only [runUnder]
    rcases ih (m.pushRoots nodes) with ⟨m', ran⟩ | same
    · exact .inl ⟨_, by rw [ran]; rfl⟩
    · exact .inr (by rw [same])
  | holding _ _ ih => exact ih m
  | @executing _ _ _ x _ _ _ ih =>
    simp only [runUnder]
    rcases ih m with ⟨m', ran⟩ | same
    · exact .inl ⟨m', by rw [ran]; rfl⟩
    · exact .inr (by rw [same])
  | @calling _ r _ x _ name _ _ ih =>
    simp only [runUnder]
    cases m.enter with
    | error e => exact .inr rfl
    | ok inner =>
      dsimp only
      rcases ih (inner.observe (.call name)) with ⟨m', ran⟩ | same
      · exact .inl ⟨_, by rw [ran]; rfl⟩
      · exact .inr (by rw [same])
  | @nested _ r _ x _ _ ih =>
    simp only [runUnder]
    cases m.enter with
    | error e => exact .inr rfl
    | ok inner =>
      dsimp only
      rcases ih inner with ⟨m', ran⟩ | same
      · exact .inl ⟨_, by rw [ran]⟩
      · exact .inr (by rw [same])
  | @inSection _ r x _ _ _ _ ih =>
    simp only [runUnder]
    cases m.enter with
    | error e => exact .inr rfl
    | ok inner =>
      dsimp only
      rcases ih inner with ⟨m', ran⟩ | same
      · exact .inl ⟨_, by rw [ran]⟩
      · exact .inr (by rw [same])
  | @resuming _ r x _ generator _ right _ ih =>
    simp only [runUnder]
    cases m.enter with
    | error e => exact .inr rfl
    | ok inner =>
      dsimp only
      rcases ih (inner.observe .resume) with ⟨m', ran⟩ | same
      · exact .inl ⟨_, by rw [ran]; rfl⟩
      · exact .inr (by rw [same])
  | generator _ _ _ _ _ ih => exact ih m
  | @catching _ _ _ x _ _ ih =>
    simp only [runUnder]
    rcases ih m with ⟨m', ran⟩ | same
    · exact .inl ⟨m', by rw [ran]⟩
    · exact .inr (by rw [same])
  | @forgiving _ _ _ x _ _ _ ih =>
    simp only [runUnder]
    rcases ih m with ⟨m', ran⟩ | same
    · exact .inl ⟨m', by rw [ran]; rfl⟩
    · exact .inr (by rw [same])

end Engine

end ObjectMachine
