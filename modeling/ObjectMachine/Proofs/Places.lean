import ObjectMachine.Proofs.History
/-!
Places: where in a computation its moments stand. Around a moment there are calls, which an error that
arises there passes through, and generators are active whose activations are not over yet. The activation
of a generator starts as a call is nested for it, goes on in the frame that it held, and is over when the
generator is put into its next state.
-/
namespace ObjectMachine

/-- A moment of a computation, with what encloses it within the computation. -/
structure Place where
  /-- The calls of functions and generators around the moment, innermost first. -/
  calls : List Layer
  /-- The generators with an activation around the moment, innermost first. -/
  active : List Ref
  /-- The moment. -/
  moment : Moment

/-- Whether a moment puts a generator into a state. -/
def Moment.settles (generator : Ref) : Moment → Bool
  | acts (.change r (.generator _)) _ _ => r == generator
  | _ => false

namespace Place

/-- A place of what a call runs, as a place of the call. -/
def within (layer : Layer) (p : Place) : Place := { p with calls := p.calls ++ [layer] }

/-- A place in the activation of a generator. -/
def resumed (generator : Ref) (p : Place) : Place := { p with active := p.active ++ [generator] }

/-- Places after the frame of a generator ran: those up to the next state belong to the activation. -/
def untilSettled (generator : Ref) : List Place → List Place
  | [] => []
  | p :: later =>
    p.resumed generator :: if p.moment.settles generator then later else untilSettled generator later

/-- A place of a forgiven computation. -/
def forgiven (p : Place) : Place := { p with moment := .forgiven p.moment }

/-- A moment that nothing encloses. -/
def outside (moment : Moment) : Place := ⟨[], [], moment⟩

/-- A place as an error sees it. -/
def view (p : Place) : List Layer × Moment := (p.calls, p.moment)

theorem map_view_resumed (generator : Ref) (places : List Place) :
    (places.map (resumed generator)).map view = places.map view :=
  List.map_map

theorem map_view_untilSettled (generator : Ref) (places : List Place) :
    (untilSettled generator places).map view = places.map view := by
  induction places with
  | nil => rfl
  | cons p later ih =>
    have rest : (if p.moment.settles generator then later else untilSettled generator later).map view =
        later.map view := by
      split
      · rfl
      · exact ih
    simp only [untilSettled, List.map_cons, rest]
    rfl

theorem map_moment_of_map_view {places places' : List Place} (same : places'.map view = places.map view) :
    places'.map moment = places.map moment := by
  have moments (l : List Place) : l.map moment = (l.map view).map Prod.snd := by
    rw [List.map_map]
    rfl
  rw [moments, moments, same]

end Place

/-- The places of a call that is nested in a machine, unless the budget refuses. -/
def Machine.placesInside (m : Machine) (places : Machine → List Place) : List Place :=
  match m.enter with
  | .error _ => [.outside (.refuses m)]
  | .ok inner => .outside (.enters m) :: places inner

theorem Machine.map_placesInside {m : Machine} {places : Machine → List Place}
    {history : Machine → List Moment} (same : ∀ inner, (places inner).map Place.moment = history inner) :
    (m.placesInside places).map Place.moment = m.historyInside history := by
  simp only [placesInside, historyInside]
  cases m.enter with
  | error e => rfl
  | ok inner => simp only [List.map_cons, same, Place.outside]

namespace Engine

/-- The places of what follows a computation: they belong to an activation if the frame of a generator ran
before. -/
def concluding {α : Type} : Engine α → List Place → List Place
  | resuming generator _ _, later => Place.untilSettled generator later
  | _, later => later

/-- What a computation goes through, with what encloses each moment. -/
def places (due : Schedule) {α : Type} : List Node → Engine α → Machine → List Place
  | _, give _, _ => []
  | _, throw e, m => [.outside (.throws e m)]
  | held, act o, m => [.outside (.acts o held m)]
  | held, andThen x f, m =>
    x.places due held m ++
      match x.runUnder due m with
      | .ok a m => x.concluding ((f a).places due held m)
      | .error _ _ => []
  | held, keeping nodes x, m => x.places due held (m.pushRoots nodes)
  | held, holding nodes x, m => x.places due (nodes ++ held) m
  | held, executing _ x, m => x.places due held m
  | held, calling name args x, m =>
    m.placesInside fun inner =>
      (x.places due held (inner.observe (.call name))).map (Place.within ⟨name, args⟩)
  | held, nested x, m => m.placesInside fun inner => x.places due held inner
  | held, inSection phase resumed x, m =>
    match m.enter with
    | .error e => [.outside (.bars phase resumed e m)]
    | .ok inner =>
      .outside (.opens phase resumed m) ::
        (x.places due held inner ++ [.outside (.shuts phase m (x.runUnder due inner))])
  | held, resuming generator name x, m =>
    (m.placesInside fun inner =>
      (x.places due held (inner.observe .resume)).map (Place.within ⟨name, []⟩)).map
        (Place.resumed generator)
  | held, catching x, m => x.places due held m
  | held, forgiving x, m => (x.places due held m).map .forgiven

variable {α : Type} {due : Schedule}

theorem map_view_concluding (x : Engine α) (places : List Place) :
    (x.concluding places).map Place.view = places.map Place.view := by
  cases x with
  | resuming generator name x => exact Place.map_view_untilSettled generator places
  | _ => rfl

theorem map_moment_within (layer : Layer) (places : List Place) :
    (places.map (Place.within layer)).map Place.moment = places.map Place.moment :=
  List.map_map

/-- The places of a computation are its moments, in order. -/
theorem map_moment_places (due : Schedule) (x : Engine α) (held : List Node) (m : Machine) :
    (x.places due held m).map Place.moment = x.history due held m := by
  induction x generalizing held m with
  | give a => rfl
  | throw e => rfl
  | act o => rfl
  | andThen x f ihx ihf =>
    simp only [places, history, List.map_append, ihx]
    cases x.runUnder due m with
    | ok a m' =>
      have later := Place.map_moment_of_map_view (x.map_view_concluding ((f a).places due held m'))
      exact congrArg _ (later.trans (ihf a held m'))
    | error e m' => rfl
  | keeping nodes x ih => exact ih held (m.pushRoots nodes)
  | holding nodes x ih => exact ih (nodes ++ held) m
  | executing site x ih => exact ih held m
  | calling name args x ih =>
    exact Machine.map_placesInside fun inner => (map_moment_within _ _).trans (ih held _)
  | nested x ih => exact Machine.map_placesInside fun inner => ih held inner
  | inSection phase resumed x ih =>
    simp only [places, history]
    cases m.enter with
    | error e => rfl
    | ok inner => simp only [List.map_cons, List.map_append, ih, List.map_nil, Place.outside]
  | resuming generator name x ih =>
    refine (Place.map_moment_of_map_view (Place.map_view_resumed generator _)).trans ?_
    exact Machine.map_placesInside fun inner => (map_moment_within _ _).trans (ih held _)
  | catching x ih => exact ih held m
  | forgiving x ih =>
    simp only [places, history, ← ih, List.map_map]
    rfl

end Engine

end ObjectMachine
