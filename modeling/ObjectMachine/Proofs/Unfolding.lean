import ObjectMachine.Proofs.Garbage
import ObjectMachine.Snapshot.Transfer
/-!
Snapshots of arbitrary graphs of objects. The objects that hang together can be unfolded from one of them into a
tree of occurrences: one for each way along items, keys, values, members and views. The snapshot of an object is
this tree, cut at the occurrences of containers below themselves or too deep, and nowhere else.
-/
namespace ObjectMachine

/-- A step from a container to an object that its snapshot shows. -/
inductive Edge where
  /-- To an item of a list. -/
  | item (i : Nat)
  /-- To the key object of an entry of a map. -/
  | key (i : Nat)
  /-- To the value of an entry of a map. -/
  | value (i : Nat)
  /-- To a member of a plain object. -/
  | member (i : Nat)
  /-- To the object behind a view. -/
  | target
deriving DecidableEq

/-- Whether a payload is that of a container, of which a snapshot shows what is inside. -/
def Payload.isContainer : Payload → Bool
  | plain | list _ | map _ | baseView .. => true
  | _ => false

/-- The object that a step leads to. -/
def Object.along? (o : Object) (e : Edge) : Option Ref :=
  match o.payload, e with
  | .list items, .item i => items[i]?
  | .map entries, .key i => (entries.values[i]?).map Prod.fst
  | .map entries, .value i => (entries.values[i]?).map Prod.snd
  | .plain, .member i => o.members.values[i]?
  | .baseView target _, .target => some target
  | _, _ => none

namespace Snapshot

/-- The part of a snapshot that a step leads to. A view has the snapshot of the object behind it. -/
def along? : Snapshot → Edge → Option Snapshot
  | list items, .item i => items[i]?
  | map entries, .key i => (entries[i]?).map Prod.fst
  | map entries, .value i => (entries[i]?).map Prod.snd
  | plain _ members, .member i => (members[i]?).map Prod.snd
  | s, .target => some s
  | _, _ => none

/-- The part of a snapshot at the end of a route. -/
def at? (s : Snapshot) : List Edge → Option Snapshot
  | [] => some s
  | e :: route => (s.along? e).bind fun part => part.at? route

end Snapshot

namespace Heap

/-- An occurrence of an object inside the containers of a path is cut if the object is one of them, or if they are
too many. -/
def IsCut (path : List Ref) (r : Ref) : Prop := r ∈ path ∨ snapshotDepth ≤ path.length

/-- The occurrences of objects in the unfolding of one: the route that leads there, the containers on the way,
innermost first, and the object. There are none below one that is cut. -/
inductive Occurs (h : Heap) : List Ref → Ref → List Edge → List Ref → Ref → Prop where
  /-- The object itself. -/
  | here (path : List Ref) (r : Ref) : Occurs h path r [] path r
  /-- The occurrences in what a step leads to. -/
  | along {path path' : List Ref} {r q r' : Ref} {o : Object} {e : Edge} {route : List Edge}
    (live : h.object? r = some o) (whole : ¬ IsCut path r) (step : o.along? e = some q)
    (below : Occurs h (r :: path) q route path' r') : Occurs h path r (e :: route) path' r'

/-- A snapshot has at its top what an occurrence of an object is shown as. -/
inductive Shows (h : Heap) (path : List Ref) (r : Ref) (o : Object) : Snapshot → Prop where
  /-- An object that is no container is shown by its data. -/
  | leaf {s : Snapshot} (leaf : h.leafSnapshot? r o = some s) : Shows h path r o s
  /-- A placeholder stands for a container that is cut. -/
  | cut (container : o.payload.isContainer) (cut : IsCut path r) : Shows h path r o (.cycle o.payload.placeholder)
  /-- A list has as many items. -/
  | list {items : Array Ref} {shown : List Snapshot} (payload : o.payload = .list items) (whole : ¬ IsCut path r)
    (length : shown.length = items.size) : Shows h path r o (.list shown)
  /-- A map has as many entries. -/
  | map {entries : Entries} {shown : List (Snapshot × Snapshot)} (payload : o.payload = .map entries)
    (whole : ¬ IsCut path r) (length : shown.length = entries.size) : Shows h path r o (.map shown)
  /-- A plain object has the name of its Type and the names of its own members. -/
  | plain {shown : List (String × Snapshot)} (payload : o.payload = .plain) (whole : ¬ IsCut path r)
    (names : shown.map Prod.fst = o.members.keys) : Shows h path r o (.plain (h.typeName r) shown)
  /-- A view is shown as what is behind it. -/
  | view {target cls : Ref} {s : Snapshot} (payload : o.payload = .baseView target cls) (whole : ¬ IsCut path r) :
    Shows h path r o s

/-- A snapshot is the unfolding of an object inside the containers of a path: each occurrence is shown at the end of
its route. -/
def Unfolds (h : Heap) (path : List Ref) (r : Ref) (s : Snapshot) : Prop :=
  ∀ route path' r', h.Occurs path r route path' r' →
    ∃ o part, h.object? r' = some o ∧ s.at? route = some part ∧ h.Shows path' r' o part

end Heap

/-! ### Containers -/

theorem Object.along?_eq_none {o : Object} (leaf : o.payload.isContainer = false) (e : Edge) : o.along? e = none := by
  obtain ⟨type, members, payload⟩ := o
  cases payload <;> first | rfl | cases leaf

/-- What a step leads to is an object that the container holds a handle of. -/
theorem Object.refersTo_of_along? {o : Object} {e : Edge} {q : Ref} (step : o.along? e = some q) :
    o.RefersTo (.object q) := by
  unfold along? at step
  split at step
  · rename_i items i payload
    refine .payload (payload ▸ .item ?_)
    exact Array.mem_of_getElem? step
  · rename_i entries i payload
    obtain ⟨⟨key, value⟩, at_i, rfl⟩ := Option.map_eq_some_iff.mp step
    obtain ⟨⟨k, _⟩, mem, rfl⟩ := List.mem_map.mp (List.mem_of_getElem? at_i)
    exact .payload (payload ▸ .key mem)
  · rename_i entries i payload
    obtain ⟨⟨key, value⟩, at_i, rfl⟩ := Option.map_eq_some_iff.mp step
    obtain ⟨⟨k, _⟩, mem, rfl⟩ := List.mem_map.mp (List.mem_of_getElem? at_i)
    exact .payload (payload ▸ .value mem)
  · obtain ⟨⟨name, _⟩, mem, rfl⟩ := List.mem_map.mp (List.mem_of_getElem? step)
    exact .member mem
  · rename_i target cls payload
    cases step
    exact .payload (payload ▸ .viewed _ cls)
  · cases step

@[simp] theorem Snapshot.along?_target (s : Snapshot) : s.along? .target = some s := by
  cases s <;> rfl

namespace Heap

variable {h : Heap} {path : List Ref} {r : Ref} {o : Object} {s s' : Snapshot}

theorem leafSnapshot?_eq_none_iff : h.leafSnapshot? r o = none ↔ o.payload.isContainer := by
  rw [leafSnapshot?]
  cases o.payload <;> simp [Payload.isContainer]

theorem not_leaf_cycle {text : String} : h.leafSnapshot? r o ≠ some (.cycle text) := by
  rw [leafSnapshot?]
  cases o.payload <;> simp

/-! ### What an occurrence is shown as -/

namespace Shows

theorem eq_of_leaf {leaf : Snapshot} (top : h.Shows path r o s) (data : h.leafSnapshot? r o = some leaf) :
    s = leaf := by
  have noContainer : ¬ o.payload.isContainer := by
    rw [← leafSnapshot?_eq_none_iff (h := h) (r := r), data]
    exact Option.some_ne_none leaf
  cases top with
  | leaf data' => exact Option.some.inj (data'.symm.trans data)
  | cut container => exact absurd container noContainer
  | list payload | map payload | plain payload | view payload => simp [payload, Payload.isContainer] at noContainer

theorem eq_of_cut (top : h.Shows path r o s) (container : o.payload.isContainer) (cut : IsCut path r) :
    s = .cycle o.payload.placeholder := by
  cases top with
  | leaf data =>
    rw [leafSnapshot?_eq_none_iff.mpr container] at data
    cases data
  | cut => rfl
  | list _ whole | map _ whole | plain _ whole | view _ whole => exact absurd cut whole

/-- Only what is cut is shown as a placeholder, unless it is a view. -/
theorem isCut {text : String} (top : h.Shows path r o (.cycle text))
    (noView : ∀ target cls, o.payload = .baseView target cls → IsCut path r) :
    o.payload.isContainer ∧ IsCut path r ∧ text = o.payload.placeholder := by
  cases top with
  | leaf data => exact absurd data not_leaf_cycle
  | cut container cut => exact ⟨container, cut, rfl⟩
  | view payload whole => exact absurd (noView _ _ payload) whole

theorem exists_list {items : Array Ref} (top : h.Shows path r o s) (payload : o.payload = .list items)
    (whole : ¬ IsCut path r) : ∃ shown, s = .list shown ∧ shown.length = items.size := by
  cases top with
  | leaf data =>
    rw [leafSnapshot?_eq_none_iff.mpr (by rw [payload]; rfl)] at data
    cases data
  | cut _ cut => exact absurd cut whole
  | list payload' _ length =>
    cases payload.symm.trans payload'
    exact ⟨_, rfl, length⟩
  | map payload' | plain payload' | view payload' => cases payload.symm.trans payload'

theorem exists_map {entries : Entries} (top : h.Shows path r o s) (payload : o.payload = .map entries)
    (whole : ¬ IsCut path r) : ∃ shown, s = .map shown ∧ shown.length = entries.size := by
  cases top with
  | leaf data =>
    rw [leafSnapshot?_eq_none_iff.mpr (by rw [payload]; rfl)] at data
    cases data
  | cut _ cut => exact absurd cut whole
  | map payload' _ length =>
    cases payload.symm.trans payload'
    exact ⟨_, rfl, length⟩
  | list payload' | plain payload' | view payload' => cases payload.symm.trans payload'

theorem exists_plain (top : h.Shows path r o s) (payload : o.payload = .plain) (whole : ¬ IsCut path r) :
    ∃ shown, s = .plain (h.typeName r) shown ∧ shown.map Prod.fst = o.members.keys := by
  cases top with
  | leaf data =>
    rw [leafSnapshot?_eq_none_iff.mpr (by rw [payload]; rfl)] at data
    cases data
  | cut _ cut => exact absurd cut whole
  | plain _ _ names => exact ⟨_, rfl, names⟩
  | list payload' | map payload' | view payload' => cases payload.symm.trans payload'

end Shows

/-! ### The unfolding of a part -/

/-- A snapshot is an unfolding if it shows the object and its parts are the unfoldings of what the container holds. -/
theorem Unfolds.intro (live : h.object? r = some o) (top : h.Shows path r o s)
    (parts : ¬ IsCut path r → ∀ e q, o.along? e = some q →
      ∃ part, s.along? e = some part ∧ h.Unfolds (r :: path) q part) : h.Unfolds path r s := by
  intro route path' r' occurs
  cases occurs with
  | here => exact ⟨o, s, live, rfl, top⟩
  | along live' whole step below =>
    cases live.symm.trans live'
    obtain ⟨part, along, unfolds⟩ := parts whole _ _ step
    obtain ⟨o', part', live', at_route, shown⟩ := unfolds _ _ _ below
    refine ⟨o', part', live', ?_, shown⟩
    rw [Snapshot.at?, along, Option.bind_some, at_route]

theorem Unfolds.top (unfolds : h.Unfolds path r s) : ∃ o, h.object? r = some o ∧ h.Shows path r o s := by
  obtain ⟨o, part, live, same, top⟩ := unfolds [] path r (.here path r)
  cases same
  exact ⟨o, live, top⟩

/-- The part of an unfolding that a step leads to is an unfolding. -/
theorem Unfolds.part {e : Edge} {q : Ref} (unfolds : h.Unfolds path r s) (live : h.object? r = some o)
    (whole : ¬ IsCut path r) (step : o.along? e = some q) :
    ∃ part, s.along? e = some part ∧ h.Unfolds (r :: path) q part := by
  have at_route {route path' r'} (below : h.Occurs (r :: path) q route path' r') :=
    unfolds _ _ _ (.along live whole step below)
  obtain ⟨-, part, -, here, -⟩ := at_route (.here _ _)
  have along : s.along? e = some part := by
    rw [Snapshot.at?] at here
    obtain ⟨part', along, same⟩ := Option.bind_eq_some_iff.mp here
    cases same
    exact along
  refine ⟨part, along, ?_⟩
  intro route path' r' below
  obtain ⟨o', part', live', there, shown⟩ := at_route below
  rw [Snapshot.at?, along, Option.bind_some] at there
  exact ⟨o', part', live', there, shown⟩

/-! ### The snapshot is an unfolding -/

theorem snapshotWithin?_of_leaf {room : Nat} (live : h.object? r = some o) (leaf : h.leafSnapshot? r o = some s) :
    h.snapshotWithin? room path r = some s := by
  cases room with
  | zero => rw [snapshotWithin?, live, Option.map_some, leaf, Option.getD_some]
  | succ room =>
    rw [snapshotWithin?, live]
    simp only [Option.bind_eq_bind, Option.bind_some, leaf]
    rfl

theorem snapshotWithin?_of_cut {room : Nat} (live : h.object? r = some o) (container : o.payload.isContainer)
    (size : path.length + room = snapshotDepth) (cut : IsCut path r) :
    h.snapshotWithin? room path r = some (.cycle o.payload.placeholder) := by
  have leaf : h.leafSnapshot? r o = none := leafSnapshot?_eq_none_iff.mpr container
  cases room with
  | zero => rw [snapshotWithin?, live, Option.map_some, leaf, Option.getD_none]
  | succ room =>
    have mem : path.contains r := by
      rw [List.contains_iff_mem]
      exact cut.resolve_right (by omega)
    rw [snapshotWithin?, live]
    simp only [Option.bind_eq_bind, Option.bind_some, leaf, mem, ↓reduceIte]
    rfl

/-- If there is a result for each item, there are results for all of them, in order. -/
theorem exists_of_mapM {α β : Type} {f : α → Option β} {l : List α} (all : ∀ a ∈ l, ∃ b, f a = some b) :
    ∃ results : List β, l.mapM f = some results ∧ results.length = l.length ∧
      ∀ (i : Nat) (a : α), l[i]? = some a → ∃ b, results[i]? = some b ∧ f a = some b := by
  induction l with
  | nil => exact ⟨[], rfl, rfl, fun i a found => by simp at found⟩
  | cons a l ih =>
    obtain ⟨⟨b, first⟩, all⟩ := List.forall_mem_cons.mp all
    obtain ⟨results, rest, length, each⟩ := ih all
    refine ⟨b :: results, ?_, congrArg (· + 1) length, ?_⟩
    · rw [List.mapM_cons, first, rest]
      rfl
    · intro i a' found
      cases i with
      | zero =>
        cases found
        exact ⟨b, rfl, first⟩
      | succ i => exact each i a' found

/-- Of a container that is not cut, the snapshots of what it holds are taken in order. -/
theorem snapshotWithin?_of_whole {room : Nat} (live : h.object? r = some o) (container : o.payload.isContainer)
    (whole : ¬ IsCut path r) :
    h.snapshotWithin? (room + 1) path r =
      match o.payload with
      | .list items => (items.toList.mapM fun v => h.snapshotWithin? room (r :: path) v).map .list
      | .map entries =>
        (entries.values.mapM fun e => (h.snapshotWithin? room (r :: path) e.1).bind fun key =>
          (h.snapshotWithin? room (r :: path) e.2).map fun value => (key, value)).map .map
      | .baseView target _ => h.snapshotWithin? room (r :: path) target
      | _ =>
        (o.members.entries.mapM fun e => (h.snapshotWithin? room (r :: path) e.2).map fun value => (e.1, value)).map
          (.plain (h.typeName r)) := by
  have leaf : h.leafSnapshot? r o = none := leafSnapshot?_eq_none_iff.mpr container
  have fresh : path.contains r = false := by
    rw [Bool.eq_false_iff, ne_eq, List.contains_iff_mem]
    exact fun mem => whole (.inl mem)
  rw [snapshotWithin?, live]
  simp only [Option.bind_eq_bind, Option.bind_some, leaf, fresh, Bool.false_eq_true, ↓reduceIte,
    Option.map_eq_bind]
  cases o.payload <;> rfl

section Parts

variable {room : Nat} {type : Option Ref} {members : Table String Ref} {payload : Payload}
  (live : h.object? r = some ⟨type, members, payload⟩) (whole : ¬ IsCut path r)
  (below : ∀ q, Object.RefersTo ⟨type, members, payload⟩ (.object q) →
    ∃ s, h.snapshotWithin? room (r :: path) q = some s ∧ h.Unfolds (r :: path) q s)

include below in
/-- What was taken of an object behind a step is its unfolding. -/
theorem unfolds_of_along? {e : Edge} {q : Ref} (step : Object.along? ⟨type, members, payload⟩ e = some q)
    (taken : h.snapshotWithin? room (r :: path) q = some s) : h.Unfolds (r :: path) q s := by
  obtain ⟨s', taken', unfolds⟩ := below q (Object.refersTo_of_along? step)
  cases taken.symm.trans taken'
  exact unfolds

include live whole below

theorem exists_unfolds_list {items : Array Ref} (is : payload = .list items) :
    ∃ s, h.snapshotWithin? (room + 1) path r = some s ∧ h.Unfolds path r s := by
  subst is
  obtain ⟨shown, taken, length, each⟩ := exists_of_mapM (l := items.toList)
    (f := h.snapshotWithin? room (r :: path)) fun v mem =>
      (below v (.payload (.item (Array.mem_toList_iff.mp mem)))).imp fun _ => And.left
  refine ⟨.list shown, ?_, .intro live (.list rfl whole (length.trans Array.length_toList)) ?_⟩
  · exact (snapshotWithin?_of_whole live rfl whole).trans (congrArg (Option.map Snapshot.list) taken)
  · intro _ e q step
    cases e with
    | item i =>
      obtain ⟨s, along, taken⟩ := each i q (Array.getElem?_toList.trans step)
      exact ⟨s, along, unfolds_of_along? below step taken⟩
    | _ => cases step

theorem exists_unfolds_map {entries : Entries} (is : payload = .map entries) :
    ∃ s, h.snapshotWithin? (room + 1) path r = some s ∧ h.Unfolds path r s := by
  subst is
  obtain ⟨shown, taken, length, each⟩ := exists_of_mapM (l := entries.values) (f := fun e =>
      (h.snapshotWithin? room (r :: path) e.1).bind fun key =>
        (h.snapshotWithin? room (r :: path) e.2).map fun value => (key, value)) fun e mem => by
    obtain ⟨⟨k, key, value⟩, entry, rfl⟩ := List.mem_map.mp mem
    obtain ⟨shownKey, takenKey, -⟩ := below key (.payload (.key entry))
    obtain ⟨shownValue, takenValue, -⟩ := below value (.payload (.value entry))
    exact ⟨(shownKey, shownValue), by rw [takenKey, takenValue, Option.bind_some, Option.map_some]⟩
  have each_pair (i : Nat) (e : Ref × Ref) (at_i : entries.values[i]? = some e) : ∃ key value,
      shown[i]? = some (key, value) ∧ h.snapshotWithin? room (r :: path) e.1 = some key ∧
        h.snapshotWithin? room (r :: path) e.2 = some value := by
    obtain ⟨pair, shown_i, both⟩ := each i e at_i
    obtain ⟨key, takenKey, both⟩ := Option.bind_eq_some_iff.mp both
    obtain ⟨value, takenValue, rfl⟩ := Option.map_eq_some_iff.mp both
    exact ⟨key, value, shown_i, takenKey, takenValue⟩
  have sizes : shown.length = entries.size := length.trans (List.length_map _)
  refine ⟨.map shown, ?_, .intro live (.map rfl whole sizes) ?_⟩
  · exact (snapshotWithin?_of_whole live rfl whole).trans (congrArg (Option.map Snapshot.map) taken)
  · intro _ e q step
    cases e with
    | key i =>
      obtain ⟨e, at_i, rfl⟩ := Option.map_eq_some_iff.mp step
      obtain ⟨key, value, shown_i, takenKey, -⟩ := each_pair i e at_i
      exact ⟨key, congrArg (Option.map Prod.fst) shown_i, unfolds_of_along? below step takenKey⟩
    | value i =>
      obtain ⟨e, at_i, rfl⟩ := Option.map_eq_some_iff.mp step
      obtain ⟨key, value, shown_i, -, takenValue⟩ := each_pair i e at_i
      exact ⟨value, congrArg (Option.map Prod.snd) shown_i, unfolds_of_along? below step takenValue⟩
    | _ => cases step

theorem exists_unfolds_view {target cls : Ref} (is : payload = .baseView target cls) :
    ∃ s, h.snapshotWithin? (room + 1) path r = some s ∧ h.Unfolds path r s := by
  subst is
  obtain ⟨s, taken, unfolds⟩ := below target (.payload (.viewed target cls))
  refine ⟨s, (snapshotWithin?_of_whole live rfl whole).trans taken, .intro live (.view rfl whole) ?_⟩
  intro _ e q step
  cases e with
  | target =>
    cases step
    exact ⟨s, s.along?_target, unfolds⟩
  | _ => cases step

theorem exists_unfolds_plain (is : payload = .plain) :
    ∃ s, h.snapshotWithin? (room + 1) path r = some s ∧ h.Unfolds path r s := by
  subst is
  obtain ⟨shown, taken, length, each⟩ := exists_of_mapM (l := members.entries) (f := fun e =>
      (h.snapshotWithin? room (r :: path) e.2).map fun value => (e.1, value)) fun e mem => by
    obtain ⟨s, taken, -⟩ := below e.2 (.member mem)
    exact ⟨(e.1, s), by rw [taken, Option.map_some]⟩
  have each_pair (i : Nat) (e : String × Ref) (at_i : members.entries[i]? = some e) : ∃ s,
      shown[i]? = some (e.1, s) ∧ h.snapshotWithin? room (r :: path) e.2 = some s := by
    obtain ⟨pair, shown_i, both⟩ := each i e at_i
    obtain ⟨s, taken, rfl⟩ := Option.map_eq_some_iff.mp both
    exact ⟨s, shown_i, taken⟩
  have names : shown.map Prod.fst = members.keys := by
    apply List.ext_getElem? fun i => ?_
    rw [List.getElem?_map, Table.keys, List.getElem?_map]
    cases at_i : members.entries[i]? with
    | none =>
      rw [List.getElem?_eq_none_iff, ← length, ← List.getElem?_eq_none_iff] at at_i
      rw [at_i]
      rfl
    | some e =>
      obtain ⟨s, shown_i, -⟩ := each_pair i e at_i
      rw [shown_i]
      rfl
  refine ⟨.plain (h.typeName r) shown, ?_, .intro live (.plain rfl whole names) ?_⟩
  · exact (snapshotWithin?_of_whole live rfl whole).trans (congrArg (Option.map (Snapshot.plain (h.typeName r))) taken)
  · intro _ e q step
    cases e with
    | member i =>
      obtain ⟨e, at_i, rfl⟩ := Option.map_eq_some_iff.mp ((List.getElem?_map ..).symm.trans step)
      obtain ⟨s, shown_i, taken⟩ := each_pair i e at_i
      exact ⟨s, congrArg (Option.map Prod.snd) shown_i, unfolds_of_along? below step taken⟩
    | _ => cases step

/-- The snapshot of a container that is not cut is its unfolding, if this holds of what it holds. -/
theorem exists_unfolds_of_whole (container : payload.isContainer) :
    ∃ s, h.snapshotWithin? (room + 1) path r = some s ∧ h.Unfolds path r s := by
  cases is : payload with
  | list items => exact exists_unfolds_list live whole below is
  | map entries => exact exists_unfolds_map live whole below is
  | baseView target cls => exact exists_unfolds_view live whole below is
  | plain => exact exists_unfolds_plain live whole below is
  | _ =>
    rw [is] at container
    cases container

end Parts

/-- Without looking inside, the snapshot is the unfolding unless the object is a container that is not cut. -/
theorem exists_unfolds_of_not_whole {room : Nat} (size : path.length + room = snapshotDepth)
    (live : h.object? r = some o) (other : ¬ (o.payload.isContainer ∧ ¬ IsCut path r)) :
    ∃ s, h.snapshotWithin? room path r = some s ∧ h.Unfolds path r s := by
  cases leaf : h.leafSnapshot? r o with
  | some s =>
    refine ⟨s, snapshotWithin?_of_leaf live leaf, .intro live (.leaf leaf) ?_⟩
    intro _ e q step
    have noContainer : o.payload.isContainer = false := by
      rw [Bool.eq_false_iff, ne_eq, ← leafSnapshot?_eq_none_iff, leaf]
      exact Option.some_ne_none s
    rw [o.along?_eq_none noContainer] at step
    cases step
  | none =>
    have container := leafSnapshot?_eq_none_iff.mp leaf
    have cut : IsCut path r := not_not.mp fun whole => other ⟨container, whole⟩
    refine ⟨_, snapshotWithin?_of_cut live container size cut, .intro live (.cut container cut) ?_⟩
    intro whole
    exact absurd cut whole

/-- Whatever occurs, its snapshot is the unfolding, if handles lead to objects. -/
theorem exists_unfolds (closed : ∀ r o q, h.object? r = some o → o.RefersTo (.object q) → (h.object? q).isSome)
    {room : Nat} (size : path.length + room = snapshotDepth) (live : (h.object? r).isSome) :
    ∃ s, h.snapshotWithin? room path r = some s ∧ h.Unfolds path r s := by
  induction room generalizing path r with
  | zero =>
    obtain ⟨o, live⟩ := Option.isSome_iff_exists.mp live
    exact exists_unfolds_of_not_whole size live fun whole => whole.2 (.inr (by omega))
  | succ room ih =>
    obtain ⟨o, live⟩ := Option.isSome_iff_exists.mp live
    by_cases whole : o.payload.isContainer ∧ ¬ IsCut path r
    · apply exists_unfolds_of_whole live whole.2 ?_ whole.1
      intro q refers
      exact ih (by rw [List.length_cons]; omega) (closed r o q live refers)
    · exact exists_unfolds_of_not_whole size live whole

/-! ### There is no other one -/

/-- Pairs are the same if their halves are, place by place. -/
theorem ext_halves {α β : Type} {l l' : List (α × β)} (first : ∀ i : Nat, (l[i]?).map Prod.fst = (l'[i]?).map Prod.fst)
    (second : ∀ i : Nat, (l[i]?).map Prod.snd = (l'[i]?).map Prod.snd) : l = l' := by
  apply List.ext_getElem?
  intro i
  have first := first i
  have second := second i
  cases at_i : l[i]? with
  | none =>
    rw [at_i, Option.map_none, eq_comm, Option.map_eq_none_iff] at first
    exact first.symm
  | some e =>
    rw [at_i, Option.map_some, eq_comm] at first second
    obtain ⟨e', at_i', same⟩ := Option.map_eq_some_iff.mp first
    rw [at_i', Option.map_some, Option.some_inj] at second
    rw [at_i', Option.some_inj]
    exact (Prod.ext same second).symm

/-- Two snapshots that show an object are the same, if need be because it is a container that is not cut. -/
theorem Shows.eq_of_whole (top : h.Shows path r o s) (top' : h.Shows path r o s')
    (same : o.payload.isContainer → ¬ IsCut path r → s = s') : s = s' := by
  cases leaf : h.leafSnapshot? r o with
  | some t => rw [top.eq_of_leaf leaf, top'.eq_of_leaf leaf]
  | none =>
    have container := leafSnapshot?_eq_none_iff.mp leaf
    by_cases cut : IsCut path r
    · rw [top.eq_of_cut container cut, top'.eq_of_cut container cut]
    · exact same container cut

/-- Two snapshots that show a container are the same if their parts are. -/
theorem Shows.eq_of_parts (top : h.Shows path r o s) (top' : h.Shows path r o s') (container : o.payload.isContainer)
    (whole : ¬ IsCut path r) (parts : ∀ e q, o.along? e = some q → s.along? e = s'.along? e) : s = s' := by
  obtain ⟨type, members, payload⟩ := o
  cases payload with
  | list items =>
    obtain ⟨shown, rfl, length⟩ := top.exists_list rfl whole
    obtain ⟨shown', rfl, length'⟩ := top'.exists_list rfl whole
    congr 1
    apply List.ext_getElem?
    intro i
    by_cases inside : i < items.size
    · exact parts (.item i) _ (Array.getElem?_eq_getElem inside)
    · rw [List.getElem?_eq_none (by omega), List.getElem?_eq_none (by omega)]
  | map entries =>
    obtain ⟨shown, rfl, length⟩ := top.exists_map rfl whole
    obtain ⟨shown', rfl, length'⟩ := top'.exists_map rfl whole
    have sizes : entries.values.length = entries.size := List.length_map _
    congr 1
    apply ext_halves
    all_goals
      intro i
      by_cases inside : i < entries.values.length
      · have at_i := List.getElem?_eq_getElem inside
        first
        | exact parts (.key i) _ (congrArg (Option.map Prod.fst) at_i)
        | exact parts (.value i) _ (congrArg (Option.map Prod.snd) at_i)
      · rw [List.getElem?_eq_none (by omega), List.getElem?_eq_none (by omega)]
  | baseView target cls =>
    have same := parts .target target rfl
    rwa [Snapshot.along?_target, Snapshot.along?_target, Option.some_inj] at same
  | plain =>
    obtain ⟨shown, rfl, names⟩ := top.exists_plain rfl whole
    obtain ⟨shown', rfl, names'⟩ := top'.exists_plain rfl whole
    congr 1
    apply ext_halves
    · intro i
      rw [← List.getElem?_map, ← List.getElem?_map, names, names']
    · intro i
      by_cases inside : i < members.values.length
      · exact parts (.member i) _ (List.getElem?_eq_getElem inside)
      · have sizes : members.values.length = members.keys.length := (List.length_map _).trans (List.length_map _).symm
        have length : shown.length = members.keys.length := names ▸ (List.length_map _).symm
        have length' : shown'.length = members.keys.length := names' ▸ (List.length_map _).symm
        rw [List.getElem?_eq_none (by omega), List.getElem?_eq_none (by omega)]
  | _ => cases container

/-- There is one unfolding of an object inside the containers of a path. -/
theorem Unfolds.unique {room : Nat} (size : path.length + room = snapshotDepth) (unfolds : h.Unfolds path r s)
    (unfolds' : h.Unfolds path r s') : s = s' := by
  induction room generalizing path r s s' with
  | zero =>
    obtain ⟨o, live, top⟩ := unfolds.top
    obtain ⟨o', live', top'⟩ := unfolds'.top
    cases live.symm.trans live'
    exact top.eq_of_whole top' fun _ whole => absurd (.inr (by omega)) whole
  | succ room ih =>
    obtain ⟨o, live, top⟩ := unfolds.top
    obtain ⟨o', live', top'⟩ := unfolds'.top
    cases live.symm.trans live'
    apply top.eq_of_whole top'
    intro container whole
    apply top.eq_of_parts top' container whole
    intro e q step
    obtain ⟨part, along, below⟩ := unfolds.part live whole step
    obtain ⟨part', along', below'⟩ := unfolds'.part live whole step
    rw [along, along', ih (by rw [List.length_cons]; omega) below below']

/-! ### Placeholders -/

/-- A route without its steps through views, which the snapshot does not show. -/
def visible (route : List Edge) : List Edge := route.filter (· ≠ .target)

theorem leafSnapshot?_along? {e : Edge} (data : h.leafSnapshot? r o = some s) (other : e ≠ .target) :
    s.along? e = none := by
  obtain ⟨type, members, payload⟩ := o
  cases payload <;> cases data <;> cases e <;> first | rfl | exact absurd rfl other

theorem exists_getElem?_of_length {α β : Type} {l : List α} {l' : List β} {i : Nat} {a : α}
    (length : l.length = l'.length) (found : l[i]? = some a) : ∃ b, l'[i]? = some b := by
  obtain ⟨inside, -⟩ := List.getElem?_eq_some_iff.mp found
  exact ⟨_, List.getElem?_eq_getElem (length ▸ inside)⟩

/-- A part that is shown is what a step leads to. -/
theorem Shows.exists_along? {e : Edge} {part : Snapshot} (top : h.Shows path r o s)
    (noView : ∀ target cls, o.payload = .baseView target cls → IsCut path r) (other : e ≠ .target)
    (step : s.along? e = some part) : ¬ IsCut path r ∧ ∃ q, o.along? e = some q := by
  obtain ⟨type, members, payload⟩ := o
  cases top with
  | leaf data =>
    rw [leafSnapshot?_along? data other] at step
    cases step
  | cut => cases e <;> first | exact absurd rfl other | cases step
  | @list items shown is whole length =>
    cases is
    refine ⟨whole, ?_⟩
    cases e with
    | item i =>
      obtain ⟨q, at_i⟩ := exists_getElem?_of_length (length.trans Array.length_toList.symm) step
      exact ⟨q, Array.getElem?_toList.symm.trans at_i⟩
    | target => exact absurd rfl other
    | _ => cases step
  | @map entries shown is whole length =>
    cases is
    have sizes : shown.length = entries.values.length := length.trans (List.length_map _).symm
    refine ⟨whole, ?_⟩
    cases e with
    | key i =>
      obtain ⟨pair, found, -⟩ := Option.map_eq_some_iff.mp step
      obtain ⟨e, at_i⟩ := exists_getElem?_of_length sizes found
      exact ⟨e.1, congrArg (Option.map Prod.fst) at_i⟩
    | value i =>
      obtain ⟨pair, found, -⟩ := Option.map_eq_some_iff.mp step
      obtain ⟨e, at_i⟩ := exists_getElem?_of_length sizes found
      exact ⟨e.2, congrArg (Option.map Prod.snd) at_i⟩
    | target => exact absurd rfl other
    | _ => cases step
  | @plain shown is whole names =>
    cases is
    have sizes : shown.length = members.values.length := by
      rw [← List.length_map Prod.fst, names, Table.keys, Table.values, List.length_map, List.length_map]
    refine ⟨whole, ?_⟩
    cases e with
    | member i =>
      obtain ⟨pair, found, -⟩ := Option.map_eq_some_iff.mp step
      exact exists_getElem?_of_length sizes found
    | target => exact absurd rfl other
    | _ => cases step
  | view is whole => exact absurd (noView _ _ is) whole

theorem visible_cons (e : Edge) (route : List Edge) : visible (e :: route) = visible [e] ++ visible route :=
  List.filter_append [e] route

/-- A placeholder stands for a container that occurs below an object and is cut there. -/
def CutBelow (h : Heap) (path : List Ref) (r : Ref) (route : List Edge) (text : String) : Prop :=
  ∃ route' path' r' o, visible route' = visible route ∧ h.Occurs path r route' path' r' ∧ h.object? r' = some o ∧
    o.payload.isContainer ∧ IsCut path' r' ∧ text = o.payload.placeholder

theorem CutBelow.along {e : Edge} {q : Ref} {route route' : List Edge} {text : String} (live : h.object? r = some o)
    (whole : ¬ IsCut path r) (step : o.along? e = some q) (cut : h.CutBelow (r :: path) q route text)
    (same : visible (e :: route) = visible route') : h.CutBelow path r route' text := by
  obtain ⟨route'', path', r', o', same', below, found⟩ := cut
  refine ⟨e :: route'', path', r', o', ?_, .along live whole step below, found⟩
  rw [← same, visible_cons, same', ← visible_cons]

/-- A placeholder stands for a container that is cut, if this holds of the parts. -/
theorem Unfolds.cutBelow_of_parts (unfolds : h.Unfolds path r s)
    (parts : ¬ IsCut path r → ∀ q part route text, h.Unfolds (r :: path) q part → part.at? route = some (.cycle text) →
      h.CutBelow (r :: path) q route text)
    {route : List Edge} {text : String} (found : s.at? route = some (.cycle text)) : h.CutBelow path r route text := by
  obtain ⟨o, live, top⟩ := unfolds.top
  by_cases view : ∃ target cls, o.payload = .baseView target cls ∧ ¬ IsCut path r
  · -- what is behind a view has the same snapshot
    obtain ⟨target, cls, is, whole⟩ := view
    have step : o.along? .target = some target := by
      unfold Object.along?
      rw [is]
    obtain ⟨part, along, below⟩ := unfolds.part live whole step
    rw [Snapshot.along?_target, Option.some_inj] at along
    exact .along live whole step (parts whole target part route text below (along ▸ found)) rfl
  · have noView : ∀ target cls, o.payload = .baseView target cls → IsCut path r := fun target cls is =>
      not_not.mp fun whole => view ⟨target, cls, is, whole⟩
    induction route with
    | nil =>
      cases found
      obtain ⟨container, cut, same⟩ := top.isCut noView
      exact ⟨[], path, r, o, rfl, .here path r, live, container, cut, same⟩
    | cons e route ih =>
      rw [Snapshot.at?] at found
      obtain ⟨part, along, rest⟩ := Option.bind_eq_some_iff.mp found
      by_cases target : e = .target
      · subst target
        rw [Snapshot.along?_target, Option.some_inj] at along
        exact ih (along ▸ rest)
      · obtain ⟨whole, q, step⟩ := top.exists_along? noView target along
        obtain ⟨part', along', below⟩ := unfolds.part live whole step
        cases along.symm.trans along'
        exact .along live whole step (parts whole q part route text below rest) rfl

/-- A placeholder in an unfolding stands for a container that is cut. -/
theorem Unfolds.cutBelow {room : Nat} (size : path.length + room = snapshotDepth) (unfolds : h.Unfolds path r s)
    {route : List Edge} {text : String} (found : s.at? route = some (.cycle text)) : h.CutBelow path r route text := by
  induction room generalizing path r s route text with
  | zero => exact unfolds.cutBelow_of_parts (fun whole => absurd (.inr (by omega)) whole) found
  | succ room ih =>
    refine unfolds.cutBelow_of_parts (fun _ q part route text below found => ?_) found
    exact ih (by rw [List.length_cons]; omega) below found

/-- Of any graph of objects without dangling handles, the snapshot of a value exists and is its unfolding, the only
one there is. A container is shown as a placeholder exactly where it occurs below itself, or inside a hundred
others; so an object that occurs several times is shown in full each time, unless it occurs there. -/
theorem snapshot_unfolds (h : Heap) (v : Ref) (closed : ∀ n l, h.RefersTo n l → h.Occupied l)
    (live : h.Occupied (.object v)) :
    ∃ s, h.snapshot? v = some s ∧ h.Unfolds [] v s ∧ (∀ s', h.Unfolds [] v s' → s' = s) ∧
      (∀ route path r o, h.Occurs [] v route path r → h.object? r = some o →
        (o.payload.isContainer → (r ∈ path ∨ 100 ≤ path.length) →
          s.at? route = some (.cycle o.payload.placeholder)) ∧
        ((∀ target cls, o.payload ≠ .baseView target cls) → ¬ (r ∈ path ∨ 100 ≤ path.length) →
          ∀ text, s.at? route ≠ some (.cycle text))) ∧
      ∀ route text, s.at? route = some (.cycle text) → h.CutBelow [] v route text := by
  have size : ([] : List Ref).length + snapshotDepth = snapshotDepth := rfl
  obtain ⟨s, taken, unfolds⟩ := exists_unfolds (fun r o q live refers => closed _ _ (.object live refers)) size live
  refine ⟨s, taken, unfolds, fun s' unfolds' => unfolds'.unique size unfolds, ?_, ?_⟩
  · intro route path r o occurs found
    obtain ⟨o', part, found', at_route, top⟩ := unfolds route path r occurs
    cases found.symm.trans found'
    rw [at_route]
    constructor
    · intro container cut
      rw [top.eq_of_cut container cut]
    · intro noView whole text same
      rw [Option.some_inj.mp same] at top
      exact whole (top.isCut fun target cls is => absurd is (noView target cls)).2.1
  · intro route text found
    exact unfolds.cutBelow size found

/-- A heap with a list that holds another list twice, and then itself. -/
def selfHolding : Heap :=
  let first := fixedObjects.length
  let list (items : Array Ref) : Object := .ofPayload (.list items) none
  empty.placeAll (fixedObjects ++ [list #[⟨first + 1⟩, ⟨first + 1⟩, ⟨first⟩], list #[.null]])

/-- The other list is shown twice, and the list inside itself as a placeholder. -/
theorem snapshot_selfHolding :
    let v : Ref := ⟨fixedObjects.length⟩
    ∃ s, selfHolding.snapshot? v = some s ∧ selfHolding.Unfolds [] v s ∧ s.repr = "[[null], [null], [...]]" := by
  intro v
  have closed : ∀ n l, selfHolding.RefersTo n l → selfHolding.Occupied l :=
    fun _ _ => occupied_of_slots (by decide +kernel) (by decide +kernel)
  obtain ⟨s, taken, unfolds, -⟩ := snapshot_unfolds selfHolding v closed (by decide +kernel)
  have shown : (selfHolding.snapshot? v).map Snapshot.repr = some "[[null], [null], [...]]" := by decide +kernel
  rw [taken, Option.map_some, Option.some_inj] at shown
  exact ⟨s, taken, unfolds, shown⟩

end Heap

end ObjectMachine
