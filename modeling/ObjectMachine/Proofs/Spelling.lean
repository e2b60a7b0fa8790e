import ObjectMachine.Proofs.Rethrow
import ObjectMachine.Proofs.Unfolding
/-!
Objects that hang together like a finite tree. Such a tree spells a snapshot: null, truth values, numbers, texts,
ranges, Types and functions by themselves, lists and maps by what they hold. An object spells one snapshot at most,
goes on spelling it while objects are added, and this is its snapshot if its containers are not nested too deeply.
-/
namespace ObjectMachine

namespace Snapshot

mutual

/-- How deeply the lists and maps of a snapshot are nested. -/
def nesting : Snapshot → Nat
  | list items => nestingItems items + 1
  | map entries => nestingEntries entries + 1
  | _ => 0

/-- How deeply the items of a list are nested. -/
def nestingItems : List Snapshot → Nat
  | [] => 0
  | v :: later => max v.nesting (nestingItems later)

/-- How deeply the keys and values of a map are nested. -/
def nestingEntries : List (Snapshot × Snapshot) → Nat
  | [] => 0
  | (key, v) :: later => max (max key.nesting v.nesting) (nestingEntries later)

end

theorem nesting_le_items {items : List Snapshot} {v : Snapshot} (mem : v ∈ items) : v.nesting ≤ nestingItems items := by
  induction items with
  | nil => cases mem
  | cons first later ih =>
    rw [nestingItems]
    rcases List.mem_cons.mp mem with rfl | mem
    · exact Nat.le_max_left _ _
    · exact (ih mem).trans (Nat.le_max_right _ _)

theorem nesting_le_entries {entries : List (Snapshot × Snapshot)} {e : Snapshot × Snapshot} (mem : e ∈ entries) :
    e.1.nesting ≤ nestingEntries entries ∧ e.2.nesting ≤ nestingEntries entries := by
  induction entries with
  | nil => cases mem
  | cons first later ih =>
    obtain ⟨key, v⟩ := first
    rw [nestingEntries]
    rcases List.mem_cons.mp mem with rfl | mem
    · exact ⟨(Nat.le_max_left _ _).trans (Nat.le_max_left _ _), (Nat.le_max_right _ _).trans (Nat.le_max_left _ _)⟩
    · obtain ⟨ofKey, ofValue⟩ := ih mem
      exact ⟨ofKey.trans (Nat.le_max_right _ _), ofValue.trans (Nat.le_max_right _ _)⟩

theorem sizeOf_lt_list {items : List Snapshot} {v : Snapshot} (mem : v ∈ items) : sizeOf v < sizeOf (list items) := by
  have inside := List.sizeOf_lt_of_mem mem
  rw [list.sizeOf_spec]
  omega

theorem sizeOf_lt_map {entries : List (Snapshot × Snapshot)} {e : Snapshot × Snapshot} (mem : e ∈ entries) :
    sizeOf e.1 < sizeOf (map entries) ∧ sizeOf e.2 < sizeOf (map entries) := by
  have inside := List.sizeOf_lt_of_mem mem
  have pair : sizeOf e = 1 + sizeOf e.1 + sizeOf e.2 := rfl
  rw [map.sizeOf_spec]
  omega

end Snapshot

/-- The snapshot of data that holds no other objects. -/
def Payload.plainSnapshot? : Payload → Option Snapshot
  | null => some .null
  | bool b => some (.bool b)
  | int i => some (.int i)
  | num x => some (.num x)
  | str s => some (.str s)
  | range r => some (.range r.start r.stop r.step)
  | type info => some (.type info.name)
  | function f => some (.function f.name)
  | _ => none

namespace Heap

/-- An object and what hangs from it spell a snapshot. -/
inductive Spells (h : Heap) : Ref → Snapshot → Prop where
  /-- Data that holds no other objects. -/
  | plain {r : Ref} {o : Object} {s : Snapshot} (live : h.object? r = some o)
    (data : o.payload.plainSnapshot? = some s) : Spells h r s
  /-- A list. -/
  | list {r : Ref} {o : Object} {items : Array Ref} {shown : List Snapshot} (live : h.object? r = some o)
    (payload : o.payload = .list items) (length : shown.length = items.size)
    (parts : ∀ (i : Nat) q s, items[i]? = some q → shown[i]? = some s → Spells h q s) : Spells h r (.list shown)
  /-- A map. -/
  | map {r : Ref} {o : Object} {entries : Entries} {shown : List (Snapshot × Snapshot)} (live : h.object? r = some o)
    (payload : o.payload = .map entries) (length : shown.length = entries.size)
    (keys : ∀ (i : Nat) e s, entries.values[i]? = some e → shown[i]? = some s → Spells h e.1 s.1)
    (values : ∀ (i : Nat) e s, entries.values[i]? = some e → shown[i]? = some s → Spells h e.2 s.2) :
    Spells h r (.map shown)

variable {h h' : Heap} {r : Ref} {o : Object} {s t : Snapshot}

theorem Spells.exists_object (spells : h.Spells r s) : ∃ o, h.object? r = some o := by
  cases spells with
  | plain live | list live | map live => exact ⟨_, live⟩

/-- New objects do not change what an object spells. -/
theorem Spells.of_adds (spells : h.Spells r s) (adds : h.Adds h') : h'.Spells r s := by
  induction spells with
  | plain live data => exact .plain (adds.kept _ _ live) data
  | list live payload length _ parts => exact .list (adds.kept _ _ live) payload length parts
  | map live payload length _ _ keys values => exact .map (adds.kept _ _ live) payload length keys values

/-- An object spells one snapshot at most. -/
theorem Spells.unique (spells : h.Spells r s) (spells' : h.Spells r t) : s = t := by
  induction spells generalizing t with
  | plain live data =>
    cases spells' with
    | plain live' data' =>
      cases live.symm.trans live'
      exact Option.some.inj (data.symm.trans data')
    | list live' payload | map live' payload =>
      cases live.symm.trans live'
      rw [payload] at data
      cases data
  | list live payload length _ parts =>
    cases spells' with
    | plain live' data =>
      cases live.symm.trans live'
      rw [payload] at data
      cases data
    | list live' payload' length' parts' =>
      cases live.symm.trans live'
      cases payload.symm.trans payload'
      congr 1
      apply List.ext_getElem (length.trans length'.symm)
      intro i inside inside'
      have item := Array.getElem?_eq_getElem (length ▸ inside)
      exact parts i _ _ item (List.getElem?_eq_getElem inside) (parts' i _ _ item (List.getElem?_eq_getElem inside'))
    | map live' payload' =>
      cases live.symm.trans live'
      cases payload.symm.trans payload'
  | map live payload length _ _ keys values =>
    cases spells' with
    | plain live' data =>
      cases live.symm.trans live'
      rw [payload] at data
      cases data
    | list live' payload' =>
      cases live.symm.trans live'
      cases payload.symm.trans payload'
    | map live' payload' length' keys' values' =>
      cases live.symm.trans live'
      cases payload.symm.trans payload'
      congr 1
      apply List.ext_getElem (length.trans length'.symm)
      intro i inside inside'
      have size : i < (Table.values _).length := (length ▸ inside).trans_eq (List.length_map _).symm
      have entry := List.getElem?_eq_getElem size
      have shown := List.getElem?_eq_getElem inside
      have shown' := List.getElem?_eq_getElem inside'
      exact Prod.ext (keys i _ _ entry shown (keys' i _ _ entry shown'))
        (values i _ _ entry shown (values' i _ _ entry shown'))

/-! ### The snapshot of what is spelled -/

theorem leafSnapshot?_of_plain (data : o.payload.plainSnapshot? = some s) : h.leafSnapshot? r o = some s := by
  rw [leafSnapshot?]
  cases payload : o.payload <;> rw [payload] at data <;> first | exact data | cases data

/-- What each item gives is what all of them give, in order. -/
theorem mapM_eq_some_of_getElem? {α β : Type} {f : α → Option β} {l : List α} {results : List β}
    (length : results.length = l.length)
    (each : ∀ (i : Nat) a b, l[i]? = some a → results[i]? = some b → f a = some b) : l.mapM f = some results := by
  induction l generalizing results with
  | nil =>
    rw [List.length_nil, List.length_eq_zero_iff] at length
    rw [length]
    rfl
  | cons a l ih =>
    cases results with
    | nil => cases length
    | cons b results =>
      have rest := ih (Nat.succ.inj length) fun i a b at_i shown => each (i + 1) a b at_i shown
      rw [List.mapM_cons, each 0 a b rfl rfl, rest]
      rfl

/-- An object that spells less than all containers of a path is none of them. -/
theorem Spells.not_isCut {path : List Ref} (spells : h.Spells r s) (room : path.length < snapshotDepth)
    (below : ∀ p ∈ path, ∃ t, h.Spells p t ∧ sizeOf s < sizeOf t) : ¬ IsCut path r := by
  rintro (mem | deep)
  · obtain ⟨t, spells', smaller⟩ := below r mem
    rw [spells.unique spells'] at smaller
    exact Nat.lt_irrefl _ smaller
  · exact absurd deep room.not_ge

/-- What is held by a container spells less than it and the containers around it. -/
theorem Spells.exists_larger {path : List Ref} (spells : h.Spells r s)
    (below : ∀ p ∈ path, ∃ t, h.Spells p t ∧ sizeOf s < sizeOf t) (smaller : sizeOf t < sizeOf s) :
    ∀ p ∈ r :: path, ∃ u, h.Spells p u ∧ sizeOf t < sizeOf u := by
  refine List.forall_mem_cons.mpr ⟨⟨s, spells, smaller⟩, fun p mem => ?_⟩
  obtain ⟨u, around, larger⟩ := below p mem
  exact ⟨u, around, smaller.trans larger⟩

/-- What is spelled is the snapshot, if there is room for it and it spells less than the containers of the path. -/
theorem Spells.snapshotWithin? {room : Nat} {path : List Ref} (spells : h.Spells r s)
    (size : path.length + room = snapshotDepth) (fits : s.nesting ≤ room)
    (below : ∀ p ∈ path, ∃ t, h.Spells p t ∧ sizeOf s < sizeOf t) : h.snapshotWithin? room path r = some s := by
  induction spells generalizing room path with
  | plain live data => exact snapshotWithin?_of_leaf live (leafSnapshot?_of_plain data)
  | @list r o items shown live payload length spelled parts =>
    have self : h.Spells r (.list shown) := .list live payload length spelled
    rw [Snapshot.nesting] at fits
    obtain ⟨room, rfl⟩ : ∃ n, room = n + 1 := ⟨room - 1, by omega⟩
    have size' : (r :: path).length + room = snapshotDepth := by
      rw [List.length_cons]
      omega
    rw [snapshotWithin?_of_whole live (by rw [payload]; rfl) (self.not_isCut (by omega) below), payload]
    apply Option.map_eq_some_iff.mpr ⟨shown, ?_, rfl⟩
    apply mapM_eq_some_of_getElem? (length.trans Array.length_toList.symm)
    intro i q v item shown_i
    have mem := List.mem_of_getElem? shown_i
    exact parts i q v (Array.getElem?_toList.symm.trans item) shown_i size'
      ((Snapshot.nesting_le_items mem).trans (by omega)) (self.exists_larger below (Snapshot.sizeOf_lt_list mem))
  | @map r o entries shown live payload length spelledKeys spelledValues keys values =>
    have self : h.Spells r (.map shown) := .map live payload length spelledKeys spelledValues
    rw [Snapshot.nesting] at fits
    obtain ⟨room, rfl⟩ : ∃ n, room = n + 1 := ⟨room - 1, by omega⟩
    have size' : (r :: path).length + room = snapshotDepth := by
      rw [List.length_cons]
      omega
    rw [snapshotWithin?_of_whole live (by rw [payload]; rfl) (self.not_isCut (by omega) below), payload]
    apply Option.map_eq_some_iff.mpr ⟨shown, ?_, rfl⟩
    apply mapM_eq_some_of_getElem? (length.trans (List.length_map _).symm)
    intro i e v entry shown_i
    have mem := List.mem_of_getElem? shown_i
    obtain ⟨smallKey, smallValue⟩ := Snapshot.sizeOf_lt_map mem
    obtain ⟨deepKey, deepValue⟩ := Snapshot.nesting_le_entries mem
    rw [keys i e v entry shown_i size' (deepKey.trans (by omega)) (self.exists_larger below smallKey),
      values i e v entry shown_i size' (deepValue.trans (by omega)) (self.exists_larger below smallValue)]
    rfl

/-- What is spelled is the snapshot, unless its containers are nested too deeply. -/
theorem Spells.snapshot? (spells : h.Spells r s) (fits : s.nesting ≤ snapshotDepth) : h.snapshot? r = some s := by
  have size : ([] : List Ref).length + snapshotDepth = snapshotDepth := Nat.zero_add _
  exact spells.snapshotWithin? size fits (List.forall_mem_nil _)

end Heap

end ObjectMachine
