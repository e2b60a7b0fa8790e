import ObjectMachine.Proofs.Merging
/-!
Maps told by their history. Of all edits that were made to a map, some began an entry: they wrote under a key that was
absent at the time. Such an entry is there as long as its key is not removed; it keeps the key object of the edit that
began it and its place among the others, and has the value that was written last.
-/
namespace ObjectMachine

namespace Table

variable {κ ν : Type} [DecidableEq κ] {k : κ} {l : List (κ × ν)}

/-- Without the first pair of a key there is none of it. -/
theorem eraseIn_eq_filter (nodup : (l.map Prod.fst).Nodup) : eraseIn k l = l.filter fun e => e.1 ≠ k := by
  induction l with
  | nil => rfl
  | cons e later ih =>
    obtain ⟨k', v⟩ := e
    obtain ⟨fresh, nodup⟩ := List.nodup_cons.mp nodup
    rw [eraseIn]
    by_cases here : k' = k
    · subst here
      have others : ∀ e ∈ later, decide (e.1 ≠ k') = true := fun e mem =>
        decide_eq_true fun same => fresh (List.mem_map.mpr ⟨e, mem, same⟩)
      rw [if_pos rfl, List.filter_cons_of_neg (by simp), List.filter_eq_self.mpr others]
    · rw [if_neg here, List.filter_cons_of_pos (by simpa using here), ih nodup]

end Table

/-- An edit of a map. -/
inductive Edit where
  /-- A value is written under a key. -/
  | put (identity : Key) (key value : Ref)
  /-- A key is removed. -/
  | drop (identity : Key)
deriving DecidableEq

namespace Edit

variable {k : Key} {e : Edit} {edits : List Edit} {p : Nat} {key value : Ref}

/-- The key that is edited. -/
def identity : Edit → Key
  | put k _ _ => k
  | drop k => k

/-- The value that is written. -/
def value? : Edit → Option Ref
  | put _ _ value => some value
  | drop _ => none

/-- Edits the entries of a map. -/
def apply (entries : Entries) : Edit → Entries
  | put k key value => entries.put k key value
  | drop k => entries.erase k

/-! ### The reference -/

/-- The value that the last edit of a key wrote; none if the key was never written or is removed. -/
def lastValue? (k : Key) (edits : List Edit) : Option Ref :=
  (edits.filter fun e => e.identity = k).getLast?.bind value?

/-- The entry that the edit at a place began, if it did begin one that is still there. -/
def entryOf? (edits : List Edit) (p : Nat) : Option (Key × Ref × Ref) :=
  match edits[p]? with
  | some (put k key _) =>
    if lastValue? k (edits.take p) = none ∧ drop k ∉ edits.drop (p + 1) then
      (lastValue? k edits).map fun value => (k, key, value)
    else none
  | _ => none

/-- The entries of a map to which edits were made: for each the identity of its key, the key object with which it
began, and the value that was written last, in the order in which they began. -/
def reference (edits : List Edit) : List (Key × Ref × Ref) := (List.range edits.length).filterMap (entryOf? edits)

/-! ### One more edit -/

theorem lastValue?_concat (k : Key) (edits : List Edit) (e : Edit) :
    lastValue? k (edits ++ [e]) = if e.identity = k then e.value? else lastValue? k edits := by
  rw [lastValue?, List.filter_append]
  by_cases here : e.identity = k
  · rw [List.filter_cons_of_pos (by simpa using here), List.filter_nil, List.getLast?_concat, if_pos here]
    rfl
  · rw [List.filter_cons_of_neg (by simpa using here), List.filter_nil, List.append_nil, if_neg here]
    rfl

/-- Before the end, a place has the same edit in front of it and behind it, apart from the one that was added. -/
theorem take_drop_concat (lt : p < edits.length) (e : Edit) :
    (edits ++ [e])[p]? = edits[p]? ∧ (edits ++ [e]).take p = edits.take p ∧
      (edits ++ [e]).drop (p + 1) = edits.drop (p + 1) ++ [e] :=
  ⟨List.getElem?_append_left lt, List.take_append_of_le_length (Nat.le_of_lt lt), List.drop_append_of_le_length lt⟩

/-- A key that was written and not removed since has a value. -/
theorem lastValue?_ne_none (wrote : edits[p]? = some (put k key value)) (kept : drop k ∉ edits.drop (p + 1)) :
    lastValue? k edits ≠ none := by
  induction edits using List.reverseRecOn with
  | nil => cases wrote
  | append_singleton edits e ih =>
    rw [lastValue?_concat]
    by_cases before : p < edits.length
    · obtain ⟨same, -, later⟩ := take_drop_concat before e
      rw [same] at wrote
      rw [later, List.mem_append, not_or] at kept
      split
      · rename_i here
        cases e with
        | put k' key' value' => exact Option.some_ne_none value'
        | drop k' => exact absurd (List.mem_singleton.mpr (congrArg drop here.symm)) kept.2
      · exact ih wrote kept.1
    · have last : p = edits.length := by
        have := (List.getElem?_eq_some_iff.mp wrote).1
        rw [List.length_append, List.length_singleton] at this
        omega
      subst last
      rw [List.getElem?_concat_length, Option.some_inj] at wrote
      subst wrote
      exact (if_pos rfl).trans_ne (Option.some_ne_none value)

/-- To write under a key gives the entry of the key the new value, and leaves the others alone. -/
theorem entryOf?_concat_put (lt : p < edits.length) (k : Key) (key value : Ref) :
    entryOf? (edits ++ [put k key value]) p =
      (entryOf? edits p).map fun x => if x.1 = k then (x.1, x.2.1, value) else x := by
  obtain ⟨same, taken, later⟩ := take_drop_concat lt (put k key value)
  rw [entryOf?, entryOf?, same, taken, later]
  cases wrote : edits[p]? with
  | none => rfl
  | some first =>
    cases first with
    | drop k' => rfl
    | put k' key' value' =>
      have dropped : drop k' ∈ edits.drop (p + 1) ++ [put k key value] ↔ drop k' ∈ edits.drop (p + 1) := by simp
      simp only [lastValue?_concat, dropped]
      split
      · rename_i there
        obtain ⟨last, found⟩ := Option.ne_none_iff_exists'.mp (lastValue?_ne_none wrote there.2)
        rw [found]
        by_cases here : k' = k
        · subst here
          simp [identity, value?]
        · simp [identity, here, Ne.symm here]
      · rfl

/-- To remove a key removes its entry, and leaves the others alone. -/
theorem entryOf?_concat_drop (lt : p < edits.length) (k : Key) :
    entryOf? (edits ++ [drop k]) p = (entryOf? edits p).filter fun x => x.1 ≠ k := by
  obtain ⟨same, taken, later⟩ := take_drop_concat lt (drop k)
  rw [entryOf?, entryOf?, same, taken, later]
  cases wrote : edits[p]? with
  | none => rfl
  | some first =>
    cases first with
    | drop k' => rfl
    | put k' key' value' =>
      simp only [lastValue?_concat]
      by_cases here : k' = k
      · subst here
        rw [if_neg (by simp)]
        split
        · cases lastValue? k' edits <;> simp [Option.filter]
        · rfl
      · have dropped : drop k' ∈ edits.drop (p + 1) ++ [drop k] ↔ drop k' ∈ edits.drop (p + 1) := by simp [here]
        simp only [dropped]
        split
        · cases lastValue? k' edits <;> simp [identity, here, Ne.symm here, Option.filter]
        · rfl

/-- The places of a history with one more edit. -/
theorem reference_concat (edits : List Edit) (e : Edit) :
    reference (edits ++ [e]) =
      (List.range edits.length).filterMap (entryOf? (edits ++ [e])) ++
        (entryOf? (edits ++ [e]) edits.length).toList := by
  rw [reference, List.length_append, List.length_singleton, List.range_succ, List.filterMap_append]
  cases last : entryOf? (edits ++ [e]) edits.length <;> simp [last]

/-- To write under a key that is there changes the value of its entry; under another key, it begins an entry behind all
others. -/
theorem reference_concat_put (edits : List Edit) (k : Key) (key value : Ref) :
    reference (edits ++ [put k key value]) =
      ((reference edits).map fun x => if x.1 = k then (x.1, x.2.1, value) else x) ++
        if lastValue? k edits = none then [(k, key, value)] else [] := by
  have earlier : (List.range edits.length).filterMap (entryOf? (edits ++ [put k key value])) =
      (reference edits).map fun x => if x.1 = k then (x.1, x.2.1, value) else x := by
    rw [reference, List.map_filterMap]
    exact List.filterMap_congr fun p mem => entryOf?_concat_put (List.mem_range.mp mem) k key value
  have last : entryOf? (edits ++ [put k key value]) edits.length =
      if lastValue? k edits = none then some (k, key, value) else none := by
    rw [entryOf?, List.getElem?_concat_length, List.take_left' rfl]
    simp [lastValue?_concat, identity, value?]
  rw [reference_concat, earlier, last]
  split <;> rfl

/-- To remove a key leaves the entries of the others. -/
theorem reference_concat_drop (edits : List Edit) (k : Key) :
    reference (edits ++ [drop k]) = (reference edits).filter fun x => x.1 ≠ k := by
  have earlier : (List.range edits.length).filterMap (entryOf? (edits ++ [drop k])) =
      (reference edits).filter fun x => x.1 ≠ k := by
    rw [reference, List.filter_filterMap]
    exact List.filterMap_congr fun p mem => entryOf?_concat_drop (List.mem_range.mp mem) k
  have last : entryOf? (edits ++ [drop k]) edits.length = none := by
    rw [entryOf?, List.getElem?_concat_length]
  rw [reference_concat, earlier, last]
  exact List.append_nil _

/-! ### Replay -/

/-- The entries that edits of an empty map leave. -/
def replay (edits : List Edit) : Entries := edits.foldl apply .empty

theorem replay_concat (edits : List Edit) (e : Edit) : replay (edits ++ [e]) = e.apply (replay edits) := by
  rw [replay, List.foldl_append]
  rfl

/-- A key has the value that was written last. -/
theorem get?_replay (edits : List Edit) (k : Key) : ((replay edits).get? k).map Prod.snd = lastValue? k edits := by
  induction edits using List.reverseRecOn with
  | nil => rfl
  | append_singleton edits e ih =>
    rw [replay_concat, lastValue?_concat]
    cases e with
    | put k' key value =>
      rw [apply, Entries.put, Table.get?_update]
      by_cases here : k' = k
      · rw [if_pos here, identity, if_pos here]
        cases (replay edits).get? k' <;> rfl
      · rw [if_neg here, identity, if_neg here, ih]
    | drop k' =>
      rw [apply, Table.get?_erase]
      by_cases here : k' = k
      · rw [if_pos here, identity, if_pos here]
        rfl
      · rw [if_neg here, identity, if_neg here, ih]

/-- A key is absent while no value is written under it. -/
theorem not_mem_keys_replay_iff (edits : List Edit) (k : Key) :
    k ∉ (replay edits).entries.map Prod.fst ↔ lastValue? k edits = none := by
  rw [← get?_replay, Option.map_eq_none_iff]
  exact Table.get?_eq_none_iff.symm

/-- A map to which edits were made has the entries of the reference. -/
theorem entries_replay (edits : List Edit) : (replay edits).entries = reference edits := by
  induction edits using List.reverseRecOn with
  | nil => rfl
  | append_singleton edits e ih =>
    have nodup := (replay edits).nodup_keys
    have absent := not_mem_keys_replay_iff edits
    rw [replay_concat]
    cases e with
    | put k key value =>
      rw [reference_concat_put, ← ih, apply, Entries.put, Table.update]
      by_cases found : lastValue? k edits = none
      · have others : ∀ x ∈ (replay edits).entries, (if x.1 = k then (x.1, x.2.1, value) else x) = x := fun x mem =>
          if_neg fun same => (absent k).mpr found (List.mem_map.mpr ⟨x, mem, same⟩)
        rw [if_pos found, List.map_congr_left others, List.map_id']
        exact Table.updateIn_of_not_mem ((absent k).mpr found)
      · rw [if_neg found, List.append_nil]
        exact Table.updateIn_of_mem nodup (not_not.mp (mt (absent k).mp found))
    | drop k =>
      rw [reference_concat_drop, ← ih]
      exact Table.eraseIn_eq_filter nodup

end Edit

end ObjectMachine
