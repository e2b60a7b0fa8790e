/-!
A table is a finite map that remembers the order in which its keys arrived. Writing to a key that
is present keeps the key's place, and removing a key closes the gap without moving the others.
The laws below say what each operation does to `get?` and to `keys`.
-/
namespace ObjectMachine

/-- Pairs of keys and values in the order in which the keys were first written; no key occurs
twice. -/
structure Table (κ ν : Type) where
  /-- The pairs, oldest key first. -/
  entries : List (κ × ν)
  /-- No key occurs twice. -/
  nodup_keys : (entries.map Prod.fst).Nodup
deriving DecidableEq

namespace Table

variable {κ ν : Type}

/-- The table without entries. -/
def empty : Table κ ν := ⟨[], List.nodup_nil⟩

instance : Inhabited (Table κ ν) := ⟨empty⟩

/-- The keys, oldest first. -/
def keys (t : Table κ ν) : List κ := t.entries.map Prod.fst

/-- The values, in the order of their keys. -/
def values (t : Table κ ν) : List ν := t.entries.map Prod.snd

/-- The number of keys. -/
def size (t : Table κ ν) : Nat := t.entries.length

/-- The pair at a position counted from the oldest key. -/
def entryAt? (t : Table κ ν) (i : Nat) : Option (κ × ν) := t.entries[i]?

variable [DecidableEq κ]

/-- The value of the first pair that carries the key. -/
def lookupIn (k : κ) : List (κ × ν) → Option ν
  | [] => none
  | (k', v) :: rest => if k' = k then some v else lookupIn k rest

/-- Changes the value of the key where it occurs, and appends the pair where it does not. -/
def updateIn (k : κ) (f : Option ν → ν) : List (κ × ν) → List (κ × ν)
  | [] => [(k, f none)]
  | (k', v') :: rest =>
    if k' = k then (k, f (some v')) :: rest else (k', v') :: updateIn k f rest

/-- Drops the first pair that carries the key. -/
def eraseIn (k : κ) : List (κ × ν) → List (κ × ν)
  | [] => []
  | (k', v') :: rest => if k' = k then rest else (k', v') :: eraseIn k rest

theorem mem_keys_updateIn {k x : κ} {f : Option ν → ν} {l : List (κ × ν)} :
    x ∈ (updateIn k f l).map Prod.fst ↔ x = k ∨ x ∈ l.map Prod.fst := by
  induction l with
  | nil => simp [updateIn]
  | cons e rest ih =>
    obtain ⟨k', v'⟩ := e
    by_cases h : k' = k
    · subst h; simp [updateIn]
    · simp only [updateIn, if_neg h, List.map_cons, List.mem_cons, ih]
      exact or_left_comm

theorem nodup_updateIn {k : κ} {f : Option ν → ν} {l : List (κ × ν)}
    (h : (l.map Prod.fst).Nodup) : ((updateIn k f l).map Prod.fst).Nodup := by
  induction l with
  | nil => simp [updateIn]
  | cons e rest ih =>
    obtain ⟨k', v'⟩ := e
    obtain ⟨hk, hrest⟩ := List.nodup_cons.1 h
    by_cases hkk : k' = k
    · subst hkk; simpa [updateIn] using h
    · simp only [updateIn, if_neg hkk, List.map_cons, List.nodup_cons]
      refine ⟨?_, ih hrest⟩
      rw [mem_keys_updateIn]
      rintro (h' | h')
      · exact hkk h'
      · exact hk h'

theorem eraseIn_sublist (k : κ) (l : List (κ × ν)) : (eraseIn k l).Sublist l := by
  induction l with
  | nil => exact List.Sublist.refl _
  | cons e rest ih =>
    by_cases h : e.1 = k
    · simp [eraseIn, h]
    · simpa [eraseIn, h] using ih

theorem nodup_eraseIn {k : κ} {l : List (κ × ν)} (h : (l.map Prod.fst).Nodup) :
    ((eraseIn k l).map Prod.fst).Nodup :=
  h.sublist ((eraseIn_sublist k l).map Prod.fst)

/-- The value under a key. -/
def get? (t : Table κ ν) (k : κ) : Option ν := lookupIn k t.entries

/-- Whether the key is present. -/
def contains (t : Table κ ν) (k : κ) : Bool := (t.get? k).isSome

/-- Changes the value under a key: a present key keeps its place, a new key goes last. -/
def update (t : Table κ ν) (k : κ) (f : Option ν → ν) : Table κ ν :=
  ⟨updateIn k f t.entries, nodup_updateIn t.nodup_keys⟩

/-- Writes a value under a key. -/
def insert (t : Table κ ν) (k : κ) (v : ν) : Table κ ν := t.update k fun _ => v

/-- Removes a key; the other pairs keep their order. -/
def erase (t : Table κ ν) (k : κ) : Table κ ν :=
  ⟨eraseIn k t.entries, nodup_eraseIn t.nodup_keys⟩

/-- The table built by writing the pairs one after another. -/
def ofList (pairs : List (κ × ν)) : Table κ ν :=
  pairs.foldl (fun t e => t.insert e.1 e.2) empty

@[simp] theorem get?_empty (k : κ) : (empty : Table κ ν).get? k = none := rfl

theorem lookupIn_updateIn (k x : κ) (f : Option ν → ν) (l : List (κ × ν)) :
    lookupIn x (updateIn k f l) = if k = x then some (f (lookupIn k l)) else lookupIn x l := by
  induction l with
  | nil => simp [updateIn, lookupIn]
  | cons e rest ih =>
    obtain ⟨k', v'⟩ := e
    by_cases h : k' = k
    · subst h; by_cases hx : k' = x <;> simp [updateIn, lookupIn, hx]
    · by_cases hx : k' = x
      · subst hx; simp [updateIn, lookupIn, if_neg h, if_neg (Ne.symm h)]
      · simp [updateIn, lookupIn, h, hx, ih]

/-- A change shows under its own key, and leaves all other keys alone. -/
theorem get?_update (t : Table κ ν) (k x : κ) (f : Option ν → ν) :
    (t.update k f).get? x = if k = x then some (f (t.get? k)) else t.get? x :=
  lookupIn_updateIn k x f t.entries

/-- Reading after a write gives the value written, and leaves all other keys alone. -/
theorem get?_insert (t : Table κ ν) (k x : κ) (v : ν) :
    (t.insert k v).get? x = if k = x then some v else t.get? x :=
  get?_update t k x fun _ => v

theorem lookupIn_eq_none_iff {k : κ} {l : List (κ × ν)} :
    lookupIn k l = none ↔ k ∉ l.map Prod.fst := by
  induction l with
  | nil => simp [lookupIn]
  | cons e rest ih =>
    obtain ⟨k', v'⟩ := e
    by_cases h : k' = k
    · simp [lookupIn, h]
    · simp only [lookupIn, if_neg h, ih, List.map_cons, List.mem_cons, not_or]
      exact ⟨fun hr => ⟨fun hk => h hk.symm, hr⟩, fun hr => hr.2⟩

theorem get?_eq_none_iff {t : Table κ ν} {k : κ} : t.get? k = none ↔ k ∉ t.keys :=
  lookupIn_eq_none_iff

theorem lookupIn_eq_some_iff {k : κ} {v : ν} {l : List (κ × ν)} (h : (l.map Prod.fst).Nodup) :
    lookupIn k l = some v ↔ (k, v) ∈ l := by
  induction l with
  | nil => simp [lookupIn]
  | cons e rest ih =>
    obtain ⟨k', v'⟩ := e
    obtain ⟨hk, hrest⟩ := List.nodup_cons.1 h
    by_cases hkk : k' = k
    · subst hkk
      have later : (k', v) ∉ rest := fun mem => hk (List.mem_map.2 ⟨_, mem, rfl⟩)
      simp [lookupIn, later, eq_comm]
    · simp [lookupIn, hkk, Ne.symm hkk, ih hrest]

/-- The entries are the keys with their values. -/
theorem get?_eq_some_iff {t : Table κ ν} {k : κ} {v : ν} : t.get? k = some v ↔ (k, v) ∈ t.entries :=
  lookupIn_eq_some_iff t.nodup_keys

theorem lookupIn_eraseIn {k x : κ} {l : List (κ × ν)} (h : (l.map Prod.fst).Nodup) :
    lookupIn x (eraseIn k l) = if k = x then none else lookupIn x l := by
  induction l with
  | nil => simp [eraseIn, lookupIn]
  | cons e rest ih =>
    obtain ⟨k', v'⟩ := e
    obtain ⟨hk, hrest⟩ := List.nodup_cons.1 h
    by_cases hkk : k' = k
    · subst hkk
      by_cases hx : k' = x
      · subst hx; simpa [eraseIn] using lookupIn_eq_none_iff.2 hk
      · simp [eraseIn, lookupIn, hx]
    · by_cases hx : k' = x
      · subst hx; simp [eraseIn, lookupIn, if_neg hkk, if_neg (Ne.symm hkk)]
      · simp [eraseIn, lookupIn, hkk, hx, ih hrest]

/-- A removed key has no value, and all other keys keep theirs. -/
theorem get?_erase (t : Table κ ν) (k x : κ) :
    (t.erase k).get? x = if k = x then none else t.get? x :=
  lookupIn_eraseIn t.nodup_keys

/-- A change adds the key at the end unless it is present. -/
theorem keys_update (t : Table κ ν) (k : κ) (f : Option ν → ν) :
    (t.update k f).keys = if k ∈ t.keys then t.keys else t.keys ++ [k] := by
  suffices ∀ l : List (κ × ν), (updateIn k f l).map Prod.fst =
      if k ∈ l.map Prod.fst then l.map Prod.fst else l.map Prod.fst ++ [k] from this t.entries
  intro l
  induction l with
  | nil => simp [updateIn]
  | cons e rest ih =>
    obtain ⟨k', v'⟩ := e
    by_cases h : k' = k
    · subst h; simp [updateIn]
    · have h' : k ≠ k' := fun hk => h hk.symm
      simp only [updateIn, if_neg h, List.map_cons, ih, List.mem_cons, h', false_or]
      split <;> simp

/-- A write adds the key at the end unless it is present. -/
theorem keys_insert (t : Table κ ν) (k : κ) (v : ν) :
    (t.insert k v).keys = if k ∈ t.keys then t.keys else t.keys ++ [k] :=
  keys_update t k fun _ => v

end Table

end ObjectMachine
