import Mathlib.Data.List.Forall2
import Mathlib.Data.List.Induction
import ObjectMachine.Object
/-!
Merging of entries. Of all entries with the same key, one is left: in the place of the first one and with its key,
and with the value of the last one. This is what a map holds to which entries are written one after the other.
-/
namespace ObjectMachine

variable {α β κ : Type}

/-- The value written last under a key: that of the last entry with the same key, or else the given one. -/
def lastUnder (same : α → α → Bool) (key : α) : β → List (α × β) → β
  | value, [] => value
  | value, e :: later => lastUnder same key (if same key e.1 then e.2 else value) later

/-- Entries with the same key become one, in the place and with the key of the first and with the value of the
last. -/
def mergeBy (same : α → α → Bool) : List (α × β) → List (α × β)
  | [] => []
  | (key, value) :: later =>
    (key, lastUnder same key value later) :: (mergeBy same later).filter fun e => !same key e.1

theorem lastUnder_concat (same : α → α → Bool) (key : α) (value : β) (l : List (α × β)) (e : α × β) :
    lastUnder same key value (l ++ [e]) = if same key e.1 then e.2 else lastUnder same key value l := by
  induction l generalizing value with
  | nil => rfl
  | cons x l ih => exact ih _

theorem lastUnder_eq_or (same : α → α → Bool) (key : α) (value : β) (l : List (α × β)) :
    lastUnder same key value l = value ∨ ∃ x ∈ l, x.2 = lastUnder same key value l := by
  induction l generalizing value with
  | nil => exact .inl rfl
  | cons e l ih =>
    rw [lastUnder]
    rcases ih (if same key e.1 then e.2 else value) with last | ⟨x, mem, last⟩
    · rw [last]
      split
      · exact .inr ⟨e, List.mem_cons_self, rfl⟩
      · exact .inl rfl
    · exact .inr ⟨x, List.mem_cons_of_mem _ mem, last⟩

/-- The key of a merged entry is one of the keys. -/
theorem exists_mem_of_mem_mergeBy {same : α → α → Bool} {l : List (α × β)} {e : α × β} (mem : e ∈ mergeBy same l) :
    ∃ x ∈ l, x.1 = e.1 := by
  induction l with
  | nil => cases mem
  | cons x l ih =>
    obtain ⟨key, value⟩ := x
    rcases List.mem_cons.mp mem with rfl | mem
    · exact ⟨_, List.mem_cons_self, rfl⟩
    · obtain ⟨x, mem, same⟩ := ih (List.mem_of_mem_filter mem)
      exact ⟨x, List.mem_cons_of_mem _ mem, same⟩

/-- The value of a merged entry is one of the values. -/
theorem exists_value_of_mem_mergeBy {same : α → α → Bool} {l : List (α × β)} {e : α × β} (mem : e ∈ mergeBy same l) :
    ∃ x ∈ l, x.2 = e.2 := by
  induction l with
  | nil => cases mem
  | cons x l ih =>
    obtain ⟨key, value⟩ := x
    rcases List.mem_cons.mp mem with rfl | mem
    · rcases lastUnder_eq_or same key value l with last | ⟨x, mem, last⟩
      · exact ⟨_, List.mem_cons_self, last.symm⟩
      · exact ⟨x, List.mem_cons_of_mem _ mem, last⟩
    · obtain ⟨x, mem, same⟩ := ih (List.mem_of_mem_filter mem)
      exact ⟨x, List.mem_cons_of_mem _ mem, same⟩

/-! ### Merging by the identity of keys -/

section Identity

variable [DecidableEq κ] (f : α → κ)

/-- Whether two keys have the same identity. -/
def sameBy (a b : α) : Bool := decide (f a = f b)

/-- An entry with the value of another one, if they have the same key. -/
def overwrite (e x : α × β) : α × β := if f x.1 = f e.1 then (x.1, e.2) else x

theorem fst_overwrite (e x : α × β) : (overwrite f e x).1 = x.1 := by
  rw [overwrite]
  split <;> rfl

/-- Of entries with other keys, none is overwritten. -/
theorem map_overwrite_filter {e : α × β} {key : α} (same : f key = f e.1) (l : List (α × β)) :
    (l.filter fun x => !sameBy f key x.1).map (overwrite f e) = l.filter fun x => !sameBy f key x.1 := by
  apply (List.map_congr_left fun x mem => ?_).trans (List.map_id' _)
  have apart := (List.mem_filter.mp mem).2
  rw [sameBy, same, Bool.not_eq_true', decide_eq_false_iff_not] at apart
  exact if_neg fun same => apart same.symm

/-- To overwrite values does not change the choice by keys. -/
theorem filter_map_overwrite (e : α × β) (key : α) (l : List (α × β)) :
    (l.map (overwrite f e)).filter (fun x => !sameBy f key x.1) =
      (l.filter fun x => !sameBy f key x.1).map (overwrite f e) := by
  rw [List.filter_map]
  congr 2
  funext x
  rw [Function.comp_apply, fst_overwrite]

/-- One more entry is merged into the one with its key, or else goes last. -/
theorem mergeBy_concat (l : List (α × β)) (e : α × β) :
    mergeBy (sameBy f) (l ++ [e]) =
      if ∃ x ∈ l, f x.1 = f e.1 then (mergeBy (sameBy f) l).map (overwrite f e) else mergeBy (sameBy f) l ++ [e] := by
  induction l with
  | nil => simp [mergeBy, lastUnder]
  | cons x l ih =>
    obtain ⟨key, value⟩ := x
    rw [List.cons_append, mergeBy, mergeBy, lastUnder_concat, ih, List.map_cons]
    by_cases here : f key = f e.1
    · have first : sameBy f key e.1 = true := decide_eq_true here
      have found : ∃ x ∈ (key, value) :: l, f x.1 = f e.1 := ⟨_, List.mem_cons_self, here⟩
      rw [if_pos first, if_pos found, map_overwrite_filter f here, overwrite, if_pos here]
      split
      · rw [filter_map_overwrite, map_overwrite_filter f here]
      · rw [List.filter_append, List.filter_cons_of_neg (by rw [first]; decide), List.filter_nil, List.append_nil]
    · have other : sameBy f key e.1 = false := decide_eq_false here
      have later : (∃ x ∈ (key, value) :: l, f x.1 = f e.1) ↔ ∃ x ∈ l, f x.1 = f e.1 := by
        rw [List.exists_mem_cons_iff]
        exact or_iff_right here
      rw [if_neg (by rw [other]; decide), overwrite, if_neg here]
      by_cases found : ∃ x ∈ l, f x.1 = f e.1
      · rw [if_pos found, if_pos (later.mpr found), filter_map_overwrite]
      · rw [if_neg found, if_neg (mt later.mp found), List.filter_append,
          List.filter_cons_of_pos (by rw [other]; decide), List.filter_nil, List.cons_append]

/-- Merging loses no key. -/
theorem exists_mem_mergeBy_iff {l : List (α × β)} {k : κ} :
    (∃ x ∈ mergeBy (sameBy f) l, f x.1 = k) ↔ ∃ x ∈ l, f x.1 = k := by
  constructor
  · rintro ⟨e, mem, rfl⟩
    obtain ⟨x, mem, same⟩ := exists_mem_of_mem_mergeBy mem
    exact ⟨x, mem, congrArg f same⟩
  · rintro ⟨x, mem, rfl⟩
    induction l with
    | nil => cases mem
    | cons e l ih =>
      obtain ⟨key, value⟩ := e
      rw [mergeBy]
      by_cases here : f key = f x.1
      · exact ⟨_, List.mem_cons_self, here⟩
      · rcases List.mem_cons.mp mem with rfl | mem
        · exact absurd rfl here
        · obtain ⟨y, found, same⟩ := ih mem
          refine ⟨y, List.mem_cons_of_mem _ (List.mem_filter.mpr ⟨found, ?_⟩), same⟩
          rw [sameBy, Bool.not_eq_true', decide_eq_false_iff_not, same]
          exact here

end Identity

/-! ### Entries of a map -/

namespace Table

variable {ν : Type} [DecidableEq κ] {k : κ} {g : Option ν → ν} {l : List (κ × ν)}

/-- A change under a key that is present changes its value. -/
theorem updateIn_of_mem (nodup : (l.map Prod.fst).Nodup) (mem : k ∈ l.map Prod.fst) :
    updateIn k g l = l.map fun x => if x.1 = k then (x.1, g (some x.2)) else x := by
  induction l with
  | nil => cases mem
  | cons x l ih =>
    obtain ⟨k', v⟩ := x
    obtain ⟨fresh, nodup⟩ := List.nodup_cons.mp nodup
    rw [updateIn, List.map_cons]
    by_cases here : k' = k
    · subst here
      have others : ∀ x ∈ l, (if x.1 = k' then (x.1, g (some x.2)) else x) = x := by
        intro x mem
        exact if_neg fun same => fresh (List.mem_map.mpr ⟨x, mem, same⟩)
      rw [if_pos rfl, if_pos rfl, List.map_congr_left others, List.map_id']
    · have later : k ∈ l.map Prod.fst := (List.mem_cons.mp mem).resolve_left fun same => here same.symm
      rw [if_neg here, if_neg here, ih nodup later]

/-- A change under a key that is absent adds it at the end. -/
theorem updateIn_of_not_mem (absent : k ∉ l.map Prod.fst) : updateIn k g l = l ++ [(k, g none)] := by
  induction l with
  | nil => rfl
  | cons x l ih =>
    obtain ⟨k', v⟩ := x
    obtain ⟨other, absent⟩ := not_or.mp (mt List.mem_cons.mpr absent)
    rw [updateIn, if_neg fun same => other same.symm, ih absent, List.cons_append]

end Table

namespace Entries

/-- The entries of a map, written one after the other: for each the identity of the key, the key and the value. -/
def ofWrites (writes : List ((Key × Ref) × Ref)) : Entries :=
  writes.foldl (fun entries w => entries.put w.1.1 w.1.2 w.2) .empty

/-- A map has the merged entries. -/
theorem entries_ofWrites (writes : List ((Key × Ref) × Ref)) :
    (ofWrites writes).entries = (mergeBy (sameBy Prod.fst) writes).map fun w => (w.1.1, w.1.2, w.2) := by
  induction writes using List.reverseRecOn with
  | nil => rfl
  | append_singleton writes w ih =>
    obtain ⟨⟨k, key⟩, value⟩ := w
    have nodup := (ofWrites writes).nodup_keys
    have keys : k ∈ (ofWrites writes).entries.map Prod.fst ↔ ∃ w ∈ writes, w.1.1 = k := by
      rw [← exists_mem_mergeBy_iff, ih, List.map_map, List.mem_map]
      rfl
    have step : ofWrites (writes ++ [((k, key), value)]) = (ofWrites writes).put k key value := by
      rw [ofWrites, List.foldl_append]
      rfl
    rw [step, put, Table.update, mergeBy_concat]
    dsimp only
    by_cases found : ∃ w ∈ writes, w.1.1 = k
    · rw [Table.updateIn_of_mem nodup (keys.mpr found), if_pos found, ih, List.map_map, List.map_map]
      apply List.map_congr_left
      intro w _
      rw [Function.comp_apply, Function.comp_apply, overwrite]
      dsimp only
      split <;> rfl
    · rw [Table.updateIn_of_not_mem (mt keys.mp found), if_neg found, ih, List.map_append]
      rfl

end Entries

/-! ### Corresponding entries -/

theorem forall₂_filter {R : α → β → Prop} {p : α → Bool} {q : β → Bool} {l : List α} {l' : List β}
    (all : List.Forall₂ R l l') (same : ∀ a ∈ l, ∀ b, R a b → p a = q b) :
    List.Forall₂ R (l.filter p) (l'.filter q) := by
  induction all with
  | nil => exact .nil
  | @cons a b l l' first _ ih =>
    obtain ⟨here, same⟩ := List.forall_mem_cons.mp same
    rw [List.filter_cons, List.filter_cons, here b first]
    split
    · exact .cons first (ih same)
    · exact ih same

section Correspondence

variable {α' β' : Type} {R : α → α' → Prop} {S : β → β' → Prop} {apart : α → α → Prop} {same : α → α → Bool}
  {same' : α' → α' → Bool} {l : List (α × β)} {l' : List (α' × β')}
  (agree : ∀ a a' b b', R a a' → R b b' → apart a b → same a b = same' a' b')
  (all : List.Forall₂ (fun e e' => R e.1 e'.1 ∧ S e.2 e'.2) l l')

include agree all

theorem lastUnder_corresponds {a : α} {a' : α'} {v : β} {v' : β'} (key : R a a') (value : S v v')
    (others : ∀ e ∈ l, apart a e.1) : S (lastUnder same a v l) (lastUnder same' a' v' l') := by
  induction all generalizing v v' with
  | nil => exact value
  | @cons e e' l l' first _ ih =>
    obtain ⟨here, others⟩ := List.forall_mem_cons.mp others
    rw [lastUnder, lastUnder]
    apply ih ?_ others
    rw [agree _ _ _ _ key first.1 here]
    split
    · exact first.2
    · exact value

/-- Entries that correspond are merged alike, if their keys are the same alike. -/
theorem mergeBy_corresponds (pairwise : l.Pairwise fun e e' => apart e.1 e'.1) :
    List.Forall₂ (fun e e' => R e.1 e'.1 ∧ S e.2 e'.2) (mergeBy same l) (mergeBy same' l') := by
  induction all with
  | nil => exact .nil
  | @cons e e' l l' first later ih =>
    obtain ⟨others, pairwise⟩ := List.pairwise_cons.mp pairwise
    rw [mergeBy, mergeBy]
    refine .cons ⟨first.1, lastUnder_corresponds agree later first.1 first.2 others⟩ ?_
    apply forall₂_filter (ih pairwise)
    intro x mem x' corresponds
    obtain ⟨y, y_mem, key⟩ := exists_mem_of_mem_mergeBy mem
    rw [agree _ _ _ _ first.1 corresponds.1 (key ▸ others y y_mem)]

end Correspondence

end ObjectMachine
