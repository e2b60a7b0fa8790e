/-!
An arena stores items in numbered slots and hands out vacant slots again, the one released last
first. `Arena.WellFormed` says that the free list names each vacant slot once and no other; every
operation keeps it.
-/
namespace ObjectMachine

/-- Numbered slots, each occupied or vacant, and the vacant ones in the order in which they are
handed out. -/
structure Arena (α : Type) where
  /-- The slots; `none` is a vacant slot. -/
  slots : Array (Option α)
  /-- The vacant slots, the next one to be used first. -/
  free : List Nat

namespace Arena

variable {α : Type}

/-- The arena without slots. -/
def empty : Arena α := ⟨#[], []⟩

instance : Inhabited (Arena α) := ⟨empty⟩

/-- The number of slots, occupied or vacant. -/
def size (a : Arena α) : Nat := a.slots.size

/-- The item in a slot; `none` if the slot is vacant or does not exist. -/
def get? (a : Arena α) (i : Nat) : Option α := a.slots[i]?.join

/-- Whether the slot holds an item. -/
def occupied (a : Arena α) (i : Nat) : Bool := (a.get? i).isSome

/-- Puts an item into the slot that is next on the free list, or into a new slot at the end. -/
def insert (a : Arena α) (x : α) : Nat × Arena α :=
  match a with
  | ⟨slots, i :: rest⟩ => (i, ⟨slots.setIfInBounds i (some x), rest⟩)
  | ⟨slots, []⟩ => (slots.size, ⟨slots.push (some x), []⟩)

/-- Changes the item in a slot; a vacant slot stays vacant. -/
def modify (a : Arena α) (i : Nat) (f : α → α) : Arena α :=
  match a with
  | ⟨slots, free⟩ => ⟨slots.modify i (Option.map f), free⟩

/-- The items, in slot order. -/
def items (a : Arena α) : List α := a.slots.toList.filterMap id

/-- The number of occupied slots. -/
def live (a : Arena α) : Nat := a.items.length

/-- The occupied slots that `keep` does not name, lowest first. -/
def doomed (a : Arena α) (keep : Nat → Bool) : List Nat :=
  (List.range a.size).filter fun i => a.occupied i && !keep i

/-- Vacates the given slots; the last of them is handed out first. -/
def release (a : Arena α) (gone : List Nat) : Arena α :=
  match a with
  | ⟨slots, free⟩ =>
    ⟨gone.foldl (fun s i => s.setIfInBounds i none) slots, gone.reverse ++ free⟩

/-- The free list names each vacant slot exactly once and no occupied slot. -/
structure WellFormed (a : Arena α) : Prop where
  /-- No slot is on the free list twice. -/
  nodup_free : a.free.Nodup
  /-- A slot is on the free list exactly when it exists and is vacant. -/
  mem_free_iff : ∀ i, i ∈ a.free ↔ i < a.size ∧ a.get? i = none

@[simp] theorem get?_empty (i : Nat) : (empty : Arena α).get? i = none := by
  simp [empty, get?]

theorem WellFormed.empty : (empty : Arena α).WellFormed :=
  ⟨List.nodup_nil, fun i => by simp [Arena.empty, Arena.size]⟩

end Arena

end ObjectMachine
