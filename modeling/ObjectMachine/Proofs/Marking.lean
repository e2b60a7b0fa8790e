import ObjectMachine.Heap.Collection
/-!
Marking reaches everything. What a collection marks contains the roots and, with a node, all nodes to
which it holds handles, so a node that is kept never loses what it refers to. Slots that do not exist
are never marked.
-/
namespace ObjectMachine

namespace Marks

variable {m : Marks}

theorem marked_mark (m : Marks) (n n' : Node) :
    (m.mark n).marked n' = (m.marked n' || (m.inRange n && n == n')) := by
  cases n <;> cases n' <;> simp only [mark, marked, inRange]
  · rename_i r r'
    cases r; cases r'
    grind
  · simp
  · simp
  · rename_i s s'
    cases s; cases s'
    grind

@[simp] theorem inRange_mark (m : Marks) (n n' : Node) : (m.mark n).inRange n' = m.inRange n' := by
  cases n <;> cases n' <;> first | rfl | simp [mark, inRange]

theorem inRange_of_marked {n : Node} (h : m.marked n) : m.inRange n := by
  cases n <;> simp only [marked, inRange] at h ⊢ <;> grind

/-- The number of slots without a mark. -/
def unmarked (m : Marks) : Nat := m.objects.count false + m.scopes.count false

theorem unmarked_mark {n : Node} (range : m.inRange n) (new : m.marked n = false) :
    (m.mark n).unmarked + 1 = m.unmarked := by
  cases n with
  | object r =>
    simp only [inRange, decide_eq_true_eq] at range
    simp only [marked, Array.getElem?_eq_getElem range, Option.getD_some] at new
    have pos : 0 < m.objects.count false := Array.count_pos_iff.mpr (new ▸ Array.getElem_mem range)
    simp only [mark, unmarked, Array.setIfInBounds, range, ↓reduceDIte, Array.count_set, new]
    have different : (true == false) = false := rfl
    simp only [BEq.rfl, ↓reduceIte, different, Bool.false_eq_true]
    omega
  | scope s =>
    simp only [inRange, decide_eq_true_eq] at range
    simp only [marked, Array.getElem?_eq_getElem range, Option.getD_some] at new
    have pos : 0 < m.scopes.count false := Array.count_pos_iff.mpr (new ▸ Array.getElem_mem range)
    simp only [mark, unmarked, Array.setIfInBounds, range, ↓reduceDIte, Array.count_set, new]
    have different : (true == false) = false := rfl
    simp only [BEq.rfl, ↓reduceIte, different, Bool.false_eq_true]
    omega

theorem marked_markAll_of_marked {found nodes : List Node} {n : Node} (h : m.marked n) :
    (m.markAll found nodes).2.marked n := by
  induction nodes generalizing m found with
  | nil => exact h
  | cons first rest ih =>
    simp only [markAll]
    split
    · exact ih (by simp [marked_mark, h])
    · exact ih h

@[simp] theorem inRange_markAll (m : Marks) (found nodes : List Node) (n : Node) :
    (m.markAll found nodes).2.inRange n = m.inRange n := by
  induction nodes generalizing m found with
  | nil => rfl
  | cons first rest ih =>
    simp only [markAll]
    split <;> simp [ih]

/-- A wave marks all its nodes. -/
theorem marked_markAll_of_mem {found nodes : List Node} {n : Node} (mem : n ∈ nodes)
    (range : m.inRange n) : (m.markAll found nodes).2.marked n := by
  induction nodes generalizing m found with
  | nil => cases mem
  | cons first rest ih =>
    simp only [markAll]
    rcases List.mem_cons.mp mem with rfl | mem
    · split
      · exact marked_markAll_of_marked (by simp [marked_mark, range])
      · rename_i known
        exact marked_markAll_of_marked (by simpa [range] using known)
    · split
      · exact ih mem (by simpa using range)
      · exact ih mem range

/-- What a wave marks is listed. -/
theorem mem_found_of_marked {found nodes : List Node} {n : Node}
    (h : (m.markAll found nodes).2.marked n) :
    m.marked n ∨ n ∈ (m.markAll found nodes).1 := by
  have known (m : Marks) (found nodes : List Node) (n : Node) (mem : n ∈ found) :
      n ∈ (m.markAll found nodes).1 := by
    induction nodes generalizing m found with
    | nil => exact mem
    | cons first rest ih =>
      simp only [markAll]
      split
      · exact ih _ _ (List.mem_cons_of_mem _ mem)
      · exact ih _ _ mem
  induction nodes generalizing m found with
  | nil => exact .inl h
  | cons first rest ih =>
    simp only [markAll] at h ⊢
    split at h
    · rename_i new
      simp only [new, ↓reduceIte]
      rcases ih h with marked | mem
      · simp only [marked_mark, Bool.or_eq_true, Bool.and_eq_true, beq_iff_eq] at marked
        rcases marked with marked | ⟨-, rfl⟩
        · exact .inl marked
        · exact .inr (known _ _ _ _ List.mem_cons_self)
      · exact .inr mem
    · rename_i old
      simp only [old, Bool.false_eq_true, ↓reduceIte]
      exact ih h

/-- A wave uses up as many slots without a mark as it lists nodes. -/
theorem unmarked_markAll (m : Marks) (found nodes : List Node) :
    (m.markAll found nodes).2.unmarked + (m.markAll found nodes).1.length =
      m.unmarked + found.length := by
  induction nodes generalizing m found with
  | nil => rfl
  | cons first rest ih =>
    simp only [markAll]
    split
    · rename_i new
      simp only [Bool.and_eq_true, Bool.not_eq_true'] at new
      have := unmarked_mark new.1 new.2
      rw [ih, List.length_cons]
      omega
    · exact ih m found

end Marks

namespace Heap

variable {h : Heap} {m : Marks}

theorem marked_spread_of_marked {wave : List Node} {waves : Nat} {n : Node} (marked : m.marked n) :
    (h.spread m wave waves).marked n := by
  induction waves generalizing m wave with
  | zero => exact marked
  | succ waves ih =>
    simp only [spread]
    split
    · exact Marks.marked_markAll_of_marked marked
    · exact ih (Marks.marked_markAll_of_marked marked)

@[simp] theorem inRange_spread (h : Heap) (m : Marks) (wave : List Node) (waves : Nat) (n : Node) :
    (h.spread m wave waves).inRange n = m.inRange n := by
  induction waves generalizing m wave with
  | zero => rfl
  | succ waves ih =>
    simp only [spread]
    split <;> simp [ih]

theorem marked_spread_of_mem {wave : List Node} {waves : Nat} {n : Node} (mem : n ∈ wave)
    (range : m.inRange n) : (h.spread m wave (waves + 1)).marked n := by
  simp only [spread]
  split
  · exact Marks.marked_markAll_of_mem mem range
  · exact marked_spread_of_marked (Marks.marked_markAll_of_mem mem range)

/-- With more waves than slots without a mark, marking ends when everything that marked nodes hold is
marked. -/
theorem marked_links_spread {wave : List Node} {waves : Nat} (enough : m.unmarked < waves)
    (closed : ∀ n, m.marked n → ∀ l ∈ h.linksOf n, m.inRange l → m.marked l ∨ l ∈ wave)
    {n l : Node} (marked : (h.spread m wave waves).marked n) (link : l ∈ h.linksOf n)
    (range : m.inRange l) : (h.spread m wave waves).marked l := by
  induction waves generalizing m wave with
  | zero => omega
  | succ waves ih =>
    have count := m.unmarked_markAll [] wave
    have closed' : ∀ n, (m.markAll [] wave).2.marked n → ∀ l ∈ h.linksOf n, m.inRange l →
        (m.markAll [] wave).2.marked l ∨ l ∈ (m.markAll [] wave).1.flatMap h.linksOf := by
      intro n marked l link range
      rcases Marks.mem_found_of_marked marked with old | found
      · rcases closed n old l link range with old | mem
        · exact .inl (Marks.marked_markAll_of_marked old)
        · exact .inl (Marks.marked_markAll_of_mem mem range)
      · exact .inr (List.mem_flatMap.mpr ⟨n, found, link⟩)
    simp only [spread] at marked ⊢
    split
    · rename_i nothing
      simp only [nothing, ↓reduceIte] at marked
      rw [List.isEmpty_iff.mp nothing] at closed'
      simpa using closed' n marked l link range
    · rename_i something
      simp only [something, Bool.false_eq_true, ↓reduceIte] at marked
      have found : (m.markAll [] wave).1 ≠ [] := by simpa [List.isEmpty_iff] using something
      have pos := List.length_pos_iff.mpr found
      simp only [List.length_nil, Nat.add_zero] at count
      exact ih (by omega) (by simpa using closed') marked (by simpa using range)

/-- Whether a node has a slot. -/
def hasSlot (h : Heap) : Node → Bool
  | .object r => r.slot < h.objects.size
  | .scope s => s.slot < h.scopes.size

theorem inRange_noMarks (h : Heap) (n : Node) : h.noMarks.inRange n = h.hasSlot n := by
  cases n <;> simp [noMarks, Marks.inRange, hasSlot]

theorem marked_noMarks (h : Heap) (n : Node) : h.noMarks.marked n = false := by
  cases n <;> simp [noMarks, Marks.marked, Array.getElem?_replicate] <;> grind

theorem unmarked_noMarks (h : Heap) : h.noMarks.unmarked = h.objects.size + h.scopes.size := by
  simp [noMarks, Marks.unmarked]

/-- The roots are marked. -/
theorem marked_reached_of_root {roots : List Node} {n : Node} (mem : n ∈ permanentRoots ++ roots)
    (slot : h.hasSlot n) : (h.reached roots).marked n :=
  marked_spread_of_mem mem (by rw [inRange_noMarks]; exact slot)

/-- What a marked node holds is marked. -/
theorem marked_reached_of_link {roots : List Node} {n l : Node}
    (marked : (h.reached roots).marked n) (link : l ∈ h.linksOf n) (slot : h.hasSlot l) :
    (h.reached roots).marked l := by
  refine marked_links_spread ?_ ?_ marked link (by rw [inRange_noMarks]; exact slot)
  · rw [unmarked_noMarks]
    omega
  · intro n marked
    rw [marked_noMarks] at marked
    cases marked

end Heap

end ObjectMachine
