import ObjectMachine.Proofs.Handles
import ObjectMachine.Proofs.Kinds
/-!
A collection frees exactly the garbage. Marking marks the nodes that can be reached and no others: the
waves only ever hold reachable nodes, and what is marked at the end is closed under handles. What is swept
is therefore what no path of handles leads to, and a second collection finds the same paths and nothing
to sweep.
-/
namespace ObjectMachine

namespace Marks

variable {m : Marks}

/-- A wave lists none but its own nodes. -/
theorem mem_of_mem_markAll {found nodes : List Node} {n : Node}
    (mem : n ∈ (m.markAll found nodes).1) : n ∈ found ∨ n ∈ nodes := by
  induction nodes generalizing m found with
  | nil => exact .inl mem
  | cons first rest ih =>
    simp only [markAll] at mem
    split at mem
    · rcases ih mem with mem | mem
      · rcases List.mem_cons.mp mem with rfl | mem
        · exact .inr List.mem_cons_self
        · exact .inl mem
      · exact .inr (List.mem_cons_of_mem _ mem)
    · rcases ih mem with mem | mem
      · exact .inl mem
      · exact .inr (List.mem_cons_of_mem _ mem)

/-- A wave marks none but its own nodes. -/
theorem marked_or_mem_of_marked_markAll {nodes : List Node} {n : Node}
    (marked : (m.markAll [] nodes).2.marked n) : m.marked n ∨ n ∈ nodes := by
  rcases mem_found_of_marked marked with old | found
  · exact .inl old
  · exact .inr ((mem_of_mem_markAll found).resolve_left List.not_mem_nil)

end Marks

namespace Heap

variable {h : Heap} {roots : List Node}

theorem reaches_of_mem_permanentRoots {n : Node} (mem : n ∈ permanentRoots) : h.Reaches roots n := by
  obtain ⟨r, fixed, rfl⟩ := mem_objectNodes.mp mem
  rcases List.mem_append.mp fixed with singleton | type
  · exact .singleton singleton
  · rcases List.mem_append.mp type with kind | errorKind
    · obtain ⟨k, -, rfl⟩ := List.mem_map.mp kind
      exact .kind k
    · obtain ⟨k, -, rfl⟩ := List.mem_map.mp errorKind
      exact .errorKind k

theorem mem_permanentRoots_of_singleton {r : Ref} (mem : r ∈ Ref.singletons) :
    .object r ∈ permanentRoots :=
  mem_objectNodes.mpr ⟨r, List.mem_append_left _ mem, rfl⟩

theorem mem_permanentRoots_of_type {r : Ref} (mem : r ∈ builtinTypeRefs) :
    .object r ∈ permanentRoots :=
  mem_objectNodes.mpr ⟨r, List.mem_append_right _ mem, rfl⟩

/-- The waves hold, and mark, only what can be reached. -/
theorem reaches_of_marked_spread {m : Marks} {wave : List Node} {waves : Nat}
    (old : ∀ n, m.marked n → h.Reaches roots n) (new : ∀ n ∈ wave, h.Reaches roots n) {n : Node}
    (marked : (h.spread m wave waves).marked n) : h.Reaches roots n := by
  induction waves generalizing m wave with
  | zero => exact old n marked
  | succ waves ih =>
    -- a wave marks its own nodes, and hands their links to the next one
    have old' : ∀ n, (m.markAll [] wave).2.marked n → h.Reaches roots n := fun n marked =>
      (Marks.marked_or_mem_of_marked_markAll marked).elim (old n) (new n)
    simp only [spread] at marked
    split at marked
    · exact old' n marked
    · refine ih old' (fun l mem => ?_) marked
      obtain ⟨n, found, link⟩ := List.mem_flatMap.mp mem
      have known : n ∈ wave := (Marks.mem_of_mem_markAll found).resolve_left List.not_mem_nil
      exact .handle (new n known) (mem_linksOf_iff.mp link)

theorem hasSlot_of_occupied {n : Node} (occupied : h.Occupied n) : h.hasSlot n := by
  cases n with
  | object r =>
    obtain ⟨o, found⟩ := Option.isSome_iff_exists.mp occupied
    exact hasSlot_of_object? found
  | scope s =>
    obtain ⟨scope, found⟩ := Option.isSome_iff_exists.mp occupied
    simp only [hasSlot, decide_eq_true_eq]
    exact Arena.lt_size_of_get? found

theorem RefersTo.occupied {n l : Node} (refers : h.RefersTo n l) : h.Occupied n := by
  cases refers with
  | object found => exact Option.isSome_iff_exists.mpr ⟨_, found⟩
  | scope found => exact Option.isSome_iff_exists.mpr ⟨_, found⟩

/-- Marking marks exactly what can be reached, as far as it has a slot. -/
theorem marked_reached_iff {n : Node} :
    (h.reached roots).marked n ↔ h.Reaches roots n ∧ h.hasSlot n := by
  constructor
  · intro marked
    refine ⟨?_, ?_⟩
    · refine reaches_of_marked_spread (fun n marked => ?_) (fun n mem => ?_) marked
      · rw [marked_noMarks] at marked
        cases marked
      · exact (List.mem_append.mp mem).elim reaches_of_mem_permanentRoots .root
    · have range := Marks.inRange_of_marked marked
      rwa [reached, inRange_spread, inRange_noMarks] at range
  · rintro ⟨reached, slot⟩
    -- by induction on the path: its first node is a root, and links of marked nodes are marked
    have permanent {r : Ref} (mem : .object r ∈ permanentRoots) (slot : h.hasSlot (.object r)) :
        (h.reached roots).marked (.object r) :=
      marked_reached_of_root (List.mem_append_left _ mem) slot
    induction reached with
    | root mem => exact marked_reached_of_root (List.mem_append_right _ mem) slot
    | singleton mem => exact permanent (mem_permanentRoots_of_singleton mem) slot
    | kind k => exact permanent (mem_permanentRoots_of_type k.ref_mem_builtinTypeRefs) slot
    | errorKind k => exact permanent (mem_permanentRoots_of_type k.ref_mem_builtinTypeRefs) slot
    | handle reached refers ih =>
      have marked := ih (hasSlot_of_occupied refers.occupied)
      exact marked_reached_of_link marked (mem_linksOf_iff.mpr refers) slot

/-- A collection keeps the scopes that are marked and vacates all other slots. -/
theorem scope?_collect (h : Heap) (roots : List Node) (s : ScopeRef) :
    (h.collect roots).2.scope? s =
      if (h.reached roots).marked (.scope s) then h.scope? s else none := by
  obtain ⟨slot⟩ := s
  simp only [collect, scope?, Arena.get?_release, Arena.mem_doomed]
  cases marked : (h.reached roots).marked (.scope ⟨slot⟩) with
  | true => simp
  | false =>
    cases found : h.scopes.get? slot with
    | none => simp
    | some scope => simp

/-! ### What a collection leaves -/

/-- What has vanished from one arena to another: slots that were occupied and are vacant. -/
def vanished {α : Type} (before after : Arena α) : List Nat :=
  (List.range before.size).filter fun i => before.occupied i && !after.occupied i

theorem vanished_release_doomed {α : Type} (a : Arena α) (keep : Nat → Bool) :
    vanished a (a.release (a.doomed keep)) = a.doomed keep := by
  refine List.filter_congr fun i _ => ?_
  cases occupied : a.occupied i with
  | false => rfl
  | true =>
    have gone : i ∈ a.doomed keep ↔ keep i = false := by
      rw [Arena.mem_doomed]
      exact and_iff_right occupied
    simp only [Arena.occupied] at occupied ⊢
    rw [Arena.get?_release]
    cases kept : keep i <;> simp [gone, kept, occupied]

theorem release_nil {α : Type} (a : Arena α) : a.release [] = a := rfl

/-- What a collection from given roots leaves of a heap, and how many objects it says were freed. -/
structure Collected (h : Heap) (roots : List Node) (freed : Nat) (h' : Heap) : Prop where
  /-- A slot stays occupied exactly if it can be reached. -/
  occupied_iff : ∀ n, h'.Occupied n ↔ h.Occupied n ∧ h.Reaches roots n
  /-- Objects that are left are as they were. -/
  object? : ∀ r o, h'.object? r = some o → h.object? r = some o
  /-- Scopes that are left are as they were. -/
  scope? : ∀ s scope, h'.scope? s = some scope → h.scope? s = some scope
  /-- What is left holds handles only of what is left. -/
  closed : ∀ n l, h'.RefersTo n l → h'.Occupied l
  /-- The count is that of the freed objects. -/
  freed : freed = (vanished h.objects h'.objects).length
  /-- The budget books the freed objects and scopes. -/
  budget : h'.budget =
    h.budget.free ((vanished h.objects h'.objects).length + (vanished h.scopes h'.scopes).length)
  /-- The count for the next collection starts again. -/
  sinceCollection : h'.sinceCollection = 0
  /-- The object slots are in order. -/
  objects : h'.objects.WellFormed
  /-- The scope slots are in order. -/
  scopes : h'.scopes.WellFormed

theorem occupied_collect_iff {n : Node} :
    (h.collect roots).2.Occupied n ↔ h.Occupied n ∧ h.Reaches roots n := by
  have marked (occupied : h.Occupied n) : (h.reached roots).marked n ↔ h.Reaches roots n := by
    rw [marked_reached_iff]
    exact and_iff_left (hasSlot_of_occupied occupied)
  cases n with
  | object r =>
    simp only [Occupied, object?_collect] at marked ⊢
    split <;> rename_i mark
    · exact ⟨fun occupied => ⟨occupied, (marked occupied).mp mark⟩, And.left⟩
    · exact ⟨(nomatch ·), fun kept => absurd ((marked kept.1).mpr kept.2) mark⟩
  | scope s =>
    simp only [Occupied, scope?_collect] at marked ⊢
    split <;> rename_i mark
    · exact ⟨fun occupied => ⟨occupied, (marked occupied).mp mark⟩, And.left⟩
    · exact ⟨(nomatch ·), fun kept => absurd ((marked kept.1).mpr kept.2) mark⟩

theorem object?_of_collect {r : Ref} {o : Object} (found : (h.collect roots).2.object? r = some o) :
    h.object? r = some o := by
  rw [object?_collect] at found
  split at found
  · exact found
  · cases found

theorem scope?_of_collect {s : ScopeRef} {scope : Scope}
    (found : (h.collect roots).2.scope? s = some scope) : h.scope? s = some scope := by
  rw [scope?_collect] at found
  split at found
  · exact found
  · cases found

theorem RefersTo.of_collect {n l : Node} (refers : (h.collect roots).2.RefersTo n l) :
    h.RefersTo n l := by
  cases refers with
  | object found refers => exact .object (object?_of_collect found) refers
  | scope found refers => exact .scope (scope?_of_collect found) refers

/-- What can be reached keeps its handles. -/
theorem RefersTo.collect {n l : Node} (reached : h.Reaches roots n) (refers : h.RefersTo n l) :
    (h.collect roots).2.RefersTo n l := by
  have occupied := occupied_collect_iff.mpr ⟨refers.occupied, reached⟩
  cases refers with
  | object found refers =>
    obtain ⟨o, kept⟩ := Option.isSome_iff_exists.mp occupied
    cases found.symm.trans (object?_of_collect kept)
    exact .object kept refers
  | scope found refers =>
    obtain ⟨scope, kept⟩ := Option.isSome_iff_exists.mp occupied
    cases found.symm.trans (scope?_of_collect kept)
    exact .scope kept refers

/-- A collection cuts no path from the roots and makes none. -/
theorem reaches_collect_iff {n : Node} :
    (h.collect roots).2.Reaches roots n ↔ h.Reaches roots n := by
  constructor
  · intro reached
    induction reached with
    | root mem => exact .root mem
    | singleton mem => exact .singleton mem
    | kind k => exact .kind k
    | errorKind k => exact .errorKind k
    | handle _ refers ih => exact .handle ih refers.of_collect
  · intro reached
    induction reached with
    | root mem => exact .root mem
    | singleton mem => exact .singleton mem
    | kind k => exact .kind k
    | errorKind k => exact .errorKind k
    | handle reached refers ih => exact .handle ih (refers.collect reached)

theorem doomed_eq_nil {h : Heap} (all : ∀ n, h.Occupied n → h.Reaches roots n) :
    (h.objects.doomed fun i => (h.reached roots).marked (.object ⟨i⟩)) = [] ∧
      (h.scopes.doomed fun i => (h.reached roots).marked (.scope ⟨i⟩)) = [] := by
  have marked (n : Node) (occupied : h.Occupied n) : (h.reached roots).marked n :=
    marked_reached_iff.mpr ⟨all n occupied, hasSlot_of_occupied occupied⟩
  constructor
  · refine List.eq_nil_iff_forall_not_mem.mpr fun i mem => ?_
    obtain ⟨occupied, unmarked⟩ := Arena.mem_doomed.mp mem
    rw [marked (.object ⟨i⟩) occupied] at unmarked
    cases unmarked
  · refine List.eq_nil_iff_forall_not_mem.mpr fun i mem => ?_
    obtain ⟨occupied, unmarked⟩ := Arena.mem_doomed.mp mem
    rw [marked (.scope ⟨i⟩) occupied] at unmarked
    cases unmarked

/-- A collection frees exactly what cannot be reached from the roots, and a second one frees nothing. -/
theorem collect_exact {h : Heap} {roots : List Node} (objects : h.objects.WellFormed)
    (scopes : h.scopes.WellFormed)
    (closed : ∀ n l, h.Reaches roots n → h.RefersTo n l → h.Occupied l) :
    h.Collected roots (h.collect roots).1 (h.collect roots).2 ∧
    ((h.collect roots).2.collect roots).1 = 0 ∧
    ((h.collect roots).2.collect roots).2.objects = (h.collect roots).2.objects ∧
    ((h.collect roots).2.collect roots).2.scopes = (h.collect roots).2.scopes := by
  have freedObjects := vanished_release_doomed h.objects fun i => (h.reached roots).marked (.object ⟨i⟩)
  have freedScopes := vanished_release_doomed h.scopes fun i => (h.reached roots).marked (.scope ⟨i⟩)
  refine ⟨⟨fun n => occupied_collect_iff, fun r o => object?_of_collect, fun s scope =>
    scope?_of_collect, ?_, ?_, ?_, rfl, objects.release_doomed _, scopes.release_doomed _⟩, ?_⟩
  · intro n l refers
    -- a node that is left was reached, so what it names was reached and occupied
    have reached : h.Reaches roots n := (occupied_collect_iff.mp refers.occupied).2
    exact occupied_collect_iff.mpr
      ⟨closed n l reached refers.of_collect, .handle reached refers.of_collect⟩
  · exact (congrArg List.length freedObjects).symm
  · exact congrArg h.budget.free
      (congrArg₂ (· + ·) (congrArg List.length freedObjects) (congrArg List.length freedScopes)).symm
  · -- what is left was reached, and still is: nothing is swept the second time
    obtain ⟨noObjects, noScopes⟩ := doomed_eq_nil fun n occupied =>
      reaches_collect_iff.mpr (occupied_collect_iff.mp occupied).2
    refine ⟨congrArg List.length noObjects, ?_, ?_⟩
    · exact (congrArg (Arena.release _) noObjects).trans (release_nil _)
    · exact (congrArg (Arena.release _) noScopes).trans (release_nil _)

instance (h : Heap) : DecidablePred h.Occupied
  | .object r => inferInstanceAs (Decidable ((h.object? r).isSome = true))
  | .scope s => inferInstanceAs (Decidable ((h.scope? s).isSome = true))

/-- No handle leads to a vacant slot if none does that is found slot by slot. -/
theorem occupied_of_slots {h : Heap}
    (objects : ∀ i < h.objects.size, ∀ l ∈ h.linksOf (.object ⟨i⟩), h.Occupied l)
    (scopes : ∀ i < h.scopes.size, ∀ l ∈ h.linksOf (.scope ⟨i⟩), h.Occupied l) {n l : Node}
    (refers : h.RefersTo n l) : h.Occupied l := by
  have slot := hasSlot_of_occupied refers.occupied
  have link := mem_linksOf_iff.mpr refers
  cases n with
  | object r => exact objects r.slot (of_decide_eq_true slot) l link
  | scope s => exact scopes s.slot (of_decide_eq_true slot) l link

/-- A heap with two lists that hold each other and are held by nothing else, and with a list that a
variable holds. -/
def tangled : Heap :=
  let first := fixedObjects.length
  let list (item : Ref) : Object := .ofPayload (.list #[item]) none
  let h := empty.placeAll (fixedObjects ++ [list ⟨first + 1⟩, list ⟨first⟩, list .null])
  (h.placeScope ⟨Table.empty.insert "kept" ⟨first + 2⟩, none⟩).2

/-- Only the two lists that hold each other are freed. -/
theorem collect_tangled :
    (tangled.objects.WellFormed ∧ tangled.scopes.WellFormed ∧
      ∀ n l, tangled.Reaches [.scope ⟨0⟩] n → tangled.RefersTo n l → tangled.Occupied l) ∧
    tangled.Collected [.scope ⟨0⟩] 2 (tangled.collect [.scope ⟨0⟩]).2 ∧
    ((tangled.collect [.scope ⟨0⟩]).2.collect [.scope ⟨0⟩]).1 = 0 := by
  have objects : tangled.objects.WellFormed := .of_full (by decide +kernel) (by decide +kernel)
  have scopes : tangled.scopes.WellFormed := .of_full (by decide +kernel) (by decide +kernel)
  have closed : ∀ n l, tangled.Reaches [.scope ⟨0⟩] n → tangled.RefersTo n l → tangled.Occupied l :=
    fun _ _ _ => occupied_of_slots (by decide +kernel) (by decide +kernel)
  have freed : (tangled.collect [.scope ⟨0⟩]).1 = 2 := by decide +kernel
  obtain ⟨collected, again, -⟩ := collect_exact objects scopes closed
  exact ⟨⟨objects, scopes, closed⟩, freed ▸ collected, again⟩

end Heap

end ObjectMachine
