import Mathlib.Data.String.Basic
import ObjectMachine.Proofs.Answering
import ObjectMachine.Proofs.Progressions
/-!
The iterators of texts, lists and maps. What an iterator has ahead is read off its cursor and the data over which it
runs: the rest of the items of a list or of the keys of a map, or the characters of a text from the byte on at which the
cursor stands. That byte is always one at which a character starts. So an iterator gives the items of unmodified data in
order, each once, and then stops.
-/
namespace ObjectMachine

/-- An item of built-in data. -/
inductive Item where
  /-- An object that the data holds. -/
  | object (r : Ref)
  /-- A character of a text. -/
  | char (c : Char)

theorem Table.getElem?_values {κ ν : Type} (t : Table κ ν) (i : Nat) : t.values[i]? = (t.entryAt? i).map Prod.snd :=
  List.getElem?_map

namespace Item

/-- What handing out an item does to a heap: an object is given as it is, a character as a text of its own. -/
def handed (h : Heap) : Item → Except Interrupt Ref × Heap
  | object r => (.ok r, h)
  | char c => h.stored (.str (String.singleton c))

/-- A value is the item that was handed out. -/
def Is (h : Heap) (value : Ref) : Item → Prop
  | object r => value = r
  | char c => h.payload? value = some (.str (String.singleton c))

end Item

namespace Heap

variable {h h' : Heap} {r : Ref} {p : Payload}

/-- The items of built-in data: those of a list, the keys of a map, the characters of a text. -/
inductive HasItems (h : Heap) : Kind → Ref → List Item → Prop where
  /-- The items of a list. -/
  | list {r : Ref} {items : Array Ref} (holds : h.payload? r = some (.list items)) :
    h.HasItems .list r (items.toList.map .object)
  /-- The characters of a text. -/
  | text {r : Ref} {s : String} (holds : h.payload? r = some (.str s)) :
    h.HasItems .string r (s.toList.map .char)
  /-- The keys of a map. -/
  | map {r : Ref} {entries : Entries} (holds : h.payload? r = some (.map entries)) :
    h.HasItems .map r (entries.values.map fun e => .object e.1)

/-- An object that is stored gets a vacant slot. -/
theorem stores_of_stored {value : Ref} (w : h.objects.WellFormed) (stored : h.stored p = (.ok value, h')) :
    h.Stores value (.ofPayload p none) h' := by
  rw [Heap.stored] at stored
  cases allocated : h.allocate (.ofPayload p none) with
  | mk result h₁ =>
    rw [allocated] at stored
    cases result with
    | error e => cases stored
    | ok r =>
      cases stored
      exact stores_of_allocate w allocated

/-- It is the only thing that is added. -/
theorem adds_of_stored {value : Ref} (w : h.objects.WellFormed) (stored : h.stored p = (.ok value, h')) :
    h.Adds h' ∧ h'.object? value = some (.ofPayload p none) ∧ h.object? value = none := by
  have stores := stores_of_stored w stored
  exact ⟨.of_stores stores, (stores.object? value).trans (if_pos rfl), stores.vacant⟩

/-- What is refused is refused for lack of room, and leaves all as it was. -/
theorem full_of_stored {e : Interrupt} (w : h.objects.WellFormed) (refused : h.stored p = (.error e, h')) :
    ¬ h.HasRoom 1 ∧ h' = h ∧ ∃ exhausted, e = .exhausted exhausted := by
  have full : ¬ h.HasRoom 1 := by
    intro room
    obtain ⟨value, h₁, allocated, -⟩ := exists_allocate_ok (.ofPayload p none) w room
    rw [Heap.stored, allocated] at refused
    cases refused
  obtain ⟨exhausted, allocated⟩ := exists_allocate_error (.ofPayload p none) full
  obtain ⟨limit, count, rfl⟩ := exhaustion_of_allocate allocated
  rw [Heap.stored, allocated] at refused
  cases refused
  exact ⟨full, rfl, _, rfl⟩

/-- An object that is stored takes room for one. -/
theorem hasRoom_of_stored {value : Ref} {n : Nat} (w : h.objects.WellFormed) (stored : h.stored p = (.ok value, h'))
    (room : h.HasRoom (1 + n)) : h'.HasRoom n := by
  have one : h.HasRoom 1 := room.mono (Nat.le_add_right 1 n)
  obtain ⟨value', h₁, allocated, -, rooms⟩ := exists_allocate_ok (.ofPayload p none) w one
  rw [Heap.stored, allocated] at stored
  cases stored
  exact (rooms n).mpr room

end Heap

namespace Cursor

/-- The cursor at the start of data of a kind. -/
def start : Kind → Ref → Cursor
  | .list, r => .list r 0
  | .map, r => .keys r 0
  | _, r => .text r 0

/-- What is ahead of a cursor over an object. -/
inductive Ahead (h : Heap) (r : Ref) : Cursor → List Item → Prop where
  /-- The items of a list from a position on. -/
  | list {items : Array Ref} {index : Nat} (holds : h.payload? r = some (.list items)) :
    Ahead h r (.list r index) ((items.toList.drop index).map .object)
  /-- The characters of a text from a byte on at which one starts. -/
  | text {s : String} {before rest : List Char} (holds : h.payload? r = some (.str s))
    (split : s.toList = before ++ rest) : Ahead h r (.text r (String.utf8Len before)) (rest.map .char)
  /-- The keys of a map from a position on. -/
  | keys {entries : Entries} {index : Nat} (holds : h.payload? r = some (.map entries)) :
    Ahead h r (.keys r index) ((entries.values.drop index).map fun e => .object e.1)

variable {h h' : Heap} {r : Ref} {c : Cursor} {x : Item} {later xs : List Item} {kind : Kind}

/-- What is ahead depends on the object only. -/
theorem Ahead.congr (ahead : c.Ahead h r xs) (same : h'.payload? r = h.payload? r) : c.Ahead h' r xs := by
  cases ahead with
  | list holds => exact .list (same.trans holds)
  | text holds split => exact .text (same.trans holds) split
  | keys holds => exact .keys (same.trans holds)

theorem Ahead.exists_payload (ahead : c.Ahead h r xs) : ∃ p, h.payload? r = some p := by
  cases ahead with
  | list holds => exact ⟨_, holds⟩
  | text holds split => exact ⟨_, holds⟩
  | keys holds => exact ⟨_, holds⟩

/-- At the start all is ahead. -/
theorem ahead_start (data : h.HasItems kind r xs) : (start kind r).Ahead h r xs := by
  cases data with
  | list holds => exact .list holds
  | text holds => exact .text holds (List.nil_append _).symm
  | map holds => exact .keys holds

end Cursor

namespace Engine

variable {due : Schedule} {h : Heap} {r iterator : Ref} {c : Cursor} {x : Item} {xs later : List Item}

/-- The character that starts at the byte behind others. -/
theorem charAt_of_split {s : String} {before rest : List Char} (split : s.toList = before ++ rest) :
    String.Pos.Raw.get? s ⟨String.utf8Len before⟩ = rest.head? := by
  rw [← String.ofList_toList (s := s), split]
  exact String.get?_of_valid before rest

/-- With nothing ahead, a cursor is at the end. -/
theorem does_advance_nil (due : Schedule) (ahead : c.Ahead h r []) :
    Does due (advance c) h (.error (.raised (.ofCause .stopped)), h) := by
  generalize none_ahead : ([] : List Item) = xs at ahead
  cases ahead with
  | @list items index holds =>
    have ended : items[index]? = none := by
      have nothing := List.map_eq_nil_iff.mp none_ahead.symm
      rw [← Array.getElem?_toList, ← List.head?_drop, nothing]
      rfl
    refine (does_payload due holds).bind ?_
    dsimp only
    rw [ended]
    exact does_raise due .stopped h
  | @text s before rest holds split =>
    have ended : String.Pos.Raw.get? s ⟨String.utf8Len before⟩ = none := by
      rw [charAt_of_split split, List.map_eq_nil_iff.mp none_ahead.symm]
      rfl
    refine (does_payload due holds).bind ?_
    dsimp only
    rw [ended]
    exact does_raise due .stopped h
  | @keys entries index holds =>
    have ended : entries.entryAt? index = none := by
      have nothing := List.map_eq_nil_iff.mp none_ahead.symm
      rw [← Option.map_eq_none_iff, ← entries.getElem?_values, ← List.head?_drop, nothing]
      rfl
    refine (does_payload due holds).bind ?_
    dsimp only
    rw [ended]
    exact does_raise due .stopped h

/-- With an item ahead, it is handed out, and the cursor moves behind it. -/
theorem exists_does_advance (due : Schedule) (ahead : c.Ahead h r (x :: later)) :
    ∃ c' : Cursor, c'.Ahead h r later ∧
      Does due (advance c) h ((x.handed h).1.map fun value => (value, c'), (x.handed h).2) := by
  generalize one_ahead : x :: later = xs at ahead
  cases ahead with
  | @list items index holds =>
    obtain ⟨item, rest, split, rfl, rfl⟩ := List.map_eq_cons_iff.mp one_ahead.symm
    have here : items[index]? = some item := by
      rw [← Array.getElem?_toList, ← List.head?_drop, split]
      rfl
    have behind : rest = items.toList.drop (index + 1) := by
      rw [← List.tail_drop, split]
      rfl
    refine ⟨.list r (index + 1), behind ▸ .list holds, (does_payload due holds).bind ?_⟩
    dsimp only
    rw [here]
    exact does_pure due (item, Cursor.list r (index + 1)) h
  | @text s before rest holds split =>
    obtain ⟨char, rest, rfl, rfl, rfl⟩ := List.map_eq_cons_iff.mp one_ahead.symm
    have here : String.Pos.Raw.get? s ⟨String.utf8Len before⟩ = some char := charAt_of_split split
    -- the next character starts where this one ends
    have next : String.utf8Len before + char.utf8Size = String.utf8Len (before ++ [char]) := by
      rw [String.utf8Len_append, String.utf8Len_cons, String.utf8Len_nil, Nat.zero_add]
    have split' : s.toList = (before ++ [char]) ++ rest := by
      rw [split, List.append_assoc]
      rfl
    refine ⟨.text r (String.utf8Len (before ++ [char])), .text holds split', (does_payload due holds).bind ?_⟩
    dsimp only
    rw [here, ← next]
    exact (does_new due _ h).map fun value => (value, Cursor.text r (String.utf8Len before + char.utf8Size))
  | @keys entries index holds =>
    obtain ⟨⟨key, value⟩, rest, split, rfl, rfl⟩ := List.map_eq_cons_iff.mp one_ahead.symm
    have here : ∃ k, entries.entryAt? index = some (k, key, value) := by
      have shown : (entries.entryAt? index).map Prod.snd = some (key, value) := by
        rw [← entries.getElem?_values, ← List.head?_drop, split]
        rfl
      obtain ⟨⟨k, found⟩, here, rfl⟩ := Option.map_eq_some_iff.mp shown
      exact ⟨k, here⟩
    have behind : rest = entries.values.drop (index + 1) := by
      rw [← List.tail_drop, split]
      rfl
    obtain ⟨k, here⟩ := here
    refine ⟨.keys r (index + 1), behind ▸ .keys holds, (does_payload due holds).bind ?_⟩
    dsimp only
    rw [here]
    exact does_pure due (key, Cursor.keys r (index + 1)) h

/-! ### Questions -/

variable {k : Reentry} {m : Machine}

/-- What taking an item from an iterator does to a heap: the item is handed out, and the iterator moves. -/
def taken (h : Heap) (iterator : Ref) (c' : Cursor) (x : Item) : Except Interrupt Ref × Heap :=
  match x.handed h with
  | (.ok value, h') => (.ok value, h'.modify iterator (Change.cursor c').apply)
  | (.error e, h') => (.error e, h')

/-- Handing out leaves what there was. -/
theorem adds_of_handed {value : Ref} {h' : Heap} (w : h.objects.WellFormed) (handed : x.handed h = (.ok value, h')) :
    h.Adds h' ∧ x.Is h' value := by
  cases x with
  | object r =>
    cases handed
    exact ⟨.refl w, rfl⟩
  | char c =>
    obtain ⟨adds, stored, -⟩ := Heap.adds_of_stored w handed
    exact ⟨adds, by rw [Item.Is, Heap.payload?, stored]; rfl⟩

/-- An iterator with nothing ahead stops. -/
theorem does_iterateNext_nil (due : Schedule) (k : Reentry) (found : h.payload? iterator = some (.iterator c))
    (ahead : c.Ahead h r []) : Does due (iterateNext k iterator) h (.error (.raised (.ofCause .stopped)), h) := by
  have next : Does due (iteratorNext iterator) h (.error (.raised (.ofCause .stopped)), h) :=
    (does_payload due found).bind (does_advance_nil due ahead).bind_of_error
  exact (does_payload due found).bind next

/-- An iterator with an item ahead gives it. -/
theorem exists_does_iterateNext (due : Schedule) (k : Reentry) (w : h.objects.WellFormed)
    (found : h.payload? iterator = some (.iterator c)) (ahead : c.Ahead h r (x :: later)) :
    ∃ c' : Cursor, c'.Ahead h r later ∧ Does due (iterateNext k iterator) h (taken h iterator c' x) := by
  obtain ⟨c', ahead', advanced⟩ := exists_does_advance due ahead
  have next : Does due (iteratorNext iterator) h (taken h iterator c' x) := by
    refine (does_payload due found).bind ?_
    rw [taken]
    cases handed : x.handed h with
    | mk result h' =>
      rw [handed] at advanced
      cases result with
      | error e => exact advanced.bind_of_error
      | ok value =>
        have still := (adds_of_handed w handed).1.payload? found
        exact advanced.bind ((does_change due still (.cursor c')).bind (does_pure due value _))
  exact ⟨c', ahead', (does_payload due found).bind next⟩

/-- How an iterator answers one question after another that has certain items ahead: with the next item, unless there is
no room for the text of a character, and in the end always with the end. -/
inductive Yields : List Item → List (Outcome Ref) → Prop where
  /-- It is not asked any more. -/
  | rest (xs : List Item) : Yields xs []
  /-- The next item. -/
  | item {x : Item} {xs : List Item} {value : Ref} {m : Machine} {later : List (Outcome Ref)} (is : x.Is m.heap value)
    (more : Yields xs later) : Yields (x :: xs) (.ok value m :: later)
  /-- No room for a text. -/
  | refused {c : Char} {xs : List Item} {e : Raised} {m : Machine} {later : List (Outcome Ref)}
    (full : ¬ m.heap.HasRoom 1) (more : Yields (.char c :: xs) later) :
    Yields (.char c :: xs) (.error (.exhausted e) m :: later)
  /-- The end. -/
  | stopped {m : Machine} {later : List (Outcome Ref)} (more : Yields [] later) :
    Yields [] (.error (.raised (.ofCause .stopped)) m :: later)

/-- An iterator over an object is asked for items again and again, and answers. Between two answers anything may happen
that leaves the iterator and the data of the object as they are, and the slots in order. -/
inductive Consulted (due : Schedule) (k : Reentry) (iterator r : Ref) : Machine → List (Outcome Ref) → Prop where
  /-- It is not asked any more. -/
  | rest (m : Machine) : Consulted due k iterator r m []
  /-- It is asked, and asked again later. -/
  | ask {m m' : Machine} {later : List (Outcome Ref)} (order : m'.heap.objects.WellFormed)
    (unmoved : m'.heap.payload? iterator = ((iterateNext k iterator).runUnder due m).machine.heap.payload? iterator)
    (unmodified : m'.heap.payload? r = ((iterateNext k iterator).runUnder due m).machine.heap.payload? r)
    (more : Consulted due k iterator r m' later) :
    Consulted due k iterator r m ((iterateNext k iterator).runUnder due m :: later)

/-- An iterator over an object stands before certain items. -/
structure StandsBefore (h : Heap) (iterator r : Ref) (xs : List Item) : Prop where
  /-- Slots are in order. -/
  order : h.objects.WellFormed
  /-- The cursor has the items ahead. -/
  cursor : ∃ c, h.payload? iterator = some (.iterator c) ∧ c.Ahead h r xs

namespace StandsBefore

theorem congr {h' : Heap} (stands : StandsBefore h iterator r xs) (order : h'.objects.WellFormed)
    (unmoved : h'.payload? iterator = h.payload? iterator) (unmodified : h'.payload? r = h.payload? r) :
    StandsBefore h' iterator r xs := by
  obtain ⟨-, c, found, ahead⟩ := stands
  exact ⟨order, c, unmoved.trans found, ahead.congr unmodified⟩

/-- The iterator is another object than the one over which it runs. -/
theorem ne (stands : StandsBefore h iterator r xs) : iterator ≠ r := by
  obtain ⟨-, c, found, ahead⟩ := stands
  rintro rfl
  cases ahead <;> simp_all

/-- At the end it stops, and all is as it was. -/
theorem runUnder_nil (stands : StandsBefore m.heap iterator r []) (due : Schedule) (k : Reentry) :
    (iterateNext k iterator).runUnder due m = .error (.raised (.ofCause .stopped)) m := by
  obtain ⟨-, c, found, ahead⟩ := stands
  exact does_iterateNext_nil due k found ahead m rfl

/-- Before the end it gives the next item and stands before the others, unless there is no room for a text. -/
theorem runUnder_cons (stands : StandsBefore m.heap iterator r (x :: later)) (due : Schedule) (k : Reentry) :
    (∃ value m', (iterateNext k iterator).runUnder due m = .ok value m' ∧ x.Is m'.heap value ∧
        StandsBefore m'.heap iterator r later) ∨
      ∃ char e, x = .char char ∧ ¬ m.heap.HasRoom 1 ∧
        (iterateNext k iterator).runUnder due m = .error (.exhausted e) m := by
  have different := stands.ne
  obtain ⟨order, c, found, ahead⟩ := stands
  obtain ⟨c', ahead', does⟩ := exists_does_iterateNext due k order found ahead
  have ran := does m rfl
  rw [taken] at ran
  cases handed : x.handed m.heap with
  | mk result h' =>
    rw [handed] at ran
    cases result with
    | error e =>
      cases x with
      | object r => cases handed
      | char char =>
        obtain ⟨full, rfl, e, rfl⟩ := Heap.full_of_stored order handed
        exact .inr ⟨char, e, rfl, full, ran⟩
    | ok value =>
      obtain ⟨adds, is⟩ := adds_of_handed order handed
      obtain ⟨p, holds⟩ := ahead.exists_payload
      have still := adds.payload? found
      have other (value' : Ref) (here : iterator ≠ value') :
          (h'.modify iterator (Change.cursor c').apply).payload? value' = h'.payload? value' := by
        rw [Heap.payload?_modify, if_neg here]
      have moved : (h'.modify iterator (Change.cursor c').apply).payload? iterator = some (.iterator c') := by
        rw [Heap.payload?_modify, if_pos rfl, still]
        rfl
      have data : (h'.modify iterator (Change.cursor c').apply).payload? r = m.heap.payload? r := by
        rw [other r different, adds.payload? holds, holds]
      refine .inl ⟨value, _, ran, ?_, adds.wellFormed.modify _ _, c', moved, ahead'.congr data⟩
      cases x with
      | object r => exact is
      | char char =>
        -- a text is no iterator
        have fresh : iterator ≠ value := by
          rintro rfl
          rw [Item.Is, still] at is
          cases is
        exact (other value fresh).trans is

end StandsBefore

/-- It can be asked any number of times. -/
theorem exists_consulted (due : Schedule) (k : Reentry) (stands : StandsBefore m.heap iterator r xs) (n : Nat) :
    ∃ outcomes, outcomes.length = n ∧ Consulted due k iterator r m outcomes := by
  induction n generalizing m xs with
  | zero => exact ⟨[], rfl, .rest m⟩
  | succ n ih =>
    have after : ∃ xs', StandsBefore ((iterateNext k iterator).runUnder due m).machine.heap iterator r xs' := by
      cases xs with
      | nil =>
        rw [stands.runUnder_nil due k]
        exact ⟨[], stands⟩
      | cons x xs =>
        obtain ⟨value, m₁, ran, -, stands'⟩ | ⟨char, e, -, -, ran⟩ := stands.runUnder_cons due k
        · rw [ran]
          exact ⟨xs, stands'⟩
        · rw [ran]
          exact ⟨x :: xs, stands⟩
    obtain ⟨xs', stands'⟩ := after
    obtain ⟨later, length, more⟩ := ih stands'
    exact ⟨_ :: later, congrArg Nat.succ length, .ask stands'.order rfl rfl more⟩

/-- Each answer is the one that is due behind the items given before. -/
theorem Consulted.yields {outcomes : List (Outcome Ref)} (asked : Consulted due k iterator r m outcomes)
    (stands : StandsBefore m.heap iterator r xs) : Yields xs outcomes := by
  induction asked generalizing xs with
  | rest m => exact .rest xs
  | @ask m m' later order unmoved unmodified more ih =>
    cases xs with
    | nil =>
      have ran := stands.runUnder_nil due k
      rw [ran] at unmoved unmodified ⊢
      exact .stopped (ih (stands.congr order unmoved unmodified))
    | cons x xs =>
      obtain ⟨value, m₁, ran, is, stands'⟩ | ⟨char, e, rfl, full, ran⟩ := stands.runUnder_cons due k
      · rw [ran] at unmoved unmodified ⊢
        exact .item is (ih (stands'.congr order unmoved unmodified))
      · rw [ran] at unmoved unmodified ⊢
        exact .refused full (ih (stands.congr order unmoved unmodified))

/-- If no answer is refused, all items are given that are asked for. -/
theorem Yields.count {outcomes : List (Outcome Ref)} (yields : Yields xs outcomes)
    (granted : ∀ e m', .error (.exhausted e) m' ∉ outcomes) :
    outcomes.countP Outcome.gives = min outcomes.length xs.length := by
  induction yields with
  | rest xs => exact (Nat.zero_min _).symm
  | @item x xs value m later is more ih =>
    have count := ih fun e m' mem => granted e m' (.tail _ mem)
    rw [List.countP_cons_of_pos rfl, List.length_cons, List.length_cons, count, Nat.succ_min_succ]
  | @refused c xs e m later full more ih => exact absurd List.mem_cons_self (granted e m)
  | @stopped m later more ih =>
    have count := ih fun e m' mem => granted e m' (.tail _ mem)
    rw [List.countP_cons_of_neg Bool.false_ne_true, count, List.length_nil, Nat.min_zero, Nat.min_zero]

/-! ### The start -/

variable {kind : Kind} {n : Nat}

/-- Built-in data makes an iterator that stands before its first item. -/
theorem runUnder_getIterator (due : Schedule) (data : m.heap.HasItems kind r xs) (serves : m.heap.Serves kind r) :
    (getIterator (reentry (n + 1)) r).runUnder due m =
      m.called "op_iter" [r] (m.heap.stored (.iterator (.start kind r))) := by
  have typed (native : Native) : Declaration.Takes m.heap ⟨"op_iter", [Declaration.typed "self" kind], native⟩ [r] :=
    ⟨List.forall_mem_singleton.mpr rfl, .cons (fun _ same => Option.some.inj same ▸ serves.isInstance) .nil⟩
  have operator (native : Native)
      (declared : ⟨"op_iter", [Declaration.typed "self" kind], native⟩ ∈ Declaration.ofKind kind)
      (does : Does due (runNative (reentry n) native [r]) m.heap (m.heap.stored (.iterator (.start kind r)))) :
      (callOperator (reentry (n + 1)) "op_iter" [r] false).runUnder due m =
        m.called "op_iter" [r] (m.heap.stored (.iterator (.start kind r))) :=
    runUnder_operator_of_does serves declared rfl (typed native) false does
  cases data with
  | list holds =>
    rw [getIterator, runUnder_bind, runUnder_payload, holds]
    exact operator (.list .iter) (by decide) (does_new due _ m.heap)
  | text holds =>
    rw [getIterator, runUnder_bind, runUnder_payload, holds]
    exact operator (.text .iter) (by decide) (does_new due _ m.heap)
  | map holds =>
    rw [getIterator, runUnder_bind, runUnder_payload, holds]
    exact operator (.map .iter) (by decide) (does_new due _ m.heap)

theorem standsBefore_of_getIterator {m₁ : Machine} (w : m.heap.objects.WellFormed) (data : m.heap.HasItems kind r xs)
    (made : m.called "op_iter" [r] (m.heap.stored (.iterator (.start kind r))) = .ok iterator m₁) :
    StandsBefore m₁.heap iterator r xs := by
  obtain ⟨-, stored, rfl⟩ := Machine.ok_of_called made
  obtain ⟨adds, live, -⟩ := Heap.adds_of_stored w (Prod.ext stored rfl)
  have ahead := Cursor.ahead_start data
  obtain ⟨p, holds⟩ := ahead.exists_payload
  have found : (m.heap.stored (.iterator (.start kind r))).2.payload? iterator = some (.iterator (.start kind r)) := by
    rw [Heap.payload?, live]
    rfl
  exact ⟨adds.wellFormed, _, found, ahead.congr ((adds.payload? holds).trans holds.symm)⟩

end Engine

end ObjectMachine
