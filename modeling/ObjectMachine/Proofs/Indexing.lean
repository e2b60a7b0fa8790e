import ObjectMachine.Proofs.Iterators
import ObjectMachine.Proofs.Positions
/-!
Indexes into texts and lists. An index means the position of an item that the iterator gives, counted from the start or,
if it is negative, from the end; to ask for it gives that item. For a list the item there can be replaced and removed.
An index that counts beyond either end is refused, and nothing happens.
-/
namespace ObjectMachine

namespace Engine

variable {due : Schedule} {k : Reentry} {m : Machine} {h : Heap} {kind : Kind} {r index value : Ref} {i : Int64}
  {xs : List Item} {items : Array Ref} {p n : Nat}

theorem position?_lt (found : position? i n = some p) : p < n := by
  rw [position?, Option.ite_none_right_eq_some] at found
  obtain ⟨⟨nonneg, lt⟩, same⟩ := found
  rw [← Option.some.inj same]
  exact (Int.toNat_lt nonneg).mpr lt

/-! ### What the functions do -/

/-- What asking for the item at an index comes to. -/
def indexed (h : Heap) (kind : Kind) (xs : List Item) (i : Int64) : Except Interrupt Ref × Heap :=
  match (position? i xs.length).bind fun p => xs[p]? with
  | some x => x.handed h
  | none => (.error (.raised (.ofCause (.indexOut kind i))), h)

theorem does_itemsOf (due : Schedule) (holds : h.payload? r = some (.list items)) :
    Does due (itemsOf r) h (.ok items, h) :=
  (does_payload due holds).bind (does_pure due items h)

theorem does_textOf {s : String} (due : Schedule) (holds : h.payload? r = some (.str s)) :
    Does due (textOf r) h (.ok s, h) :=
  (does_payload due holds).bind (does_pure due s h)

theorem does_indexOf (due : Schedule) (means : h.payload? index = some (.int i)) :
    Does due (indexOf index) h (.ok i, h) :=
  (does_payload due means).bind (does_pure due i h)

/-- An index of a list that means a position. -/
theorem does_listPosition (due : Schedule) {length : Nat} (means : h.payload? index = some (.int i))
    (found : position? i length = some p) : Does due (listPosition index length) h (.ok p, h) := by
  refine (does_indexOf due means).bind ?_
  rw [found]
  exact does_pure due p h

/-- One that means none. -/
theorem does_listPosition_none (due : Schedule) {length : Nat} (means : h.payload? index = some (.int i))
    (none : position? i length = none) :
    Does due (listPosition index length) h (.error (.raised (.ofCause (.indexOut .list i))), h) := by
  refine (does_indexOf due means).bind ?_
  rw [none]
  exact does_raise due _ h

theorem does_modifyItems (due : Schedule) (holds : h.payload? r = some (.list items)) (f : Array Ref → Array Ref) :
    Does due (modifyItems r f) h (.ok (), h.setPayload r (.list (f items))) :=
  (does_itemsOf due holds).bind (does_exchange due holds fun _ => rfl)

/-- The item of a list at an index. -/
theorem does_getItem_list (due : Schedule) (k : Reentry) (holds : h.payload? r = some (.list items))
    (means : h.payload? index = some (.int i)) :
    Does due (runNative k (.list .getItem) [r, index]) h (indexed h .list (items.toList.map .object) i) := by
  have length : (items.toList.map Item.object).length = items.size := by rw [List.length_map, Array.length_toList]
  refine (does_itemsOf due holds).bind ?_
  rw [indexed, length]
  cases found : position? i items.size with
  | none => exact (does_listPosition_none due means found).bind_of_error
  | some p =>
    have lt : p < items.size := position?_lt found
    obtain ⟨item, here⟩ : ∃ item, items[p]? = some item :=
      ⟨items[p], Array.getElem?_eq_getElem _⟩
    refine (does_listPosition due means found).bind ?_
    rw [Option.bind_some, List.getElem?_map, Array.getElem?_toList, here]
    exact does_pure due item h

/-- The character of a text at an index. -/
theorem does_getItem_text {s : String} (due : Schedule) (k : Reentry) (holds : h.payload? r = some (.str s))
    (means : h.payload? index = some (.int i)) :
    Does due (runNative k (.text .getItem) [r, index]) h (indexed h .string (s.toList.map .char) i) := by
  refine (does_textOf due holds).bind ((does_indexOf due means).bind ?_)
  rw [indexed, List.length_map]
  cases found : position? i s.toList.length with
  | none => exact does_raise due _ h
  | some p =>
    rw [Option.bind_some, Option.bind_some, List.getElem?_map]
    cases s.toList[p]? with
    | none => exact does_raise due _ h
    | some c => exact does_new due _ h

/-- The number of items. -/
theorem does_len (due : Schedule) (k : Reentry) (sequence : kind = .list ∨ kind = .string)
    (data : h.HasItems kind r xs) :
    ∃ native, ⟨"op_len", [Declaration.typed "self" kind], native⟩ ∈ Declaration.ofKind kind ∧
      Does due (runNative k native [r]) h (h.stored (.int (Integer.wrap xs.length))) := by
  cases data with
  | @list r items holds =>
    refine ⟨.list .len, by decide, ?_⟩
    rw [List.length_map, Array.length_toList, Integer.wrap, Int64.ofInt_eq_ofNat]
    exact (does_itemsOf due holds).bind (does_new due _ h)
  | @text r s holds =>
    refine ⟨.text .len, by decide, ?_⟩
    rw [List.length_map, Integer.wrap, Int64.ofInt_eq_ofNat]
    exact (does_textOf due holds).bind (does_new due _ h)
  | map holds => simp at sequence

/-- The item at an index. -/
theorem does_getItem (due : Schedule) (k : Reentry) (sequence : kind = .list ∨ kind = .string)
    (data : h.HasItems kind r xs) (means : h.payload? index = some (.int i)) :
    ∃ native, ⟨"op_get_item", [Declaration.typed "self" kind, Declaration.typed "index" .int], native⟩ ∈
        Declaration.ofKind kind ∧
      Does due (runNative k native [r, index]) h (indexed h kind xs i) := by
  cases data with
  | list holds => exact ⟨.list .getItem, by decide, does_getItem_list due k holds means⟩
  | text holds => exact ⟨.text .getItem, by decide, does_getItem_text due k holds means⟩
  | map holds => simp at sequence

/-- The item that replaces another. -/
theorem does_setItem (due : Schedule) (k : Reentry) (holds : h.payload? r = some (.list items))
    (means : h.payload? index = some (.int i)) (found : position? i items.size = some p) (value : Ref) :
    Does due (runNative k (.list .setItem) [r, index, value]) h
      (.ok .null, h.setPayload r (.list (items.toList.set p value).toArray)) := by
  have set : items.setIfInBounds p value = (items.toList.set p value).toArray := by
    rw [← Array.toList_setIfInBounds]
  rw [← set]
  exact (does_itemsOf due holds).bind ((does_listPosition due means found).bind
    ((does_modifyItems due holds _).bind (does_pure due Ref.null _)))

/-- The item that is removed. -/
theorem does_delItem (due : Schedule) (k : Reentry) (holds : h.payload? r = some (.list items))
    (means : h.payload? index = some (.int i)) (found : position? i items.size = some p) :
    Does due (runNative k (.list .delItem) [r, index]) h
      (.ok .null, h.setPayload r (.list (items.toList.eraseIdx p).toArray)) := by
  have erase : items.eraseIdxIfInBounds p = (items.toList.eraseIdx p).toArray := by
    rw [← Array.toList_eraseIdxIfInBounds]
  rw [← erase]
  exact (does_itemsOf due holds).bind ((does_listPosition due means found).bind
    ((does_modifyItems due holds _).bind (does_pure due Ref.null _)))

/-- An index that means no position of a list changes nothing. -/
theorem does_nothing_outside (due : Schedule) (k : Reentry) (holds : h.payload? r = some (.list items))
    (means : h.payload? index = some (.int i)) (none : position? i items.size = none) (value : Ref) :
    Does due (runNative k (.list .setItem) [r, index, value]) h (.error (.raised (.ofCause (.indexOut .list i))), h) ∧
      Does due (runNative k (.list .delItem) [r, index]) h (.error (.raised (.ofCause (.indexOut .list i))), h) := by
  have nowhere := does_listPosition_none due means none
  exact ⟨(does_itemsOf due holds).bind nowhere.bind_of_error, (does_itemsOf due holds).bind nowhere.bind_of_error⟩

/-! ### The operators -/

/-- The operators for indexing agree with the iterator. -/
structure Indexes (due : Schedule) (k : Reentry) (m : Machine) (kind : Kind) (r : Ref) (xs : List Item) : Prop where
  /-- An iterator is made. -/
  iterator : (getIterator k r).runUnder due m =
    m.called "op_iter" [r] (m.heap.stored (.iterator (.start kind r)))
  /-- It may be asked any number of times, and gives the items as long as the data is not modified. -/
  yields : ∀ iterator m₁, (getIterator k r).runUnder due m = .ok iterator m₁ →
    (∀ n, ∃ outcomes, outcomes.length = n ∧ Consulted due k iterator r m₁ outcomes) ∧
    ∀ outcomes, Consulted due k iterator r m₁ outcomes → Yields xs outcomes ∧
      ((∀ e m', .error (.exhausted e) m' ∉ outcomes) →
        outcomes.countP Outcome.gives = min outcomes.length xs.length)
  /-- The length is the number of the items. -/
  length : ∀ anyValue, (callOperator k "op_len" [r] anyValue).runUnder due m =
    m.called "op_len" [r] (m.heap.stored (.int (Integer.wrap xs.length)))
  /-- An index that counts from the start or from the end means the item. -/
  item : ∀ index i anyValue, m.heap.payload? index = some (.int i) → m.heap.isInstance index Kind.int.ref →
    ∀ (p : Nat) x, xs[p]? = some x → i.toInt = p ∨ i.toInt = (p : Int) - xs.length →
      (callOperator k "op_get_item" [r, index] anyValue).runUnder due m =
        m.called "op_get_item" [r, index] (x.handed m.heap)
  /-- An index beyond either end is refused. -/
  outside : ∀ index i anyValue, m.heap.payload? index = some (.int i) → m.heap.isInstance index Kind.int.ref →
    i.toInt < -xs.length ∨ xs.length ≤ i.toInt →
      (callOperator k "op_get_item" [r, index] anyValue).runUnder due m =
        m.called "op_get_item" [r, index] (.error (.raised (.ofCause (.indexOut kind i))), m.heap)

/-- The items of a list can be replaced and removed by their indexes. -/
structure Replaces (due : Schedule) (k : Reentry) (m : Machine) (r : Ref) (items : List Ref) : Prop where
  /-- The item that an index means is replaced. -/
  replaced : ∀ index i value anyValue, m.heap.payload? index = some (.int i) →
    m.heap.isInstance index Kind.int.ref → ∀ p < items.length, i.toInt = p ∨ i.toInt = (p : Int) - items.length →
      (callOperator k "op_set_item" [r, index, value] anyValue).runUnder due m =
        m.called "op_set_item" [r, index, value] (.ok .null, m.heap.setPayload r (.list (items.set p value).toArray))
  /-- The item that an index means is removed. -/
  removed : ∀ index i anyValue, m.heap.payload? index = some (.int i) → m.heap.isInstance index Kind.int.ref →
    ∀ p < items.length, i.toInt = p ∨ i.toInt = (p : Int) - items.length →
      (callOperator k "op_del_item" [r, index] anyValue).runUnder due m =
        m.called "op_del_item" [r, index] (.ok .null, m.heap.setPayload r (.list (items.eraseIdx p).toArray))
  /-- An index beyond either end is refused, and the list stays as it is. -/
  unchanged : ∀ index i value anyValue, m.heap.payload? index = some (.int i) →
    m.heap.isInstance index Kind.int.ref → i.toInt < -items.length ∨ items.length ≤ i.toInt →
      (callOperator k "op_set_item" [r, index, value] anyValue).runUnder due m =
          m.called "op_set_item" [r, index, value] (.error (.raised (.ofCause (.indexOut .list i))), m.heap) ∧
        (callOperator k "op_del_item" [r, index] anyValue).runUnder due m =
          m.called "op_del_item" [r, index] (.error (.raised (.ofCause (.indexOut .list i))), m.heap)

theorem fits_served (name : String) (serves : h.Serves kind r) : Declaration.Fits h (Declaration.typed name kind) r :=
  Declaration.fits_of_isInstance name serves.isInstance

/-- The operators of texts and lists agree with their iterators. -/
theorem indexes_of_items (due : Schedule) (n : Nat) (sequence : kind = .list ∨ kind = .string)
    (data : m.heap.HasItems kind r xs) (serves : m.heap.Serves kind r) (w : m.heap.objects.WellFormed) :
    Indexes due (reentry (n + 1)) m kind r xs := by
  have made := runUnder_getIterator (n := n) due data serves
  have asked (index i anyValue) (means : m.heap.payload? index = some (.int i))
      (integer : m.heap.isInstance index Kind.int.ref) :
      (callOperator (reentry (n + 1)) "op_get_item" [r, index] anyValue).runUnder due m =
        m.called "op_get_item" [r, index] (indexed m.heap kind xs i) := by
    obtain ⟨native, declared, does⟩ := does_getItem due (reentry n) sequence data means
    have takes : Declaration.Takes m.heap
        ⟨"op_get_item", [Declaration.typed "self" kind, Declaration.typed "index" .int], native⟩ [r, index] :=
      ⟨by simp [Declaration.typed], .cons (fits_served "self" serves) (.cons (Declaration.fits_of_isInstance "index" integer) .nil)⟩
    exact runUnder_operator_of_does serves declared rfl takes anyValue does
  constructor
  · exact made
  · intro iterator m₁ ran
    have stands := standsBefore_of_getIterator w data (made.symm.trans ran)
    refine ⟨exists_consulted due _ stands, fun outcomes asked => ?_⟩
    have yields := asked.yields stands
    exact ⟨yields, yields.count⟩
  · intro anyValue
    obtain ⟨native, declared, does⟩ := does_len due (reentry n) sequence data
    have takes : Declaration.Takes m.heap ⟨"op_len", [Declaration.typed "self" kind], native⟩ [r] :=
      ⟨by simp [Declaration.typed], .cons (fits_served "self" serves) .nil⟩
    exact runUnder_operator_of_does serves declared rfl takes anyValue does
  · intro index i anyValue means integer p x here counts
    have lt : p < xs.length := (List.getElem?_eq_some_iff.mp here).1
    rw [asked index i anyValue means integer, indexed, position?_eq_some lt counts, Option.bind_some, here]
  · intro index i anyValue means integer beyond
    rw [asked index i anyValue means integer, indexed, position?_eq_none beyond, Option.bind_none]

/-- The items of a list are replaced and removed where an index means them. -/
theorem replaces_items (due : Schedule) (n : Nat) (holds : m.heap.payload? r = some (.list items))
    (serves : m.heap.Serves .list r) : Replaces due (reentry (n + 1)) m r items.toList := by
  have takesTwo {index} (integer : m.heap.isInstance index Kind.int.ref) : Declaration.Takes m.heap
      ⟨"op_del_item", [Declaration.typed "self" .list, Declaration.typed "index" .int], .list .delItem⟩ [r, index] :=
    ⟨by simp [Declaration.typed], .cons (fits_served "self" serves) (.cons (Declaration.fits_of_isInstance "index" integer) .nil)⟩
  have takesThree {index} (value) (integer : m.heap.isInstance index Kind.int.ref) : Declaration.Takes m.heap
      ⟨"op_set_item", [Declaration.typed "self" .list, Declaration.typed "index" .int, Declaration.any "value"],
        .list .setItem⟩ [r, index, value] :=
    ⟨by simp [Declaration.typed, Declaration.any], .cons (fits_served "self" serves)
      (.cons (Declaration.fits_of_isInstance "index" integer) (.cons (Declaration.fits_any "value") .nil))⟩
  have size : items.toList.length = items.size := Array.length_toList
  constructor
  · intro index i value anyValue means integer p lt counts
    have found : position? i items.size = some p := size ▸ position?_eq_some lt counts
    exact runUnder_operator_of_does serves (by decide) rfl (takesThree value integer) anyValue
      (does_setItem due _ holds means found value)
  · intro index i anyValue means integer p lt counts
    have found : position? i items.size = some p := size ▸ position?_eq_some lt counts
    exact runUnder_operator_of_does serves (by decide) rfl (takesTwo integer) anyValue
      (does_delItem due _ holds means found)
  · intro index i value anyValue means integer beyond
    have none : position? i items.size = none := size ▸ position?_eq_none beyond
    obtain ⟨set, del⟩ := does_nothing_outside due (reentry n) holds means none value
    exact ⟨runUnder_operator_of_does serves (by decide) rfl (takesThree value integer) anyValue set,
      runUnder_operator_of_does serves (by decide) rfl (takesTwo integer) anyValue del⟩

theorem join_singletons (s : String) : String.join (s.toList.map String.singleton) = s := by
  have each : String.toList ∘ String.singleton = fun c => [c] := funext String.toList_singleton
  apply String.toList_injective
  rw [String.toList_join, List.flatMap_map]
  show s.toList.flatMap (String.toList ∘ String.singleton) = s.toList
  rw [each, List.flatMap_singleton']

/-- For every text or list, of its own Type or one that inherits the operators. The operators for its length and for an
item by its index agree with the iterator: all are about the same items. Those of a text are its characters in order,
and these make up the text; those of a list can be replaced and removed by an index. No 64-bit computation with an index
is out of range as long as the length is not. -/
theorem indexing_agrees_with_iteration (due : Schedule) (n : Nat) (sequence : kind = .list ∨ kind = .string)
    (data : m.heap.HasItems kind r xs) (serves : m.heap.Serves kind r) (w : m.heap.objects.WellFormed) :
    Indexes due (reentry (n + 1)) m kind r xs ∧
    (∀ s, m.heap.payload? r = some (.str s) →
      xs = s.toList.map .char ∧ String.join (s.toList.map String.singleton) = s) ∧
    (∀ items, m.heap.payload? r = some (.list items) →
      xs = items.toList.map .object ∧ Replaces due (reentry (n + 1)) m r items.toList) ∧
    ((xs.length : Int) ≤ Integer.greatest → (Integer.wrap xs.length).toInt = xs.length ∧
      ∀ i : Int64, ∃ j : Int64,
        (if i < 0 then Integer.add? i (Integer.wrap xs.length) else some i) = some j ∧
          position? i xs.length = if 0 ≤ j.toInt ∧ j.toInt < xs.length then some j.toInt.toNat else none) := by
  refine ⟨indexes_of_items due n sequence data serves w, fun s text => ?_, fun items list => ?_, fun short => ?_⟩
  · cases data with
    | list holds => simp [holds] at text
    | text holds =>
      rw [text] at holds
      cases holds
      exact ⟨rfl, join_singletons s⟩
    | map holds => simp at sequence
  · cases data with
    | list holds =>
      rw [list] at holds
      cases holds
      exact ⟨rfl, replaces_items due n list serves⟩
    | text holds => simp [holds] at list
    | map holds => simp at sequence
  · exact ⟨Integer.toInt_wrap short, exists_shifted short⟩

/-- The index `-1` means the last character of a text, which takes two bytes. -/
theorem indexing_agrees_multibyte :
    let m := (Machine.boot .unlimited .silent).afterSession ([.str "aé", .int (-1)].map .store)
    ∃ text index : Ref, m.heap.str? text = some "aé" ∧ m.heap.int? index = some (-1) ∧
      (callOperator (reentry 1) "op_get_item" [text, index] false).run m =
        m.called "op_get_item" [text, index] (m.heap.stored (.str "é")) := by
  intro m
  have start := Machine.equipped_boot .unlimited .silent
  have orderly : (Machine.boot .unlimited .silent).heap.Orderly :=
    Machine.orderly_of_mem_passage ((Machine.boot .unlimited .silent).heap_afterSession_mem_passage [])
  have equipped : m.heap.Equipped := start.of_adds (Machine.retains_of_stores orderly [.str "aé", .int (-1)]).adds
  obtain ⟨text, integer, typeOf, isInt⟩ : m.heap.payload? ⟨142⟩ = some (.str "aé") ∧
      m.heap.payload? ⟨143⟩ = some (.int (-1)) ∧ m.heap.typeOf ⟨142⟩ = Kind.string.ref ∧
      m.heap.isInstance ⟨143⟩ Kind.int.ref := by
    decide +kernel
  have agrees := indexing_agrees_with_iteration Heap.collectionDue 0 (.inr rfl) (.text text) (equipped.serves typeOf)
    equipped.objects
  refine ⟨⟨142⟩, ⟨143⟩, by rw [Heap.str?, text], by rw [Heap.int?, integer], ?_⟩
  exact agrees.1.item ⟨143⟩ (-1) false integer isInt 1 (.char 'é') rfl (.inr rfl)

end Engine

end ObjectMachine
