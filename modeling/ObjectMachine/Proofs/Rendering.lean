import ObjectMachine.Proofs.Members
/-!
Two ways to show a value. The engine asks the members `op_str` for texts, one call for each part; a host reads the
text off the snapshot. For values that lists and maps build from plain data they show the same, as long as the
built-in Types have the members they were declared with.
-/
namespace ObjectMachine

namespace Heap

variable {h h' : Heap} {r : Ref} {o : Object} {s : Snapshot} {n : Nat}

/-! ### Values that show the same -/

/-- A value is built from plain data by lists and maps that are nested at most so deeply, and none of its objects has
a Type other than that of its payload. -/
inductive Data (h : Heap) : Nat → Ref → Prop where
  /-- Data that holds no other objects. -/
  | plain {n : Nat} {r : Ref} {o : Object} (live : h.object? r = some o) (untyped : o.type = none)
    (data : o.payload.plainSnapshot?.isSome) : Data h n r
  /-- A list. -/
  | list {n : Nat} {r : Ref} {o : Object} {items : Array Ref} (live : h.object? r = some o) (untyped : o.type = none)
    (payload : o.payload = .list items) (parts : ∀ q ∈ items.toList, Data h n q) : Data h (n + 1) r
  /-- A map. -/
  | map {n : Nat} {r : Ref} {o : Object} {entries : Entries} (live : h.object? r = some o) (untyped : o.type = none)
    (payload : o.payload = .map entries) (keys : ∀ e ∈ entries.values, Data h n e.1)
    (values : ∀ e ∈ entries.values, Data h n e.2) : Data h (n + 1) r

theorem nesting_of_plain (data : o.payload.plainSnapshot? = some s) : s.nesting = 0 := by
  cases payload : o.payload <;> rw [payload] at data <;> cases data <;> rfl

/-- Such a value spells a snapshot that is nested no more deeply. -/
theorem Data.exists_spells (data : h.Data n r) : ∃ s, h.Spells r s ∧ s.nesting ≤ n := by
  induction data with
  | plain live untyped data =>
    obtain ⟨s, plain⟩ := Option.isSome_iff_exists.mp data
    exact ⟨s, .plain live plain, (nesting_of_plain plain).trans_le (Nat.zero_le _)⟩
  | @list n r o items live untyped payload parts ih =>
    choose! shown spells fits using ih
    refine ⟨.list (items.toList.map shown), .list live payload ?_ fun i q s item at_i => ?_, ?_⟩
    · rw [List.length_map, Array.length_toList]
    · rw [List.getElem?_map, Array.getElem?_toList, item, Option.map_some, Option.some_inj] at at_i
      exact at_i ▸ spells q (List.mem_of_getElem? (Array.getElem?_toList.trans item))
    · refine Nat.succ_le_succ (Snapshot.nestingItems_le_iff.mpr ?_)
      exact List.forall_mem_map.mpr fits
  | @map n r o entries live untyped payload keys values ihKeys ihValues =>
    choose! shownKey spellsKey fitsKey using ihKeys
    choose! shownValue spellsValue fitsValue using ihValues
    refine ⟨.map (entries.values.map fun e => (shownKey e, shownValue e)), .map live payload ?_ ?_ ?_, ?_⟩
    · rw [List.length_map, Table.values, List.length_map, Table.size]
    · intro i e s entry at_i
      rw [List.getElem?_map, entry, Option.map_some, Option.some_inj] at at_i
      exact at_i ▸ spellsKey e (List.mem_of_getElem? entry)
    · intro i e s entry at_i
      rw [List.getElem?_map, entry, Option.map_some, Option.some_inj] at at_i
      exact at_i ▸ spellsValue e (List.mem_of_getElem? entry)
    · refine Nat.succ_le_succ (Snapshot.nestingEntries_le_iff.mpr ?_)
      exact List.forall_mem_map.mpr fun e mem => ⟨fitsKey e mem, fitsValue e mem⟩

end Heap

namespace Snapshot

/-- Whether a snapshot is a text. -/
def isText : Snapshot → Bool
  | str _ => true
  | _ => false

/-- How many texts are made to show parts of a value: one for every part that is no text itself. -/
def wording (parts : List Snapshot) : Nat := parts.countP fun p => !p.isText

theorem wording_append (first later : List Snapshot) : wording (first ++ later) = wording first + wording later :=
  List.countP_append

theorem number?_toString (i : Int64) : Json.number? (toString i.toInt).toList = some (.int i.toInt, []) := by
  have least := Int64.le_toInt i
  have greatest := Int64.toInt_lt i
  have size : UInt64.size = 2 ^ 64 := rfl
  have small : Integer.least = -2 ^ 63 := rfl
  have read := Json.number?_render (i := i.toInt) (by omega) (by omega) (show Json.Delimits [] from trivial)
  rwa [List.append_nil] at read

/-- Different integers have different texts. -/
theorem toString_toInt_inj {i j : Int64} : toString i.toInt = toString j.toInt ↔ i = j := by
  refine ⟨fun same => ?_, fun same => same ▸ rfl⟩
  have read := number?_toString i
  rw [same, number?_toString j] at read
  simp only [Option.some.injEq, Prod.mk.injEq, Json.int.injEq, and_true] at read
  exact (Int64.toInt_inj.mp read).symm

/-- The text of a range names the step unless it is one. -/
theorem rangeText_eq (start stop step : Int64) :
    rangeText start stop step =
      if step = 1 then s!"range({toString start.toInt}, {toString stop.toInt})"
      else s!"range({toString start.toInt}, {toString stop.toInt}, {toString step.toInt})" := by
  have one : toString step.toInt = "1" ↔ step = 1 := toString_toInt_inj (j := 1)
  simp only [rangeText, beq_iff_eq, one]

end Snapshot

/-! ### Calls of the members -/

namespace Engine

variable {due : Schedule} {m : Machine} {h : Heap} {r : Ref} {o : Object} {s : Snapshot} {n cost fuel : Nat}
  {t : String} {kind : Kind} {native : Native} {k : Reentry}

/-- A result holds a text. -/
def Text (t : String) (r : Ref) (h : Heap) : Prop := h.payload? r = some (.str t)

theorem succeeds_newStr (due : Schedule) (w : m.heap.objects.WellFormed) (t : String) :
    Succeeds due (newStr t) 1 (Text t) m :=
  (succeeds_new due w (.str t)).mono fun r h stored => by rw [Text, Heap.payload?, stored]; rfl

/-- The declaration of the member that gives the text of data of a kind. -/
def textMember (kind : Kind) (native : Native) : Declaration := ⟨"op_str", [Declaration.typed "self" kind], native⟩

/-- A text is asked for one call deeper. -/
theorem succeeds_callOperator (equipped : h.Equipped) (declared : textMember kind native ∈ Declaration.ofKind kind)
    (ready : m.Extends h (n + 1)) (typeOf : m.heap.typeOf r = kind.ref)
    (inside : ∀ m' : Machine, m'.Extends h n → Succeeds due (runNative (reentry fuel) native [r]) cost (Text t) m') :
    Succeeds due (callOperator (reentry (fuel + 1)) "op_str" [r] true) cost (Text t) m := by
  have types : m.heap.operandTypes "op_str" [r] = [] ++ kind.ref :: [] := by
    rw [← typeOf]
    rfl
  have takes : (textMember kind native).Takes m.heap [r] :=
    ⟨List.forall_mem_singleton.mpr rfl, .cons (Declaration.fits_typed "self" typeOf) .nil⟩
  exact succeeds_dispatch equipped declared ready rfl types (List.forall_mem_nil _) takes inside

/-- The text that a member gave, which must be one. -/
def givenText (result : Ref) : Engine String := do
  match ← payload result with
  | .str s => return s
  | _ => raise (.strResult (← ask fun h => h.typeName result))

/-- A value other than a text shows the text that the member of its kind gives. -/
theorem succeeds_display (equipped : h.Equipped) (declared : textMember kind native ∈ Declaration.ofKind kind)
    (ready : m.Extends h (n + 1)) (live : h.object? r = some o) (untyped : o.type = none)
    (ofKind : o.payload.typeRef = kind.ref) (noText : o.payload.isText = false)
    (inside : ∀ m' : Machine, m'.Extends h n → Succeeds due (runNative (reentry fuel) native [r]) cost (Text t) m') :
    Succeeds due (display (reentry (fuel + 1)) r) cost (fun text _ => text = t) m := by
  have live' := ready.adds.kept r o live
  have typeOf : m.heap.typeOf r = kind.ref := (Heap.typeOf_of_untyped live' untyped).trans ofKind
  have asked : Succeeds due (callOperator (reentry (fuel + 1)) "op_str" [r] true >>= givenText) (cost + 0)
      (fun text _ => text = t) m := by
    refine (succeeds_callOperator equipped declared ready typeOf inside).bind fun result m' spends text => ?_
    refine .bind_of_ok (a := .str t) ?_ (.pure due spends.wellFormed rfl)
    rw [runUnder_payload, text]
  rw [display]
  refine .bind_of_ok (runUnder_load live') ?_
  split
  · rename_i isText
    rw [isText] at noText
    cases noText
  · exact asked

/-! ### Plain data -/

/-- Plain data other than texts has a member that stores its text. -/
theorem exists_textMember (plain : o.payload.plainSnapshot? = some s) (noText : o.payload.isText = false) :
    ∃ kind native, textMember kind native ∈ Declaration.ofKind kind ∧ o.payload.typeRef = kind.ref ∧
      ∀ (due : Schedule) (k : Reentry) (m : Machine), m.heap.object? r = some o →
        (runNative k native [r]).runUnder due m = (newStr s.display).runUnder due m := by
  have reads {due : Schedule} {m : Machine} (live : m.heap.object? r = some o) :
      (payload r).runUnder due m = .ok o.payload m := by
    rw [runUnder_payload, Heap.payload?, live]
    rfl
  cases data : o.payload <;> rw [data] at plain noText <;> cases plain
  case null => exact ⟨.null, .truth .nullStr, by decide, rfl, fun due k m live => rfl⟩
  case bool b =>
    refine ⟨.bool, .truth .str, by decide, rfl, fun due k m live => ?_⟩
    show (runTruth k .str [r]).runUnder due m = _
    simp only [runTruth, runUnder_bind, reads live, data]
    cases b <;> rfl
  case int i =>
    refine ⟨.int, .number .str, by decide, rfl, fun due k m live => ?_⟩
    show (runNumber .str [r]).runUnder due m = _
    simp only [runNumber, numeric, runUnder_bind, reads live, data, Numeric.ofPayload?, runUnder_pure]
    rfl
  case num x =>
    refine ⟨.num, .number .str, by decide, rfl, fun due k m live => ?_⟩
    show (runNumber .str [r]).runUnder due m = _
    simp only [runNumber, numeric, runUnder_bind, reads live, data, Numeric.ofPayload?, runUnder_pure]
    rfl
  case str => cases noText
  case range range =>
    refine ⟨.range, .range .str, by decide, rfl, fun due k m live => ?_⟩
    show (runRange .str [r]).runUnder due m = _
    simp only [runRange, rangeOf, runUnder_bind, reads live, data, runUnder_pure, Snapshot.display, Snapshot.repr,
      Snapshot.rangeText_eq]
  case type info =>
    refine ⟨.type, .object .typeStr, by decide, rfl, fun due k m live => ?_⟩
    have name : m.heap.nameOfType r = info.name := by
      simp only [Heap.nameOfType, Heap.typeInfo?, Heap.payload?, live, Option.map_some, data, Option.getD_some]
    show (runObject k .typeStr [r]).runUnder due m = _
    simp only [runObject, runUnder_bind, runUnder_ask, name]
    rfl
  case function f =>
    refine ⟨.function, .object .functionStr, by decide, rfl, fun due k m live => ?_⟩
    show (runObject k .functionStr [r]).runUnder due m = _
    simp only [runObject, functionOf, runUnder_bind, reads live, data, runUnder_pure]
    rfl

/-! ### Containers -/

/-- A value is displayed as its snapshot is, on every machine that has the objects of a heap and room for calls. -/
def Displays (due : Schedule) (k : Reentry) (h : Heap) (n : Nat) (r : Ref) (s : Snapshot) : Prop :=
  ∀ m : Machine, m.Extends h n →
    Succeeds due (display k r) (Snapshot.wording s.parts) (fun text _ => text = s.display) m

/-- A value is shown as its snapshot is inside the texts of others. -/
def Shows (due : Schedule) (k : Reentry) (h : Heap) (n : Nat) (r : Ref) (s : Snapshot) : Prop :=
  ∀ m : Machine, m.Extends h n → Succeeds due (shown k r) (Snapshot.wording s.parts) (fun text _ => text = s.repr) m

/-- Texts are quoted where they are shown; all other values are shown as they are displayed. -/
theorem Displays.shows (displays : Displays due k h n r s) (spells : h.Spells r s) : Shows due k h n r s := by
  intro m ready
  obtain ⟨o, live⟩ := spells.exists_object
  have reads : (payload r).runUnder due m = .ok o.payload m := by
    rw [runUnder_payload, ready.adds.payload? (p := o.payload) (by rw [Heap.payload?, live]; rfl)]
  rw [shown]
  refine .bind_of_ok reads ?_
  split
  · rename_i text isText
    have plain : h.Spells r (.str text) := .plain live (by rw [isText]; rfl)
    obtain rfl := spells.unique plain
    exact .pure due ready.adds.wellFormed rfl
  · rename_i noText
    have same : s.display = s.repr := by
      cases spells with
      | plain live' data =>
        cases live.symm.trans live'
        cases payload : o.payload <;> rw [payload] at data <;> cases data <;>
          first | rfl | exact absurd payload (noText _)
      | _ => rfl
    exact same ▸ displays m ready

theorem succeeds_shownItems {list : Ref} {items : List Ref} {shown : List Snapshot}
    (each : List.Forall₂ (fun q v => q ≠ list ∧ Shows due k h n q v) items shown) (ready : m.Extends h n) :
    Succeeds due (shownItems k list items) (Snapshot.wording (Snapshot.partsOfItems shown))
      (fun texts _ => texts = Snapshot.reprItems shown) m := by
  induction each generalizing m with
  | nil => exact .pure due ready.adds.wellFormed rfl
  | @cons q v later later' first _ ih =>
    rw [shownItems, if_neg first.1, Snapshot.partsOfItems, Snapshot.wording_append]
    refine (first.2 m ready).bind fun text m₁ spends same => ?_
    refine (ih (ready.of_spends spends)).bind (k := 0) fun texts m₂ spends' same' => ?_
    refine .pure due spends'.wellFormed ?_
    rw [same, same', Snapshot.reprItems]

theorem succeeds_shownEntries {map : Ref} {pairs : List (Ref × Ref)} {shown : List (Snapshot × Snapshot)}
    (each : List.Forall₂ (fun e v => Shows due k h n e.1 v.1 ∧ e.2 ≠ map ∧ Shows due k h n e.2 v.2) pairs shown)
    (ready : m.Extends h n) :
    Succeeds due (shownEntries k map pairs) (Snapshot.wording (Snapshot.partsOfEntries shown))
      (fun texts _ => texts = Snapshot.reprEntries shown) m := by
  induction each generalizing m with
  | nil => exact .pure due ready.adds.wellFormed rfl
  | @cons e v later later' first _ ih =>
    obtain ⟨key, value⟩ := e
    obtain ⟨shownKey, shownValue⟩ := v
    obtain ⟨ofKey, other, ofValue⟩ := first
    rw [shownEntries, Snapshot.partsOfEntries, Snapshot.wording_append, Snapshot.wording_append]
    refine (ofKey m ready).bind fun keyText m₁ spends sameKey => ?_
    have ready₁ := ready.of_spends spends
    dsimp only at other ⊢
    rw [if_neg other]
    refine (ofValue m₁ ready₁).bind fun valueText m₂ spends' sameValue => ?_
    refine (ih (ready₁.of_spends spends')).bind (k := 0) fun texts m₃ spends'' same => ?_
    refine .pure due spends''.wellFormed ?_
    rw [sameKey, sameValue, same, Snapshot.reprEntries]

/-- The text of a list. -/
theorem succeeds_listText {items : Array Ref} {shown : List Snapshot} (live : h.object? r = some o)
    (data : o.payload = .list items)
    (each : List.Forall₂ (fun q v => q ≠ r ∧ Shows due k h n q v) items.toList shown) (ready : m.Extends h n) :
    Succeeds due (runNative k (.list .str) [r]) (Snapshot.wording (Snapshot.list shown).parts)
      (Text (Snapshot.list shown).display) m := by
  have reads : (itemsOf r).runUnder due m = .ok items m := by
    have live' := ready.adds.kept r o live
    simp only [itemsOf, runUnder_bind, runUnder_payload, Heap.payload?, live', Option.map_some, data]
    rfl
  show Succeeds due (runList k .str [r]) _ _ m
  rw [runList, Snapshot.parts, Snapshot.wording_append]
  refine .bind_of_ok reads ?_
  refine ((succeeds_shownItems each (ready.pushRoots _)).keeping).bind fun texts m' spends same => ?_
  rw [same]
  exact succeeds_newStr due spends.wellFormed _

/-- The text of a map. -/
theorem succeeds_mapText {entries : Entries} {shown : List (Snapshot × Snapshot)} (live : h.object? r = some o)
    (data : o.payload = .map entries) (ready : m.Extends h n)
    (each : List.Forall₂ (fun e v => Shows due k h n e.1 v.1 ∧ e.2 ≠ r ∧ Shows due k h n e.2 v.2)
      entries.values shown) :
    Succeeds due (runNative k (.map .str) [r]) (Snapshot.wording (Snapshot.map shown).parts)
      (Text (Snapshot.map shown).display) m := by
  have reads : (entriesOf r).runUnder due m = .ok entries m := by
    have live' := ready.adds.kept r o live
    simp only [entriesOf, runUnder_bind, runUnder_payload, Heap.payload?, live', Option.map_some, data]
    rfl
  show Succeeds due (runMap k .str [r]) _ _ m
  rw [runMap, Snapshot.parts, Snapshot.wording_append]
  refine .bind_of_ok reads ?_
  refine ((succeeds_shownEntries each (ready.pushRoots _)).keeping).bind fun texts m' spends same => ?_
  rw [same]
  exact succeeds_newStr due spends.wellFormed _

/-! ### Both ways -/

/-- A part of a value is not the value. -/
theorem ne_of_spells {q : Ref} {v : Snapshot} (spells : h.Spells q v) (around : h.Spells r s)
    (smaller : sizeOf v < sizeOf s) : q ≠ r := by
  rintro rfl
  rw [spells.unique around] at smaller
  exact Nat.lt_irrefl _ smaller

theorem displays_text (live : h.object? r = some o) (untyped : o.type = none) (text : o.payload = .str t) :
    Displays due k h n r (.str t) := by
  intro m ready
  rw [display]
  refine .bind_of_ok (runUnder_load (ready.adds.kept r o live)) ?_
  rw [untyped, text]
  exact .pure due ready.adds.wellFormed rfl

theorem displays_plain (equipped : h.Equipped) (live : h.object? r = some o) (untyped : o.type = none)
    (plain : o.payload.plainSnapshot? = some s) : Displays due (reentry (fuel + 1)) h (n + 1) r s := by
  intro m ready
  cases text : o.payload.isText with
  | true =>
    cases payload : o.payload <;> rw [payload] at plain text <;> cases text
    cases plain
    exact displays_text live untyped payload m ready
  | false =>
    obtain ⟨kind, native, declared, ofKind, ran⟩ := exists_textMember (r := r) plain text
    have one : Snapshot.wording s.parts = 1 := by
      cases payload : o.payload <;> rw [payload] at plain text <;> cases plain <;> first | rfl | cases text
    rw [one]
    refine succeeds_display equipped declared ready live untyped ofKind text fun m' ready' => ?_
    have live' := ready'.adds.kept r o live
    exact (succeeds_newStr due ready'.adds.wellFormed _).of_runUnder_eq (ran due _ m' live')

/-- What a list spells is the list of what its items spell. -/
theorem exists_of_spells_list {items : Array Ref} (spells : h.Spells r s) (live : h.object? r = some o)
    (payload : o.payload = .list items) :
    ∃ shown, s = .list shown ∧ List.Forall₂ (fun q v => q ≠ r ∧ h.Spells q v) items.toList shown := by
  have around := spells
  cases spells with
  | plain live' data | map live' data =>
    cases live.symm.trans live'
    rw [payload] at data
    cases data
  | @list _ _ _ shown live' payload' length parts =>
    cases live.symm.trans live'
    cases payload.symm.trans payload'
    refine ⟨shown, rfl, forall₂_of_getElem? (length.trans Array.length_toList.symm) fun i q v item shown_i => ?_⟩
    have part := parts i q v (Array.getElem?_toList.symm.trans item) shown_i
    exact ⟨ne_of_spells part around (Snapshot.sizeOf_lt_list (List.mem_of_getElem? shown_i)), part⟩

/-- What a map spells is the map of what its keys and values spell. -/
theorem exists_of_spells_map {entries : Entries} (spells : h.Spells r s) (live : h.object? r = some o)
    (payload : o.payload = .map entries) :
    ∃ shown, s = .map shown ∧
      List.Forall₂ (fun e v => h.Spells e.1 v.1 ∧ e.2 ≠ r ∧ h.Spells e.2 v.2) entries.values shown := by
  have around := spells
  cases spells with
  | plain live' data | list live' data =>
    cases live.symm.trans live'
    rw [payload] at data
    cases data
  | @map _ _ _ shown live' payload' length keys values =>
    cases live.symm.trans live'
    cases payload.symm.trans payload'
    refine ⟨shown, rfl, forall₂_of_getElem? (length.trans (List.length_map _).symm) fun i e v entry shown_i => ?_⟩
    have value := values i e v entry shown_i
    have smaller := (Snapshot.sizeOf_lt_map (List.mem_of_getElem? shown_i)).2
    exact ⟨keys i e v entry shown_i, ne_of_spells value around smaller, value⟩

/-- A value is displayed as its snapshot is, if calls can be nested more deeply than the value. -/
theorem displays_of_data (due : Schedule) (equipped : h.Equipped) (data : h.Data n r) (spells : h.Spells r s)
    (enough : n < fuel) : Displays due (reentry fuel) h (n + 1) r s := by
  induction data generalizing s fuel with
  | @plain n r o live untyped isPlain =>
    obtain ⟨fuel, rfl⟩ : ∃ f, fuel = f + 1 := ⟨fuel - 1, by omega⟩
    obtain ⟨s', plain⟩ := Option.isSome_iff_exists.mp isPlain
    obtain rfl := spells.unique (.plain live plain)
    exact displays_plain equipped live untyped plain
  | @list n r o items live untyped payload parts ih =>
    obtain ⟨fuel, rfl⟩ : ∃ f, fuel = f + 1 := ⟨fuel - 1, by omega⟩
    obtain ⟨shown, rfl, spelled⟩ := exists_of_spells_list spells live payload
    have enough' : n < fuel := Nat.lt_of_succ_lt_succ enough
    have each : List.Forall₂ (fun q v => q ≠ r ∧ Shows due (reentry fuel) h (n + 1) q v) items.toList shown := by
      refine ((List.forall₂_and_left _ _).mpr ⟨fun _ mem => mem, spelled⟩).imp ?_
      rintro q v ⟨mem, other, part⟩
      exact ⟨other, (ih q mem part enough').shows part⟩
    intro m ready
    have declared : textMember .list (.list .str) ∈ Declaration.ofKind .list := by decide
    refine succeeds_display equipped declared ready live untyped (by rw [payload]; rfl) (by rw [payload]; rfl) ?_
    intro m' ready'
    exact succeeds_listText live payload each ready'
  | @map n r o entries live untyped payload keys values ihKeys ihValues =>
    obtain ⟨fuel, rfl⟩ : ∃ f, fuel = f + 1 := ⟨fuel - 1, by omega⟩
    obtain ⟨shown, rfl, spelled⟩ := exists_of_spells_map spells live payload
    have enough' : n < fuel := Nat.lt_of_succ_lt_succ enough
    have each : List.Forall₂ (fun e v => Shows due (reentry fuel) h (n + 1) e.1 v.1 ∧ e.2 ≠ r ∧
        Shows due (reentry fuel) h (n + 1) e.2 v.2) entries.values shown := by
      refine ((List.forall₂_and_left _ _).mpr ⟨fun _ mem => mem, spelled⟩).imp ?_
      rintro e v ⟨mem, key, other, value⟩
      exact ⟨(ihKeys e mem key enough').shows key, other, (ihValues e mem value enough').shows value⟩
    intro m ready
    have declared : textMember .map (.map .str) ∈ Declaration.ofKind .map := by decide
    refine succeeds_display equipped declared ready live untyped (by rw [payload]; rfl) (by rw [payload]; rfl) ?_
    intro m' ready'
    exact succeeds_mapText live payload ready' each

/-! ### What programs make of it -/

/-- Printing a value writes the text that it is displayed with, and ends the line. -/
theorem runUnder_print {m' : Machine} (ran : (display k r).runUnder due m = .ok t m') :
    (runGlobal k .print [r]).runUnder due m =
      (do
        print t
        print "\n"
        return Ref.null).runUnder due m' := by
  simp only [runGlobal, printAll, Bool.not_true, Bool.false_eq_true, ↓reduceIte, runUnder_bind, ran]
  cases (print t).runUnder due m' <;> rfl

/-- To make a text of a value stores the text that it is displayed with. -/
theorem succeeds_createText (displayed : Succeeds due (display k r) cost (fun text _ => text = t) m) :
    Succeeds due (runText k .create [Kind.string.ref, r]) (cost + 1) (Text t) m := by
  rw [runText]
  refine displayed.bind fun text m' spends same => ?_
  rw [same]
  exact succeeds_newStr due spends.wellFormed t

/-- At any time in a session, while the built-in Types of data have the members that were declared for them, a value
that lists and maps build from plain data has a snapshot, if they are nested in no more than a hundred levels. If
calls can be nested more deeply than the value, and the budget has room for a text for each part of it that is no text
itself, the value is displayed with the text of the snapshot, and shown inside others as the snapshot is; all else
stays as it is. So printing writes the text of the snapshot and ends the line, and with room for one more object a
text that is made of the value is the text of the snapshot. -/
theorem renderings_agree {budget : Budget} {tracer : Tracer} {actions : List HostAction} {m : Machine}
    (reachable : m.heap ∈ (Machine.boot budget tracer).passage actions)
    (furnished : ∀ kind, ∀ d ∈ Declaration.ofKind kind, m.heap.Furnished kind.ref d) {n : Nat} {r : Ref}
    (data : m.heap.Data n r) (shallow : n ≤ 100) (can : m.CanNest (n + 1)) {fuel : Nat} (enough : n < fuel)
    (due : Schedule) :
    let k := reentry fuel
    ∃ s, m.heap.snapshot? r = some s ∧
      let cost := Snapshot.wording s.parts
      (m.heap.HasRoom cost →
        (∃ m', (shown k r).runUnder due m = .ok s.repr m' ∧ m.Spends cost m') ∧
        ∃ m', (display k r).runUnder due m = .ok s.display m' ∧ m.Spends cost m' ∧
          (runGlobal k .print [r]).runUnder due m =
            (do
              print s.display
              print "\n"
              return Ref.null).runUnder due m') ∧
      (m.heap.HasRoom (cost + 1) → ∃ text m',
        (runText k .create [Kind.string.ref, r]).runUnder due m = .ok text m' ∧ m.Spends (cost + 1) m' ∧
          m'.heap.snapshot? text = some (.str s.display)) := by
  intro k
  obtain ⟨s, spells, nested⟩ := data.exists_spells
  have equipped : m.heap.Equipped :=
    ⟨(Machine.orderly_of_mem_passage reachable).objects, Machine.builtinsStand_of_mem_passage reachable, furnished⟩
  have start : m.Extends m.heap (n + 1) := ⟨.refl equipped.objects, can⟩
  have displays := displays_of_data due equipped data spells enough
  refine ⟨s, spells.snapshot? (nested.trans shallow), fun room => ⟨?_, ?_⟩, fun room => ?_⟩
  · obtain ⟨text, m', ran, spends, rfl⟩ := displays.shows spells m start room
    exact ⟨m', ran, spends⟩
  · obtain ⟨text, m', ran, spends, rfl⟩ := displays m start room
    exact ⟨m', ran, spends, runUnder_print ran⟩
  · obtain ⟨text, m', ran, spends, holds⟩ := succeeds_createText (displays m start) room
    obtain ⟨o, live, payload⟩ := Option.map_eq_some_iff.mp holds
    have stored : m'.heap.Spells text (.str s.display) := .plain live (by rw [payload]; rfl)
    exact ⟨text, m', ran, spends, stored.snapshot? (Nat.zero_le _)⟩

/-- A host stores a list of an integer and a map from a text to a list without items. -/
def nestedList : Snapshot := .list [.int 1, .map [(.str "k", .list [])]]

/-- The list is displayed as the text of its snapshot. -/
theorem renderings_agree_nested :
    let start := Machine.boot .unlimited .silent
    let m := start.afterSession [.store nestedList]
    let list : Ref := ⟨146⟩
    m.heap ∈ start.passage [.store nestedList] ∧ m.heap.Data 3 list ∧
      ∃ m', (display (reentry Machine.fuel) list).run m = .ok "[1, \x7b'k': []\x7d]" m' := by
  intro start m list
  have reachable : m.heap ∈ start.passage [.store nestedList] := start.heap_afterSession_mem_passage _
  obtain ⟨one, key, empty, map, outer, text, unlimited, can⟩ :
      m.heap.object? ⟨142⟩ = some (.ofPayload (.int 1) none) ∧
      m.heap.object? ⟨143⟩ = some (.ofPayload (.str "k") none) ∧
      m.heap.object? ⟨144⟩ = some (.ofPayload (.list #[]) none) ∧
      m.heap.object? ⟨145⟩ = some (.ofPayload (.map (Entries.put .empty (.str "k") ⟨143⟩ ⟨144⟩)) none) ∧
      m.heap.object? list = some (.ofPayload (.list #[⟨142⟩, ⟨145⟩]) none) ∧
      (m.heap.snapshot? list).map Snapshot.display = some "[1, \x7b'k': []\x7d]" ∧
      m.heap.budget = .unlimited ∧ m.CanNest 4 := by
    decide +kernel
  have inner : m.heap.Data 2 ⟨145⟩ :=
    .map map rfl rfl (List.forall_mem_singleton.mpr (.plain key rfl rfl))
      (List.forall_mem_singleton.mpr (.list empty rfl rfl (List.forall_mem_nil _)))
  have data : m.heap.Data 3 list :=
    .list outer rfl rfl (List.forall_mem_cons.mpr ⟨.plain one rfl rfl, List.forall_mem_singleton.mpr inner⟩)
  have enough : 3 < Machine.fuel := by decide +kernel
  obtain ⟨s, taken, shows, -⟩ := renderings_agree reachable (Machine.furnished_store _ _ _) data (by decide)
    can enough Heap.collectionDue
  rw [taken, Option.map_some, Option.some_inj] at text
  obtain ⟨-, m', ran, -⟩ := shows (by rw [Heap.HasRoom, unlimited]; trivial)
  exact ⟨reachable, data, m', text ▸ ran⟩

/-- The message of the limit that a computation ran into. -/
def limitMessage? {α : Type} : EStateM.Result Interrupt Machine α → Option String
  | .error (.exhausted e) _ => some e.message
  | _ => none

/-- Two objects may be stored. A list of one integer takes both, so that there is no room for the text of the integer:
the list has a snapshot and its text, but it is not displayed. -/
theorem display_refused_at_limit :
    let start := Machine.boot (.ofLimits { Limits.standard with maxAllocations := some 2 }) .silent
    let m := start.afterSession [.store (.list [.int 1])]
    let list : Ref := ⟨143⟩
    m.heap ∈ start.passage [.store (.list [.int 1])] ∧
      (∀ kind, ∀ d ∈ Declaration.ofKind kind, m.heap.Furnished kind.ref d) ∧ m.heap.Data 1 list ∧ m.CanNest 2 ∧
      (m.heap.snapshot? list).map Snapshot.display = some "[1]" ∧
      ∃ e m', (display (reentry Machine.fuel) list).run m = .error (.exhausted e) m' ∧
        e.message = "allocation limit exceeded: 3 > 2" := by
  intro start m list
  obtain ⟨item, outer, can, taken, refused⟩ : m.heap.object? ⟨142⟩ = some (.ofPayload (.int 1) none) ∧
      m.heap.object? list = some (.ofPayload (.list #[⟨142⟩]) none) ∧ m.CanNest 2 ∧
      (m.heap.snapshot? list).map Snapshot.display = some "[1]" ∧
      limitMessage? ((display (reentry Machine.fuel) list).run m) = some "allocation limit exceeded: 3 > 2" := by
    decide +kernel
  refine ⟨start.heap_afterSession_mem_passage _, Machine.furnished_store _ _ _, ?_, can, taken, ?_⟩
  · exact .list outer rfl rfl (List.forall_mem_singleton.mpr (.plain item rfl rfl))
  · unfold limitMessage? at refused
    split at refused
    · rename_i e m' ran
      exact ⟨e, m', ran, Option.some.inj refused⟩
    · cases refused

end Engine

end ObjectMachine
