import ObjectMachine.Proofs.Furnishing
/-!
Literals: `null`, truth values, integers, texts, and lists of literals. A host tells them by their snapshots, in
which lists are cut below a fixed depth; whoever has the object of `null` or of a truth value has the only one.
-/
namespace ObjectMachine

/-! ### One object each -/

namespace Payload

/-- Whether there is only one object for a payload: for `null`, and for each truth value. -/
def isSingle : Payload → Bool
  | null | bool _ => true
  | _ => false

/-- Whether a payload is `null`, a truth value or a Type: no change makes it one of these. -/
def isFixed (p : Payload) : Bool := p.isSingle || p.isType

theorem isFixed_of_isSingle {p : Payload} (single : p.isSingle) : p.isFixed := by
  rw [isFixed, single, Bool.true_or]

theorem isReserved_of_isFixed {p : Payload} (fixed : p.isFixed) : p.isReserved := by
  cases p with
  | null | bool | type => rfl
  | _ => cases fixed

theorem onPayload_of_isFixed {c : Change} {p : Payload} (fixed : (c.onPayload p).isFixed) : c.onPayload p = p := by
  cases c <;> cases p <;> first | rfl | cases fixed

end Payload

namespace Heap

variable {h h' : Heap} {r : Ref} {o : Object}

/-- The objects of `null` and of the truth values are the singletons, and they have no other Type. -/
def HasSingles (h : Heap) : Prop :=
  ∀ r o, h.object? r = some o → o.payload.isSingle → (r, o.payload) ∈ singletonPayloads ∧ o.type = none

theorem hasSingles_boot : boot.HasSingles := by
  -- the objects at the start are in the first slots
  have slots : ∀ i < boot.objects.size, ∀ o ∈ boot.object? ⟨i⟩, o.payload.isSingle →
      (⟨i⟩, o.payload) ∈ singletonPayloads ∧ o.type = none := by
    decide +kernel
  rintro ⟨i⟩ o live single
  exact slots i (Arena.lt_size_of_get? live) o live single

/-- Changes do not make an object that of `null`, of a truth value, or a Type. -/
theorem exists_of_changeAll {changes : List (Ref × Change)} (live : (h.changeAll changes).object? r = some o)
    (fixed : o.payload.isFixed) : ∃ o', h.object? r = some o' ∧ o'.payload = o.payload ∧ o'.type = o.type := by
  induction changes generalizing h with
  | nil => exact ⟨o, live, rfl, rfl⟩
  | cons c later ih =>
    obtain ⟨o₁, live₁, payload, type⟩ := ih live
    rw [object?_modify] at live₁
    split at live₁
    · rename_i here
      obtain ⟨⟨type', members', payload'⟩, live', rfl⟩ := Option.map_eq_some_iff.mp live₁
      rw [← payload] at fixed
      have same : c.2.onPayload payload' = payload' := Payload.onPayload_of_isFixed fixed
      exact ⟨⟨type', members', payload'⟩, here ▸ live', same.symm.trans payload, type⟩
    · exact ⟨o₁, live₁, payload, type⟩

/-- No step makes an object that of `null`, of a truth value, or a Type; and the Types that it stores are objects
without a Type of their own. -/
theorem Step.exists_of_isFixed (step : h.Step h') (w : h.objects.WellFormed) (live : h'.object? r = some o)
    (fixed : o.payload.isFixed) :
    (∃ o', h.object? r = some o' ∧ o'.payload = o.payload ∧ o'.type = o.type) ∨ o.payload.isType ∧ o.type = none := by
  cases step with
  | store new free =>
    left
    cases stored : h.allocate new with
    | mk result h₁ =>
      rw [stored] at live
      cases result with
      | error e => exact ⟨o, eq_of_allocate_error stored ▸ live, rfl, rfl⟩
      | ok r₁ =>
        rw [(stores_of_allocate w stored).object?] at live
        split at live
        · cases live
          rw [Payload.isReserved_of_isFixed fixed] at free
          cases free
        · exact ⟨o, live, rfl, rfl⟩
  | storeType name parents some =>
    cases stored : h.allocateType name parents with
    | mk result h₁ =>
      rw [stored] at live
      cases result with
      | error e => exact .inl ⟨o, eq_of_allocateType_error stored ▸ live, rfl, rfl⟩
      | ok result =>
        obtain ⟨r₁, info, stores, -⟩ := stores_of_allocateType w stored
        rw [stores.object?] at live
        split at live
        · cases live
          exact .inr ⟨rfl, rfl⟩
        · exact .inl ⟨o, live, rfl, rfl⟩
  | openScope s =>
    simp only [Heap.object?, objects_allocateScope] at live
    exact .inl ⟨o, live, rfl, rfl⟩
  | change changes => exact .inl (exists_of_changeAll live fixed)
  | bind s f => exact .inl ⟨o, live, rfl, rfl⟩
  | tick => exact .inl ⟨o, live, rfl, rfl⟩
  | beginRequest => exact .inl ⟨o, live, rfl, rfl⟩
  | collect roots => exact .inl ⟨o, object?_of_collect live, rfl, rfl⟩

theorem HasSingles.step (singles : h.HasSingles) (step : h.Step h') (w : h.objects.WellFormed) : h'.HasSingles := by
  intro r o live single
  rcases step.exists_of_isFixed w live (Payload.isFixed_of_isSingle single) with ⟨o', live', payload, type⟩ | ⟨type, -⟩
  · rw [← payload] at single ⊢
    rw [← type]
    exact singles r o' live' single
  · cases payload : o.payload <;> simp [payload, Payload.isSingle, Payload.isType] at single type

/-- The singletons have no Type other than that of their payload. -/
theorem HasSingles.exists_object (singles : h.HasSingles) (orderly : h.Orderly) {e : Ref × Payload}
    (mem : e ∈ singletonPayloads) : ∃ o, h.object? e.1 = some o ∧ o.type = none ∧ o.payload = e.2 := by
  obtain ⟨o, live, payload⟩ := Option.map_eq_some_iff.mp (orderly.singletons e mem)
  have all : ∀ e ∈ singletonPayloads, e.2.isSingle := by decide
  exact ⟨o, live, (singles _ o live (payload ▸ all e mem)).2, payload⟩

/-- Which objects there are does not depend on the budget. -/
theorem HasSingles.withBudget (singles : h.HasSingles) (budget : Budget) : (h.withBudget budget).HasSingles :=
  singles

end Heap

/-- There are no others at any time in a session. -/
theorem Machine.hasSingles_of_mem_passage {budget : Budget} {tracer : Tracer} {actions : List HostAction} {h : Heap}
    (mem : h ∈ (boot budget tracer).passage actions) : h.HasSingles := by
  refine (boot budget tracer).invariant_passage actions ?_ (fun h mem h' _ step singles => ?_) h mem
  · rw [heap_boot]
    exact Heap.hasSingles_boot.withBudget budget
  · exact singles.step step (orderly_of_mem_passage mem).objects

/-! ### Literals and their snapshots -/

/-- The snapshot of `null`, a truth value, an integer or a text. -/
def Payload.atom? : Payload → Option Snapshot
  | null => some .null
  | bool b => some (.bool b)
  | int i => some (.int i)
  | str s => some (.str s)
  | _ => none

namespace Snapshot

/-- What a snapshot shows of lists of which only so many may stand inside one another. -/
def cut : Nat → Snapshot → Snapshot
  | 0, list _ => cycle "[...]"
  | n + 1, list items => list (items.map (cut n))
  | _, s => s

theorem cut_succ_list (n : Nat) (items : List Snapshot) : (list items).cut (n + 1) = list (items.map (cut n)) := rfl

end Snapshot

namespace Heap

variable {h h' : Heap} {r q : Ref} {o : Object} {s t : Snapshot} {n : Nat}

/-- An object is a literal that spells a snapshot: `null`, a truth value, an integer or a text, or a list of
literals. None of them has a Type other than that of its payload. -/
inductive Literal (h : Heap) : Ref → Snapshot → Prop where
  /-- Data that holds no other objects. -/
  | atom {r : Ref} {o : Object} {s : Snapshot} (live : h.object? r = some o) (untyped : o.type = none)
    (data : o.payload.atom? = some s) : Literal h r s
  /-- A list. -/
  | list {r : Ref} {o : Object} {items : Array Ref} {shown : List Snapshot} (live : h.object? r = some o)
    (untyped : o.type = none) (payload : o.payload = .list items) (length : shown.length = items.size)
    (parts : ∀ (i : Nat) q s, items[i]? = some q → shown[i]? = some s → Literal h q s) : Literal h r (.list shown)

theorem plainSnapshot?_of_atom (data : o.payload.atom? = some s) : o.payload.plainSnapshot? = some s := by
  cases payload : o.payload <;> rw [payload] at data <;> first | exact data | cases data

theorem cut_of_atom (data : o.payload.atom? = some s) : s.cut n = s := by
  cases payload : o.payload <;> rw [payload] at data <;> cases data <;> cases n <;> rfl

theorem atom?_ne_list {p : Payload} (items : List Snapshot) : p.atom? ≠ some (.list items) := by
  cases p <;> simp [Payload.atom?]

theorem eq_of_atom {p p' : Payload} (data : p.atom? = some s) (data' : p'.atom? = some s) : p = p' := by
  cases p <;> cases data <;> cases p' <;> cases data' <;> rfl

/-- Atoms are no lists, whole or cut. -/
theorem ne_cut_list (data : o.payload.atom? = some s) (items : List Snapshot) : s ≠ (Snapshot.list items).cut n := by
  cases payload : o.payload <;> rw [payload] at data <;> cases data <;> cases n <;> simp [Snapshot.cut]

/-- New objects do not change a literal. -/
theorem Literal.of_adds (literal : h.Literal r s) (adds : h.Adds h') : h'.Literal r s := by
  induction literal with
  | atom live untyped data => exact .atom (adds.kept _ _ live) untyped data
  | list live untyped payload length _ parts => exact .list (adds.kept _ _ live) untyped payload length parts

/-- A list of literals is a literal. -/
theorem Literal.of_items {items : Array Ref} {shown : List Snapshot} (live : h.object? r = some o)
    (untyped : o.type = none) (payload : o.payload = .list items)
    (literals : List.Forall₂ h.Literal items.toList shown) : h.Literal r (.list shown) := by
  refine .list live untyped payload (literals.length_eq.symm.trans Array.length_toList) fun i q v item shown_i => ?_
  exact forall₂_getElem? literals i q v (Array.getElem?_toList.trans item) shown_i

theorem Literal.spells (literal : h.Literal r s) : h.Spells r s := by
  induction literal with
  | atom live untyped data => exact .plain live (plainSnapshot?_of_atom data)
  | list live untyped payload length _ parts => exact .list live payload length parts

/-- `null` and the truth values are literals of one object only. -/
theorem Literal.eq_of_single (literal : h.Literal r s) (singles : h.HasSingles) (live : h.object? q = some o)
    (single : o.payload.isSingle) (data : o.payload.atom? = some s) : q = r := by
  have distinct : ∀ e ∈ singletonPayloads, ∀ e' ∈ singletonPayloads, e.2 = e'.2 → e.1 = e'.1 := by decide
  cases literal with
  | @atom _ o' _ live' untyped' data' =>
    have same := eq_of_atom data data'
    exact distinct _ (singles q o live single).1 _ (singles r o' live' (same ▸ single)).1 same
  | list => exact absurd data (atom?_ne_list _)

/-- The snapshot of a literal shows it as deeply as there is room. -/
theorem Literal.snapshotWithin? {room : Nat} {path : List Ref} (literal : h.Literal r s)
    (size : path.length + room = snapshotDepth) (below : ∀ p ∈ path, ∃ t, h.Spells p t ∧ sizeOf s < sizeOf t) :
    h.snapshotWithin? room path r = some (s.cut room) := by
  induction literal generalizing room path with
  | atom live untyped data =>
    rw [cut_of_atom data]
    exact snapshotWithin?_of_leaf live (leafSnapshot?_of_plain (plainSnapshot?_of_atom data))
  | @list r o items shown live untyped payload length literals parts =>
    have self : h.Spells r (.list shown) := (Literal.list live untyped payload length literals).spells
    have container : o.payload.isContainer := by rw [payload]; rfl
    cases room with
    | zero =>
      rw [snapshotWithin?_of_cut live container size (.inr size.ge), payload]
      rfl
    | succ room =>
      have size' : (r :: path).length + room = snapshotDepth := by
        rw [List.length_cons]
        omega
      rw [snapshotWithin?_of_whole live container (self.not_isCut (by omega) below), payload]
      refine Option.map_eq_some_iff.mpr ⟨shown.map (Snapshot.cut room), ?_, rfl⟩
      refine mapM_eq_some_of_getElem? ?_ fun i q v item shown_i => ?_
      · rw [List.length_map, length, Array.length_toList]
      · rw [List.getElem?_map, Option.map_eq_some_iff] at shown_i
        obtain ⟨s, shown_i, rfl⟩ := shown_i
        have smaller := Snapshot.sizeOf_lt_list (List.mem_of_getElem? shown_i)
        rw [Array.getElem?_toList] at item
        exact parts i q s item shown_i size' (self.exists_larger below smaller)

theorem Literal.snapshot? (literal : h.Literal r s) : h.snapshot? r = some (s.cut snapshotDepth) :=
  literal.snapshotWithin? (Nat.zero_add _) (List.forall_mem_nil _)

/-- If only one of two literals is cut, they are told apart. -/
theorem Literal.eq_of_cut (literal : h.Literal r s) (literal' : h.Literal q t) (shallow : min s.nesting t.nesting ≤ n)
    (same : s.cut n = t.cut n) : s = t := by
  induction literal generalizing q t n with
  | @atom r o s live untyped data =>
    rw [cut_of_atom data] at same
    cases literal' with
    | atom live' untyped' data' => rwa [cut_of_atom data'] at same
    | list => exact absurd same (ne_cut_list data _)
  | @list r o items shown live untyped payload length literals parts =>
    cases literal' with
    | atom live' untyped' data' =>
      rw [cut_of_atom data'] at same
      exact absurd same.symm (ne_cut_list data' _)
    | @list _ _ _ shown' live' untyped' payload' length' literals' =>
      -- a list is cut only where there is no room left, which is not so for both
      rw [Snapshot.nesting, Snapshot.nesting, Nat.add_min_add_right] at shallow
      obtain ⟨n, rfl⟩ : ∃ n', n = n' + 1 := ⟨n - 1, by omega⟩
      rw [Snapshot.cut_succ_list, Snapshot.cut_succ_list, Snapshot.list.injEq] at same
      congr 1
      have lengths : shown.length = shown'.length := by simpa using congrArg List.length same
      refine List.ext_getElem lengths fun i inside inside' => ?_
      have cuts : shown[i].cut n = shown'[i].cut n := by
        have cut_i := congrArg (·[i]?) same
        simpa only [List.getElem?_map, List.getElem?_eq_getElem, inside, inside', Option.map_some, Option.some_inj]
          using cut_i
      have item := Array.getElem?_eq_getElem (length ▸ inside)
      have item' := Array.getElem?_eq_getElem (length' ▸ inside')
      have part' := literals' i _ _ item' (List.getElem?_eq_getElem inside')
      refine parts i _ _ item (List.getElem?_eq_getElem inside) part' ?_ cuts
      have least := Snapshot.nesting_le_items (List.getElem_mem inside)
      have least' := Snapshot.nesting_le_items (List.getElem_mem inside')
      omega

/-- Literals are told by their snapshots, if not both of them are cut there. -/
theorem Literal.snapshot?_eq_iff (literal : h.Literal r s) (literal' : h.Literal q t)
    (shallow : min s.nesting t.nesting ≤ snapshotDepth) : h.snapshot? r = h.snapshot? q ↔ s = t := by
  rw [literal.snapshot?, literal'.snapshot?, Option.some_inj]
  exact ⟨literal.eq_of_cut literal' shallow, congrArg _⟩

end Heap

/-! ### Storing literals -/

/-- A snapshot is that of a literal. -/
inductive Snapshot.IsLiteral : Snapshot → Prop where
  | null : IsLiteral .null
  | bool (b : Bool) : IsLiteral (.bool b)
  | int (i : Int64) : IsLiteral (.int i)
  | str (t : String) : IsLiteral (.str t)
  | list (items : List Snapshot) (all : ∀ v ∈ items, IsLiteral v) : IsLiteral (.list items)

namespace Heap

variable {h h' : Heap} {r : Ref} {s : Snapshot} {p : Payload}

/-- There is room for any number of objects, beside `null` and the truth values. -/
structure Ample (h : Heap) : Prop where
  /-- New objects get vacant slots. -/
  orderly : h.Orderly
  /-- `null` and the truth values have no other Type. -/
  singles : ∀ e ∈ singletonPayloads, ∃ o, h.object? e.1 = some o ∧ o.type = none ∧ o.payload = e.2
  /-- The budget has room. -/
  room : ∀ n, h.HasRoom n

theorem Ample.of_retains (ample : h.Ample) (retains : h.Retains h') (room : ∀ n, h'.HasRoom n) : h'.Ample where
  orderly := retains.orderly ample.orderly
  singles e mem := by
    obtain ⟨o, live, untyped, payload⟩ := ample.singles e mem
    exact ⟨o, retains.adds.kept _ o live, untyped, payload⟩
  room := room

/-- A snapshot is stored as a literal that spells it, with as much room left as there was. -/
def StoresLiteral (h : Heap) (s : Snapshot) : Prop :=
  ∃ r h', s.store h = .ok r h' ∧ h.Retains h' ∧ h'.Ample ∧ h'.Literal r s

theorem exists_storePayload (ample : h.Ample) (p : Payload) :
    ∃ r h', Snapshot.storePayload p h = .ok r h' ∧ h.Retains h' ∧ h'.Ample ∧
      h'.object? r = some (.ofPayload p none) := by
  obtain ⟨r, h', allocated, stores, rooms⟩ :=
    exists_allocate_ok (.ofPayload p none) ample.orderly.objects (ample.room 1)
  have retains : h.Retains h' := ⟨.of_stores stores, stores.scopes⟩
  refine ⟨r, h', ?_, retains, ample.of_retains retains fun n => (rooms n).mpr (ample.room (1 + n)), ?_⟩
  · rw [Snapshot.storePayload, allocated]
  · rw [stores.object?, if_pos rfl]

theorem exists_storeItems {items : List Snapshot} (ample : h.Ample)
    (each : ∀ v ∈ items, ∀ h : Heap, h.Ample → h.StoresLiteral v) :
    ∃ refs h', Snapshot.storeItems items h = .ok refs h' ∧ h.Retains h' ∧ h'.Ample ∧
      List.Forall₂ h'.Literal refs items := by
  induction items generalizing h with
  | nil => exact ⟨[], h, rfl, .refl ample.orderly.objects, ample, .nil⟩
  | cons v later ih =>
    obtain ⟨first, each⟩ := List.forall_mem_cons.mp each
    obtain ⟨r, h₁, stored, retains, ample₁, literal⟩ := first h ample
    obtain ⟨refs, h₂, stored', retains', ample₂, literals⟩ := ih ample₁ each
    refine ⟨r :: refs, h₂, ?_, retains.trans retains', ample₂, .cons (literal.of_adds retains'.adds) literals⟩
    rw [Snapshot.storeItems]
    show EStateM.bind _ _ h = _
    simp only [EStateM.bind, stored]
    show EStateM.bind _ _ h₁ = _
    simp only [EStateM.bind, stored']
    rfl

/-- `null` and the truth values are there. -/
theorem storesLiteral_of_single {e : Ref × Payload} (ample : h.Ample) (mem : e ∈ singletonPayloads)
    (data : e.2.atom? = some s) (stored : s.store h = .ok e.1 h) : h.StoresLiteral s := by
  obtain ⟨o, live, untyped, payload⟩ := ample.singles e mem
  exact ⟨e.1, h, stored, .refl ample.orderly.objects, ample, .atom live untyped (payload ▸ data)⟩

theorem storesLiteral_of_atom (ample : h.Ample) (data : p.atom? = some s) (stores : s.store = Snapshot.storePayload p) :
    h.StoresLiteral s := by
  obtain ⟨r, h', stored, retains, ample', live⟩ := exists_storePayload ample p
  exact ⟨r, h', stores ▸ stored, retains, ample', .atom live rfl data⟩

/-- Literals are what is stored of the snapshots of literals. -/
theorem storesLiteral_of_isLiteral (isLiteral : s.IsLiteral) (ample : h.Ample) : h.StoresLiteral s := by
  induction isLiteral generalizing h with
  | null => exact storesLiteral_of_single (e := (.null, .null)) ample (by decide) rfl rfl
  | bool b =>
    cases b with
    | true => exact storesLiteral_of_single (e := (.yes, .bool true)) ample (by decide) rfl rfl
    | false => exact storesLiteral_of_single (e := (.no, .bool false)) ample (by decide) rfl rfl
  | int i => exact storesLiteral_of_atom (p := .int i) ample rfl rfl
  | str t => exact storesLiteral_of_atom (p := .str t) ample rfl rfl
  | list items _ ih =>
    obtain ⟨refs, h₁, stored, retains, ample₁, literals⟩ := exists_storeItems ample fun v mem h ample => ih v mem ample
    obtain ⟨r, h₂, stored', retains', ample₂, live⟩ := exists_storePayload ample₁ (.list refs.toArray)
    refine ⟨r, h₂, ?_, retains.trans retains', ample₂, .of_items live rfl rfl ?_⟩
    · rw [Snapshot.store]
      show EStateM.bind _ _ h = _
      simp only [EStateM.bind, stored, stored']
    · exact literals.imp fun q v literal => literal.of_adds retains'.adds

/-- There is room for any number of objects if the budget does not limit them. -/
theorem ample_withBudget {budget : Budget} (orderly : h.Orderly) (singles : h.HasSingles)
    (room : ∀ n, budget.HasRoom n) : (h.withBudget budget).Ample where
  orderly := orderly.withBudget budget
  singles _ mem := singles.exists_object orderly mem
  room := room

end Heap

/-- The literals that a host stores one after another are there in the end. -/
theorem Machine.exists_literals_of_stores {m : Machine} {values : List Snapshot} (ample : m.heap.Ample)
    (all : ∀ s ∈ values, s.IsLiteral) :
    ∃ refs, List.Forall₂ (m.afterSession (values.map .store)).heap.Literal refs values := by
  induction values generalizing m with
  | nil => exact ⟨[], .nil⟩
  | cons s later ih =>
    obtain ⟨isLiteral, all⟩ := List.forall_mem_cons.mp all
    obtain ⟨r, h', stored, -, ample', literal⟩ := Heap.storesLiteral_of_isLiteral isLiteral ample
    have heap : (HostAction.perform m (.store s)).heap = h' := by
      rw [HostAction.perform, heap_store, stored]
      rfl
    rw [← heap] at ample' literal
    obtain ⟨refs, literals⟩ := ih ample' all
    exact ⟨r :: refs, .cons (literal.of_adds (retains_of_stores ample'.orderly later).adds) literals⟩

end ObjectMachine
