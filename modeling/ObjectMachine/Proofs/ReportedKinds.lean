import ObjectMachine.Proofs.Ancestry
/-!
What a host learns about the kind of an error. Programs test an error by the ancestors of its Type, and for
built-in kinds by the list of the kinds that they refine; both tests agree throughout a session. A report
names only the nearest built-in ancestor, and tests by what that one refines. So it never claims a kind that
programs would deny, but it knows all of them only if the built-in ancestors refine one another in a row.
-/
namespace ObjectMachine

namespace ErrorKind

variable {k k' own : ErrorKind}

theorem ref_injective {k k' : ErrorKind} (same : k.ref = k'.ref) : k = k' := by
  cases k <;> cases k' <;> first | rfl | exact absurd same (by decide)

theorem ofRef?_eq_some_iff {r : Ref} : ofRef? r = some k ↔ k.ref = r := by
  constructor
  · intro found
    simpa using List.find?_some found
  · rintro rfl
    cases k <;> decide

theorem self_mem_lineage (k : ErrorKind) : k ∈ k.lineage := by
  cases k <;> decide

theorem error_mem_lineage (k : ErrorKind) : error ∈ k.lineage := by
  cases k <;> decide

theorem isSubkindOf_iff : own.isSubkindOf k ↔ k ∈ own.lineage := by
  rw [isSubkindOf, List.contains_iff_mem]

/-- Of any two kinds that one kind refines, one refines the other. -/
theorem row_of_lineage (mem : k ∈ own.lineage) (mem' : k' ∈ own.lineage) :
    k.isSubkindOf k' ∨ k'.isSubkindOf k := by
  have rows : ∀ own ∈ all, ∀ k ∈ own.lineage, ∀ k' ∈ own.lineage,
      k.isSubkindOf k' ∨ k'.isSubkindOf k := by
    decide
  exact rows own own.mem_all k mem k' mem'

/-- A kind and another that it refines stand in this order in its lineage. -/
theorem pair_sublist_lineage (refines : k' ∈ k.lineage) (other : k ≠ k') : [k, k'].Sublist k.lineage := by
  have starts : ∃ rest, k.lineage = k :: rest := by
    cases k <;> exact ⟨_, rfl⟩
  obtain ⟨rest, lineage⟩ := starts
  rw [lineage] at refines ⊢
  have behind : k' ∈ rest := (List.mem_cons.mp refines).resolve_left (Ne.symm other)
  exact (List.singleton_sublist.mpr behind).cons_cons k

end ErrorKind

/-! ### The kinds among some ancestors -/

/-- Kinds of error that stand among the ancestors of a Type: none twice, and each with the kinds that it
refines in their order. -/
structure ErrorKind.Closed (kinds : List ErrorKind) : Prop where
  /-- No kind is named twice. -/
  nodup : kinds.Nodup
  /-- The kinds that a kind refines follow it. -/
  lineage : ∀ k ∈ kinds, k.lineage.Sublist kinds

namespace ErrorKind.Closed

variable {kinds : List ErrorKind} {k own : ErrorKind}

theorem empty : Closed [] := ⟨.nil, List.forall_mem_nil _⟩

theorem mem_of_refines (closed : Closed kinds) (mem : own ∈ kinds) (refines : own.isSubkindOf k) :
    k ∈ kinds :=
  (closed.lineage own mem).subset (isSubkindOf_iff.mp refines)

/-- Nothing but the first kind itself is refined by others to the first one. -/
theorem eq_of_refines_head (closed : Closed kinds) (first : kinds.head? = some own) (mem : k ∈ kinds)
    (refines : k.isSubkindOf own) : k = own := by
  by_contra other
  obtain ⟨rest, rfl⟩ := List.head?_eq_some_iff.mp first
  have fresh : own ∉ rest := (List.nodup_cons.mp closed.nodup).1
  -- the kind would stand before the first one
  have pair : [k, own].Sublist (own :: rest) :=
    (pair_sublist_lineage (isSubkindOf_iff.mp refines) other).trans (closed.lineage k mem)
  cases pair with
  | cons _ within => exact fresh (within.subset (List.mem_cons_of_mem k List.mem_cons_self))
  | cons_cons _ within => exact other rfl

/-- The first kind refines all others exactly if of any two kinds one refines the other. -/
theorem head_refines_iff (closed : Closed kinds) (first : kinds.head? = some own) :
    (∀ k ∈ kinds, own.isSubkindOf k) ↔
      ∀ k ∈ kinds, ∀ k' ∈ kinds, k.isSubkindOf k' ∨ k'.isSubkindOf k := by
  have mem : own ∈ kinds := List.mem_of_head? first
  constructor
  · intro all k memK k' memK'
    exact row_of_lineage (isSubkindOf_iff.mp (all k memK)) (isSubkindOf_iff.mp (all k' memK'))
  · intro chain k memK
    rcases chain own mem k memK with up | down
    · exact up
    · rw [closed.eq_of_refines_head first memK down, isSubkindOf_iff]
      exact own.self_mem_lineage

end ErrorKind.Closed

namespace Heap

variable {h h' : Heap} {T : Ref} {k : ErrorKind}

/-- The built-in kinds of error among the ancestors of a Type, nearest first. -/
def errorKinds (h : Heap) (T : Ref) : List ErrorKind := (h.mro T).filterMap ErrorKind.ofRef?

theorem mem_filterMap_ofRef? {order : List Ref} : k ∈ order.filterMap ErrorKind.ofRef? ↔ k.ref ∈ order := by
  simp only [List.mem_filterMap, ErrorKind.ofRef?_eq_some_iff, exists_eq_right']

theorem mem_errorKinds : k ∈ h.errorKinds T ↔ k.ref ∈ h.mro T := mem_filterMap_ofRef?

theorem filterMap_ofRef?_map (kinds : List ErrorKind) :
    (kinds.map ErrorKind.ref).filterMap ErrorKind.ofRef? = kinds := by
  rw [List.filterMap_map]
  have inverse : ErrorKind.ofRef? ∘ ErrorKind.ref = some := by
    funext k
    exact ErrorKind.ofRef?_eq_some_iff.mpr rfl
  rw [inverse, List.filterMap_some]

/-- The nearest built-in kind comes first. -/
theorem nearestKind?_custom (h : Heap) (T : Ref) :
    (ErrorType.custom T).nearestKind? h = (h.errorKinds T).head? := by
  rw [errorKinds, List.head?_filterMap]
  rfl

/-! ### The Types of built-in kinds -/

/-- The built-in Types are as they were at the start. -/
def BuiltinsStand (h : Heap) : Prop := ∀ r ∈ builtinTypeRefs, h.typeInfo? r = boot.typeInfo? r

/-- Every step leaves the built-in Types as they are: they are permanent roots. -/
theorem BuiltinsStand.step (stand : h.BuiltinsStand) (step : h.Step h') (w : h.objects.WellFormed) :
    h'.BuiltinsStand := by
  intro r mem
  obtain ⟨info, atStart⟩ := isSome_boot_typeInfo? mem
  have found : h.payload? r = some (.type info) :=
    typeInfo?_eq_some_iff.mp ((stand r mem).trans atStart)
  have kept := step.payload? w (Payload.constant_type info) found
  have permanent : .object r ∈ permanentRoots := mem_permanentRoots_of_type mem
  rw [atStart, typeInfo?_eq_some_iff]
  exact kept.resolve_right fun gone => gone.2 permanent

/-- The Types depend on the objects alone. -/
theorem BuiltinsStand.withBudget (stand : h.BuiltinsStand) (budget : Budget) :
    (h.withBudget budget).BuiltinsStand :=
  stand

theorem builtinsStand_boot : boot.BuiltinsStand := fun _ _ => rfl

theorem BuiltinsStand.mro_error (stand : h.BuiltinsStand) (k : ErrorKind) :
    h.mro k.ref = k.lineage.map ErrorKind.ref ++ [Kind.object.ref] := by
  rw [mro, stand _ k.ref_mem_builtinTypeRefs, mro_boot_error, Option.getD_some]

theorem BuiltinsStand.errorKinds_ref (stand : h.BuiltinsStand) (k : ErrorKind) :
    h.errorKinds k.ref = k.lineage := by
  have root : ErrorKind.ofRef? Kind.object.ref = none := by decide
  rw [errorKinds, stand.mro_error, List.filterMap_append, filterMap_ofRef?_map]
  simp [root]

/-- A Type is a subtype of that of a built-in kind if the kind is among its ancestors. -/
theorem BuiltinsStand.isSubtype_iff (stand : h.BuiltinsStand) :
    h.isSubtype T k.ref ↔ k ∈ h.errorKinds T := by
  rw [isSubtype, Bool.or_eq_true, beq_iff_eq, List.contains_iff_mem, mem_errorKinds,
    or_iff_right_iff_imp]
  rintro rfl
  rw [← mem_errorKinds, stand.errorKinds_ref]
  exact k.self_mem_lineage

/-- What programs ask of an error in flight is whether its Type is a subtype. -/
theorem BuiltinsStand.errorIs_eq (stand : h.BuiltinsStand) (e : ErrorBody) (k : ErrorKind) :
    h.errorIs e k = h.isSubtype e.typeRef k.ref := by
  rw [errorIs, ErrorBody.typeRef]
  cases e.type with
  | custom T => rfl
  | builtin own =>
    rw [Bool.eq_iff_iff, stand.isSubtype_iff, stand.errorKinds_ref, ErrorKind.isSubkindOf_iff]

/-! ### All Types -/

/-- The built-in kinds of error among the ancestors of every Type are closed. -/
def KindsClosed (h : Heap) : Prop := ∀ T, ErrorKind.Closed (h.errorKinds T)

/-- The kinds among the ancestors of a new Type are those of its parents, in order. -/
theorem closed_of_linearize {parents order : List Ref} (closed : h.KindsClosed) (stand : h.BuiltinsStand)
    (own : ErrorKind.ofRef? T = none) (some : parents ≠ [])
    (linear : Lineage.linearize T parents h.mro = .ok order) :
    ErrorKind.Closed (order.filterMap ErrorKind.ofRef?) := by
  obtain ⟨rest, rfl, merged⟩ :=
    Lineage.exists_of_linearize (Lineage.not_mem_of_linearize some linear) linear
  obtain ⟨nodup, covers, keeps, -⟩ := Lineage.merge_eq_ok (Nat.lt_succ_self _) merged
  rw [List.filterMap_cons_none own]
  refine ⟨nodup.filterMap ?_, fun k mem => ?_⟩
  · intro r r' k here here'
    rw [Option.mem_def, ErrorKind.ofRef?_eq_some_iff] at here here'
    exact here.symm.trans here'
  · -- the kind comes from the ancestors of some parent, or is a parent
    have listed := (covers k.ref).mp (mem_filterMap_ofRef?.mp mem)
    obtain ⟨given, isGiven, inGiven⟩ := List.mem_flatten.mp listed
    have inherits {P : Ref} (isParent : P ∈ parents) (ancestor : k ∈ h.errorKinds P) :
        k.lineage.Sublist (rest.filterMap ErrorKind.ofRef?) := by
      have kept : (h.mro P).Sublist rest :=
        keeps _ (List.mem_append_left _ (List.mem_map_of_mem isParent))
      exact ((closed P).lineage k ancestor).trans (kept.filterMap _)
    rcases List.mem_append.mp isGiven with inherited | parent
    · obtain ⟨P, isParent, rfl⟩ := List.mem_map.mp inherited
      exact inherits isParent (mem_errorKinds.mpr inGiven)
    · rw [List.mem_singleton.mp parent] at inGiven
      refine inherits inGiven ?_
      rw [stand.errorKinds_ref]
      exact k.self_mem_lineage

theorem KindsClosed.retyped (closed : h.KindsClosed) (stand : h.BuiltinsStand) (retypes : h.Retypes h') :
    h'.KindsClosed := by
  intro T
  have kept (same : h'.typeInfo? T = h.typeInfo? T) : ErrorKind.Closed (h'.errorKinds T) := by
    rw [errorKinds, mro_congr same]
    exact closed T
  cases retypes with
  | same types => exact kept (types T)
  | new T₁ info vacant types ancestors =>
    by_cases new : T = T₁
    · subst new
      have found : h'.typeInfo? T = some info := by rw [types, if_pos rfl]
      -- the slot was vacant, so it is that of no built-in Type
      have own : ErrorKind.ofRef? T = none := by
        rw [Option.eq_none_iff_forall_ne_some]
        intro k isRef
        have none := mro_of_typeInfo?_none (typeInfo?_of_vacant vacant)
        rw [← ErrorKind.ofRef?_eq_some_iff.mp isRef, stand.mro_error] at none
        exact absurd none (by simp)
      rw [errorKinds, mro_of_typeInfo? found]
      rcases ancestors with ⟨-, none⟩ | ⟨some, linear⟩
      · rw [none]
        exact .empty
      · exact closed_of_linearize closed stand own some linear
    · exact kept ((types T).trans (if_neg new))
  | fewer types =>
    cases found : h'.typeInfo? T with
    | none =>
      rw [errorKinds, mro_of_typeInfo?_none found]
      exact .empty
    | some info => exact kept (found.trans (types T info found).symm)

theorem kindsClosed_boot : boot.KindsClosed := by
  have all : (List.range boot.objects.size).all fun i =>
      let kinds := boot.errorKinds ⟨i⟩
      decide kinds.Nodup && kinds.all fun k => k.lineage.isSublist kinds := by
    decide +kernel
  intro T
  by_cases proper : boot.mro T = []
  · rw [errorKinds, proper]
    exact .empty
  · obtain ⟨info, found, -⟩ := exists_typeInfo?_of_mro proper
    obtain ⟨o, at_T, -⟩ := exists_object_of_typeInfo? found
    have check := List.all_eq_true.mp all T.slot (List.mem_range.mpr (Arena.lt_size_of_get? at_T))
    simp only [Bool.and_eq_true, decide_eq_true_eq, List.all_eq_true, List.isSublist_iff_sublist] at check
    exact ⟨check.1, check.2⟩

theorem KindsClosed.withBudget (closed : h.KindsClosed) (budget : Budget) :
    (h.withBudget budget).KindsClosed :=
  closed

end Heap

/-! ### Reports -/

namespace Machine

variable {budget : Budget} {tracer : Tracer} {actions : List HostAction} {h : Heap}

theorem builtinsStand_of_mem_passage (mem : h ∈ (boot budget tracer).passage actions) :
    h.BuiltinsStand := by
  refine (boot budget tracer).invariant_passage actions ?_ (fun h mem _ _ step stand => ?_) h mem
  · rw [heap_boot]
    exact Heap.builtinsStand_boot.withBudget budget
  · exact stand.step step (orderly_of_mem_passage mem).objects

theorem kindsClosed_of_mem_passage (mem : h ∈ (boot budget tracer).passage actions) : h.KindsClosed := by
  refine (boot budget tracer).invariant_passage actions ?_ (fun h mem _ _ step closed => ?_) h mem
  · rw [heap_boot]
    exact Heap.kindsClosed_boot.withBudget budget
  · exact closed.retyped (builtinsStand_of_mem_passage mem)
      (step.retypes (orderly_of_mem_passage mem).objects)

end Machine

namespace Heap

variable {h : Heap} {e : Raised} {r : Report}

/-- The kind that a report names is the nearest one of the Type of the error. -/
theorem kind_of_report? (stand : h.BuiltinsStand) (reported : e.report? h = some r) :
    r.kind = (h.errorKinds e.typeRef).head? := by
  simp only [Raised.report?, ErrorBody.report?, Option.bind_eq_bind, Option.bind_eq_some_iff,
    Option.pure_def, Option.some_inj] at reported
  obtain ⟨body, ⟨trace, -, rfl⟩, causes, -, rfl⟩ := reported
  show e.type.nearestKind? h = _
  rw [ErrorBody.typeRef]
  cases e.type with
  | custom T => exact h.nearestKind?_custom T
  | builtin own =>
    rw [stand.errorKinds_ref]
    cases own <;> rfl

/-- A report says that an error is of a kind if the nearest kind of its Type is one that refines it. -/
theorem isKind_iff (stand : h.BuiltinsStand) (reported : e.report? h = some r) (k : ErrorKind) :
    r.isKind k ↔ ∃ own, (h.errorKinds e.typeRef).head? = some own ∧ own.isSubkindOf k := by
  rw [Report.isKind, kind_of_report? stand reported]
  cases (h.errorKinds e.typeRef).head? <;> simp

/-- A report knows the kinds that programs know if these refine one another in a row. -/
theorem isKind_agrees_iff (closed : h.KindsClosed) (stand : h.BuiltinsStand)
    (reported : e.report? h = some r) :
    (∀ k, r.isKind k ↔ h.isSubtype e.typeRef k.ref) ↔
      ∀ k k' : ErrorKind, h.isSubtype e.typeRef k.ref → h.isSubtype e.typeRef k'.ref →
        k.isSubkindOf k' ∨ k'.isSubkindOf k := by
  simp only [isKind_iff stand reported, stand.isSubtype_iff]
  cases first : (h.errorKinds e.typeRef).head? with
  | none =>
    have none : h.errorKinds e.typeRef = [] := List.head?_eq_none_iff.mp first
    simp [none]
  | some own =>
    have chain := (closed e.typeRef).head_refines_iff first
    have mem : own ∈ h.errorKinds e.typeRef := List.mem_of_head? first
    constructor
    · intro agree k k' memK memK'
      refine chain.mp (fun k memK => ?_) k memK k' memK'
      obtain ⟨_, ⟨⟩, refines⟩ := (agree k).mpr memK
      exact refines
    · intro row k
      constructor
      · rintro ⟨_, ⟨⟩, refines⟩
        exact (closed e.typeRef).mem_of_refines mem refines
      · intro memK
        exact ⟨own, rfl, chain.mpr (fun k memK k' memK' => row k k' memK memK') k memK⟩

end Heap

/-- An error that programs can catch escapes to the host from a request on a machine. -/
def Request.Escapes (r : Request) (m : Machine) (printer : Printer) (e : Raised) (m' : Machine) : Prop :=
  (r.computation m.globals).run (m.startRequest printer) = .error (.raised e) m'

namespace Machine

variable {budget : Budget} {tracer : Tracer} {actions : List HostAction}

/-- The heap that an escaped error leaves behind is one of the session. -/
theorem mem_passage_of_escapes {m' : Machine} {r : Request} {printer : Printer} {e : Raised} {m : Machine}
    (escapes : r.Escapes (m.afterSession actions) printer e m') :
    m'.heap ∈ m.passage (actions ++ [.request printer r]) := by
  have last : (m.afterSession (actions ++ [.request printer r])).heap = m'.heap := by
    rw [afterSession, List.foldl_append, ← afterSession]
    show ((m.afterSession actions).serve printer r).2.heap = m'.heap
    rw [heap_serve]
    exact congrArg (fun outcome => outcome.machine.heap) escapes
  exact last ▸ m.heap_afterSession_mem_passage _

/-- Whatever Types of errors a session defines: programs test an escaped error for a built-in kind by the
ancestors of its Type; what its report says of its kind, programs would say too; and the report says all
that programs would exactly if of any two built-in kinds among the ancestors one refines the other. -/
theorem reported_kinds_iff (budget : Budget) (tracer : Tracer) (actions : List HostAction)
    (printer : Printer) (request : Request) {e : Raised} {m : Machine} {report : Report}
    (escapes : request.Escapes ((boot budget tracer).afterSession actions) printer e m)
    (reported : e.report? m.heap = some report) :
    (∀ k, m.heap.errorIs e.toErrorBody k = m.heap.isSubtype e.typeRef k.ref) ∧
    (∀ k, report.isKind k → m.heap.isSubtype e.typeRef k.ref) ∧
    (∀ own, report.kind = some own → report.isKind own ∧ m.heap.isSubtype e.typeRef own.ref) ∧
    (report.kind.isSome ↔ m.heap.isSubtype e.typeRef ErrorKind.error.ref) ∧
    ((∀ k, report.isKind k ↔ m.heap.isSubtype e.typeRef k.ref) ↔
      ∀ k k' : ErrorKind, m.heap.isSubtype e.typeRef k.ref → m.heap.isSubtype e.typeRef k'.ref →
        k.isSubkindOf k' ∨ k'.isSubkindOf k) := by
  have mem := mem_passage_of_escapes escapes
  have stand := builtinsStand_of_mem_passage mem
  have closed := kindsClosed_of_mem_passage mem e.typeRef
  have kind := Heap.kind_of_report? stand reported
  have sound (k : ErrorKind) (is : report.isKind k) : m.heap.isSubtype e.typeRef k.ref := by
    obtain ⟨own, first, refines⟩ := (Heap.isKind_iff stand reported k).mp is
    exact stand.isSubtype_iff.mpr (closed.mem_of_refines (List.mem_of_head? first) refines)
  have named (own : ErrorKind) (names : report.kind = some own) : report.isKind own := by
    rw [Report.isKind, names]
    exact ErrorKind.isSubkindOf_iff.mpr own.self_mem_lineage
  refine ⟨stand.errorIs_eq e.toErrorBody, sound, fun own names => ⟨named own names, sound own (named own names)⟩,
    ?_, Heap.isKind_agrees_iff (kindsClosed_of_mem_passage mem) stand reported⟩
  rw [kind, stand.isSubtype_iff, List.isSome_head?]
  constructor
  · intro some
    obtain ⟨own, ownMem⟩ := List.exists_mem_of_ne_nil _ some
    exact closed.mem_of_refines ownMem (ErrorKind.isSubkindOf_iff.mpr own.error_mem_lineage)
  · exact List.ne_nil_of_mem

/-- A program that makes a Type of errors from two Types of errors and throws an instance. -/
def throwsChild (first second : String) : Code := assemble
  [.get first, .get second, .typeDef "E" 2 [], .define "E", .get "E", .str "x", .op (.call 1),
  .op .throwValue]

/-- What escapes from a request on a fresh machine, with its report, if something of interest is so. -/
theorem exists_escape (r : Request) (of : Heap → Raised → Report → Bool)
    (outcome : (match (r.computation .globals).run ((boot .unlimited .silent).startRequest .discarding) with
      | .error (.raised e) m => (e.report? m.heap).any (of m.heap e)
      | _ => false) = true) :
    ∃ e m report, r.Escapes (boot .unlimited .silent) .discarding e m ∧ e.report? m.heap = some report ∧
      of m.heap e report := by
  split at outcome
  · rename_i e m ran
    obtain ⟨report, reported, here⟩ := (Option.any_eq_true _ _).mp outcome
    exact ⟨e, m, report, ran, reported, here⟩
  · cases outcome

/-- Errors whose Type refines two kinds in a row are of the same kinds for a host as for programs. -/
theorem reported_kinds_in_a_row :
    ∃ e m report, (Request.run (throwsChild "NullError" "AttributeError")).Escapes
        ((boot .unlimited .silent).afterSession []) .discarding e m ∧
      e.report? m.heap = some report ∧ report.kind = some .nullError ∧
      ∀ k, report.isKind k ↔ m.heap.isSubtype e.typeRef k.ref := by
  obtain ⟨e, m, report, escapes, reported, here⟩ :=
    exists_escape (.run (throwsChild "NullError" "AttributeError"))
      (fun h e report => report.kind == some .nullError &&
        h.errorKinds e.typeRef == ErrorKind.lineage .nullError)
      (by decide +kernel)
  simp only [Bool.and_eq_true, beq_iff_eq] at here
  refine ⟨e, m, report, escapes, reported, here.1, ?_⟩
  obtain ⟨-, -, -, -, agrees⟩ :=
    reported_kinds_iff .unlimited .silent [] .discarding _ escapes reported
  have mem : m.heap ∈ (boot .unlimited .silent).passage ([] ++ [.request .discarding _]) :=
    mem_passage_of_escapes escapes
  have stand := builtinsStand_of_mem_passage mem
  refine agrees.mpr fun k k' => ?_
  rw [stand.isSubtype_iff, stand.isSubtype_iff, here.2]
  exact ErrorKind.row_of_lineage

/-- Errors whose Type refines two kinds that do not refine one another are of one of them only for a host:
programs would say that the error is a `ValueError`, and the report denies it. -/
theorem second_kind_unreported :
    ∃ e m report, (Request.run (throwsChild "TypeError" "ValueError")).Escapes
        (boot .unlimited .silent) .discarding e m ∧
      e.report? m.heap = some report ∧ report.kind = some .typeError ∧
      m.heap.errorIs e.toErrorBody .valueError ∧ m.heap.isSubtype e.typeRef ErrorKind.valueError.ref ∧
      ¬ report.isKind .valueError := by
  obtain ⟨e, m, report, escapes, reported, here⟩ :=
    exists_escape (.run (throwsChild "TypeError" "ValueError"))
      (fun h e report => report.kind == some .typeError && h.errorIs e.toErrorBody .valueError &&
        h.isSubtype e.typeRef ErrorKind.valueError.ref && !report.isKind .valueError)
      (by decide +kernel)
  simp only [Bool.and_eq_true, beq_iff_eq, Bool.not_eq_true'] at here
  obtain ⟨⟨⟨kind, is⟩, sub⟩, denied⟩ := here
  exact ⟨e, m, report, escapes, reported, kind, is, sub, by simp [denied]⟩

end Machine

end ObjectMachine
