import ObjectMachine.Assembler
import ObjectMachine.Proofs.Caution.Run
/-!
Kind agreement throughout a session. From the start of a machine on, all objects fit their Types in every
heap, exactly as long as no object is created with a given Type that it does not fit; and as long as that
is so, nothing finds data of another kind than it reads. A constructor of lists that is asked for a text
creates an object that does not fit.
-/
namespace ObjectMachine.Machine

theorem objects_withBudget (h : Heap) (budget : Budget) : (h.withBudget budget).objects = h.objects :=
  rfl

theorem heap_boot (budget : Budget) (tracer : Tracer) :
    (boot budget tracer).heap = Heap.boot.withBudget budget := by
  simp only [boot]

theorem sound_boot (budget : Budget) (tracer : Tracer) : (boot budget tracer).heap.Sound := by
  rw [heap_boot]
  exact Heap.sound_boot.of_objects_eq (objects_withBudget Heap.boot budget)

/-- While all objects fit that are created, a session goes through no moment that lacks data. -/
theorem not_lacksData_session (m : Machine) (actions : List HostAction) (sound : m.heap.Sound)
    (fits : ∀ moment ∈ m.sessionHistory actions, ¬ moment.Misfit Heap.collectionDue) :
    ∀ moment ∈ m.sessionHistory actions, ¬ moment.LacksData := by
  induction actions generalizing m with
  | nil =>
    intro moment mem
    cases mem
  | cons a later ih =>
    simp only [sessionHistory, List.mem_append] at fits ⊢
    have now : (∀ moment ∈ a.history m, ¬ moment.LacksData) ∧ (a.perform m).heap.Sound := by
      cases a with
      | request printer r =>
        obtain ⟨moments, ends⟩ := r.careful_computation m.globals Heap.collectionDue []
          (m.startRequest printer) sound trivial fun moment mem => fits moment (.inl mem)
        refine ⟨moments, ?_⟩
        rw [HostAction.perform, heap_serve]
        exact ends.sound
      | _ =>
        refine ⟨List.forall_mem_nil _, ?_⟩
        exact invariant_perform Heap.sound_survivesHost Heap.sound_survivesEnds m _ sound
          (List.forall_mem_nil _)
    rintro moment (mem | mem)
    · exact now.1 moment mem
    · exact ih (a.perform m) now.2 (fun moment mem => fits moment (.inr mem)) moment mem

/-- From the start of a machine on, whatever the host does and whatever code it runs: all objects fit
their Types in every heap exactly if no object is created with a given Type that it does not fit, and
then every function finds the data that it reads, once its arguments were accepted. -/
theorem kinds_agree_iff (budget : Budget) (tracer : Tracer) (actions : List HostAction) :
    ((∀ h ∈ (boot budget tracer).sessionHeaps actions, h.KindsAgree) ↔
      ∀ moment ∈ (boot budget tracer).sessionHistory actions, ¬ moment.Misfit Heap.collectionDue) ∧
    ((∃ moment ∈ (boot budget tracer).sessionHistory actions, moment.LacksData) →
      ∃ moment ∈ (boot budget tracer).sessionHistory actions, moment.Misfit Heap.collectionDue) := by
  have sound := sound_boot budget tracer
  refine ⟨⟨?_, ?_⟩, ?_⟩
  · intro agree
    have fits {moment : Moment} (mem : moment ∈ (boot budget tracer).sessionHistory actions)
        (agrees : moment.machine.heap.Agrees) : ¬ moment.Misfit Heap.collectionDue :=
      moment.not_misfit agrees (agree _ (heapAfter_mem_sessionHeaps mem))
    have all := invariant_session Heap.agrees_survivesHost Heap.agrees_survivesEnds
      (boot budget tracer) actions sound.agrees fun moment mem agrees =>
        moment.keeps_agrees (fits mem agrees) agrees
    exact fun moment mem => fits mem (all.2 moment mem)
  · intro fits
    have all := invariant_session Heap.agrees_survivesHost Heap.agrees_survivesEnds
      (boot budget tracer) actions sound.agrees fun moment mem => moment.keeps_agrees (fits moment mem)
    exact fun h mem => (all.1 h mem).kinds
  · rintro ⟨moment, mem, lacks⟩
    by_contra fits
    push Not at fits
    exact not_lacksData_session _ actions sound fits moment mem lacks

/-- While a host stores a list and names it, all objects fit their Types. -/
theorem kinds_agree_named_list :
    (∀ h ∈ (boot .unlimited .silent).sessionHeaps [.store (.list [.str "a"]), .define "l" .null],
      h.KindsAgree) ∧
    ¬ ∃ moment ∈ (boot .unlimited .silent).sessionHistory
      [.store (.list [.str "a"]), .define "l" .null], moment.LacksData := by
  obtain ⟨agree, lacks⟩ := kinds_agree_iff .unlimited .silent
    [.store (.list [.str "a"]), .define "l" .null]
  refine ⟨agree.mpr (List.forall_mem_nil _), ?_⟩
  rintro ⟨moment, mem, -⟩
  cases mem

/-- A program that asks the constructor of lists for a text. -/
def listForTexts : Code := assemble
  [.get "list", .op (.getMember "create"), .get "string", .op (.call 1), .define "v",
  .get "v", .get "isinstance", .get "v", .get "string", .op (.call 2), .op (.buildList 2),
  .op .returnValue]

/-- The constructor of lists makes a list for any Type that it is asked for: one made for the Type of
texts passes as a text. -/
theorem list_passes_as_text :
    let actions := [HostAction.request (.collecting "") (.run listForTexts)]
    let m := (boot .unlimited .silent).afterSession actions
    ∃ v r, m.getGlobal? "v" = some v ∧ m.heap.payload? v = some (.list #[]) ∧
      ((boot .unlimited .silent).serve (.collecting "") (.run listForTexts)).1.toOption = some r ∧
      m.heap.payload? r = some (.list #[v, .yes]) ∧
      ¬ ∀ h ∈ (boot .unlimited .silent).sessionHeaps actions, h.KindsAgree := by
  intro actions m
  have named : (m.getGlobal? "v").bind m.heap.object? =
      some (.ofPayload (.list #[]) (some Kind.string.ref)) := by
    decide +kernel
  have returned :
      (((boot .unlimited .silent).serve (.collecting "") (.run listForTexts)).1.toOption).bind
          m.heap.payload? = (m.getGlobal? "v").map fun v => .list #[v, .yes] := by
    decide +kernel
  have texts : (m.heap.typeInfo? Kind.string.ref).map TypeInfo.mro =
      some (Kind.string.lineage.map Kind.ref) := by
    decide +kernel
  obtain ⟨v, atV, object⟩ := Option.bind_eq_some_iff.mp named
  rw [atV] at returned
  obtain ⟨r, served, list⟩ := Option.bind_eq_some_iff.mp returned
  refine ⟨v, r, atV, by rw [Heap.payload?, object]; rfl, served, list, ?_⟩
  intro agree
  have kinds := agree _ (heap_afterSession_mem_sessionHeaps _ actions)
  -- The ancestors of the list's Type hold that of texts, but the list is no text.
  obtain ⟨info, type, -, fits⟩ := kinds v _ object
  have mro : info.mro = Kind.string.lineage.map Kind.ref := by
    rw [show m.heap.typeInfo? Kind.string.ref = some info from type] at texts
    exact Option.some_inj.mp texts
  exact absurd (fits .string (by decide) (mro ▸ List.mem_cons_self)) (by decide)

end ObjectMachine.Machine
