import ObjectMachine.Proofs.RoundTrip
/-!
The members of the built-in Types. At the start they are the functions that were declared, and a function stays as
it is as long as a built-in Type holds it, because such a Type is kept whatever the roots are. So a Type has the
member that was declared for it until this member is replaced.
-/
namespace ObjectMachine

/-! ### What was declared -/

/-- A parameter is as it was declared. -/
structure DeclaredParam.Makes (d : DeclaredParam) (p : Param) : Prop where
  /-- The name. -/
  name : p.name = d.name
  /-- The Type of the kind. -/
  type : p.type = d.type.map Kind.ref
  /-- Whether there is a default. -/
  default : p.default.isSome = d.default.isSome
  /-- Whether it collects. -/
  rest : p.rest = d.rest

/-- A function is as it was declared. -/
structure Declaration.Makes (d : Declaration) (f : Function) : Prop where
  /-- The name. -/
  name : f.name = d.name
  /-- The parameters. -/
  params : List.Forall₂ DeclaredParam.Makes d.params f.signature.params
  /-- What it does. -/
  body : f.body = .native d.native
  /-- No argument is bound. -/
  bound : f.bound = []

instance (d : DeclaredParam) (p : Param) : Decidable (d.Makes p) :=
  decidable_of_iff
    (p.name = d.name ∧ p.type = d.type.map Kind.ref ∧ p.default.isSome = d.default.isSome ∧ p.rest = d.rest)
    ⟨fun ⟨name, type, default, rest⟩ => ⟨name, type, default, rest⟩,
      fun ⟨name, type, default, rest⟩ => ⟨name, type, default, rest⟩⟩

instance (d : Declaration) (f : Function) : Decidable (d.Makes f) :=
  decidable_of_iff (f.name = d.name ∧ List.Forall₂ DeclaredParam.Makes d.params f.signature.params ∧
      f.body = .native d.native ∧ f.bound = [])
    ⟨fun ⟨name, params, body, bound⟩ => ⟨name, params, body, bound⟩,
      fun ⟨name, params, body, bound⟩ => ⟨name, params, body, bound⟩⟩

namespace Heap

variable {h h' : Heap} {type method : Ref} {d : Declaration} {k : Kind}

/-- A Type has the member that was declared for it. -/
def Furnished (h : Heap) (type : Ref) (d : Declaration) : Prop :=
  ∃ method, h.ownMember? type d.name = some method ∧ ∃ f, h.payload? method = some (.function f) ∧ d.Makes f

/-- Whether an object is the function that was declared. -/
def isMade (h : Heap) (d : Declaration) (method : Ref) : Bool :=
  match h.payload? method with
  | some (.function f) => d.Makes f
  | _ => false

theorem isMade_iff : h.isMade d method ↔ ∃ f, h.payload? method = some (.function f) ∧ d.Makes f := by
  rw [isMade]
  split
  · simp_all
  · rename_i other
    exact iff_of_false Bool.false_ne_true fun ⟨f, function, _⟩ => other f function

instance (h : Heap) (type : Ref) (d : Declaration) : Decidable (h.Furnished type d) :=
  decidable_of_iff ((h.ownMember? type d.name).any (h.isMade d)) <| by
    simp only [Option.any_eq_true, isMade_iff, Furnished]

theorem ownMember?_of_adds {name : String} (adds : h.Adds h')
    (member : h.ownMember? type name = some method) : h'.ownMember? type name = some method := by
  obtain ⟨o, live, own⟩ := Option.bind_eq_some_iff.mp member
  exact Option.bind_eq_some_iff.mpr ⟨o, adds.kept _ _ live, own⟩

theorem Furnished.of_adds (furnished : h.Furnished type d) (adds : h.Adds h') : h'.Furnished type d := by
  obtain ⟨method, member, f, function, makes⟩ := furnished
  exact ⟨method, ownMember?_of_adds adds member, f, adds.payload? function, makes⟩

/-! ### How members stay -/

/-- A member that was declared stays in a step that leaves the Type with the same member. -/
theorem Furnished.step (furnished : h.Furnished k.ref d) (step : h.Step h') (w : h.objects.WellFormed)
    (same : h'.ownMember? k.ref d.name = h.ownMember? k.ref d.name) : h'.Furnished k.ref d := by
  obtain ⟨method, member, f, function, makes⟩ := furnished
  refine ⟨method, same.trans member, f, ?_, makes⟩
  have constant : (Payload.function f).Constant := fun c => by cases c <;> rfl
  rcases step.payload?_or_collect w constant function with kept | ⟨roots, -, unmarked⟩
  · exact kept
  · -- a collection reaches the function from the Type
    obtain ⟨type, live, own⟩ := Option.bind_eq_some_iff.mp member
    have refers : h.RefersTo (.object k.ref) (.object method) :=
      .object live (.member (Table.get?_eq_some_iff.mp own))
    obtain ⟨o, there, -⟩ := Option.map_eq_some_iff.mp function
    exact absurd (marked_reached_iff.mpr ⟨.handle (.kind k) refers, hasSlot_of_object? there⟩) unmarked

/-- Members depend on the objects alone. -/
theorem Furnished.withBudget (furnished : h.Furnished type d) (budget : Budget) :
    (h.withBudget budget).Furnished type d :=
  furnished

/-- At the start the Types have the members that were declared for them. -/
theorem furnished_boot : ∀ k, ∀ d ∈ Declaration.ofKind k, boot.Furnished k.ref d := by
  have all : Kind.all.all fun k => (Declaration.ofKind k).all fun d => boot.Furnished k.ref d := by decide +kernel
  intro k d mem
  exact of_decide_eq_true (List.all_eq_true.mp (List.all_eq_true.mp all k k.mem_all) d mem)

end Heap

namespace Machine

variable {budget : Budget} {tracer : Tracer} {actions : List HostAction} {k : Kind} {d : Declaration}

/-- A Type has the member that was declared for it, as long as it has the member that it had at the start. -/
theorem furnished_of_untouched (declared : d ∈ Declaration.ofKind k)
    (untouched : ∀ h ∈ (boot budget tracer).passage actions,
      h.ownMember? k.ref d.name = Heap.boot.ownMember? k.ref d.name) :
    ∀ h ∈ (boot budget tracer).passage actions, h.Furnished k.ref d := by
  refine (boot budget tracer).invariant_passage actions ?_ fun h mem h' mem' step furnished => ?_
  · rw [heap_boot]
    exact (Heap.furnished_boot k d declared).withBudget budget
  · exact furnished.step step (orderly_of_mem_passage mem).objects ((untouched h' mem').trans (untouched h mem).symm)

/-- To store values leaves all that was there as it was. -/
theorem retains_of_stores {m : Machine} (orderly : m.heap.Orderly) (values : List Snapshot) :
    m.heap.Retains (m.afterSession (values.map .store)).heap := by
  induction values generalizing m with
  | nil => exact .refl orderly.objects
  | cons s later ih =>
    have first : m.heap.Retains (HostAction.perform m (.store s)).heap := by
      rw [HostAction.perform, heap_store]
      exact (Heap.settles_store s _ orderly).retains
    exact first.trans (ih (first.orderly orderly))

/-- So all members are as they were. -/
theorem furnished_store (budget : Budget) (tracer : Tracer) (s : Snapshot) :
    ∀ k, ∀ d ∈ Declaration.ofKind k, ((boot budget tracer).afterSession [.store s]).heap.Furnished k.ref d := by
  intro k d declared
  have orderly : (boot budget tracer).heap.Orderly := by
    rw [heap_boot]
    exact Heap.orderly_boot.withBudget budget
  have furnished : (boot budget tracer).heap.Furnished k.ref d := by
    rw [heap_boot]
    exact (Heap.furnished_boot k d declared).withBudget budget
  exact furnished.of_adds (retains_of_stores orderly [s]).adds

end Machine

end ObjectMachine
