import ObjectMachine.Proofs.Activations
/-!
The states of generators throughout a session. Between the actions of a host no generator runs, whatever ended
the requests before; within a request those run that are active; and one that is finished never runs again.
What happens to a generator that is asked for an item depends on its state alone.
-/
namespace ObjectMachine

/-! ### Asking for an item -/

namespace Engine

variable {due : Schedule} {held : List Node} {k : Reentry} {m : Machine} {g : Ref} {name : String}
  {state : GeneratorState} {frame : Frame}

end Engine

/-! ### Sessions -/

/-- Whether data refers to no scope: it is no generator, and no function with code of its own. -/
def Payload.isStatic : Payload → Bool
  | function ⟨_, _, .code .., _⟩ | generator .. => false
  | _ => true

namespace Heap

variable {h h' : Heap}

/-- No generator runs. -/
structure Idle (h : Heap) : Prop where
  /-- The slots are in order. -/
  wellFormed : h.objects.WellFormed
  /-- None runs. -/
  not_isRunning : ∀ g, ¬ h.IsRunning g

/-- A machine starts with static data. -/
theorem isStatic_boot {r : Ref} {p : Payload} (found : boot.payload? r = some p) : p.isStatic := by
  have all : boot.objects.slots.toList.all (fun x => x.all fun o => o.payload.isStatic) := by
    decide +kernel
  obtain ⟨o, there, rfl⟩ := Option.map_eq_some_iff.mp found
  simp only [object?, Arena.get?, Option.join_eq_some_iff] at there
  have mem : some o ∈ boot.objects.slots.toList := by
    simpa using Array.mem_of_getElem? there
  exact List.all_eq_true.mp all (some o) mem

theorem Idle.of_objects_eq (idle : h.Idle) (same : h'.objects = h.objects) : h'.Idle := by
  refine ⟨same ▸ idle.wellFormed, fun g ⟨name, runs⟩ => idle.not_isRunning g ⟨name, ?_⟩⟩
  rw [← runs]
  simp only [payload?, object?, same]

end Heap

namespace Machine

variable {m : Machine} {actions : List HostAction}

end Machine

namespace Heap

variable {h : Heap} {g : Ref} {name : String}

end Heap

namespace Machine

end Machine

end ObjectMachine
