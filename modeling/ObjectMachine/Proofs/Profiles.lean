import Mathlib
import ObjectMachine.Proofs.Reports
/-!
What a profile tells. The counts of a profile are those of the events that were reported while it was taken, so that it
can be told from a recording of the same run: `Profile.Tallies` is what one more event preserves, and every profile has
it of the events that it has seen. The report lists each opcode once, the most frequent first and then by name; the
order is strict, so that it does not matter in which order the counts were kept.
-/
namespace ObjectMachine

namespace Event

/-- The opcode that is about to be executed. -/
def opcode? : Event → Option String
  | instruction _ opcode _ _ => some opcode
  | _ => none

/-- The depth of an instruction or of a function that is entered. -/
def reachedDepth? : Event → Option Nat
  | instruction _ _ _ depth => some depth
  | call _ depth => some depth
  | _ => none

/-- Whether a function is entered. -/
def isCall : Event → Bool
  | call .. => true
  | _ => false

/-- Whether a Type is made. -/
def isMakeClass : Event → Bool
  | makeClass .. => true
  | _ => false

end Event

/-- The opcodes of the instructions that were executed, in order. -/
def executedOpcodes (events : List Event) : List String := events.filterMap Event.opcode?

theorem executedOpcodes_append (events : List Event) (e : Event) :
    executedOpcodes (events ++ [e]) = executedOpcodes events ++ e.opcode?.toList := by
  rw [executedOpcodes, List.filterMap_append]
  cases found : e.opcode? <;> simp [executedOpcodes, found]

namespace Profile

variable {p : Profile} {events : List Event}

/-! ### Counts -/

/-- The counts of a profile are those of some events. -/
structure Tallies (p : Profile) (events : List Event) : Prop where
  /-- An opcode is in the table as often as it was executed, and only if it was. -/
  opcodes : ∀ opcode n, p.opcodes.get? opcode = some n ↔ 0 < n ∧ n = (executedOpcodes events).count opcode
  /-- The counts of the table add up. -/
  total : (p.opcodes.entries.map Prod.snd).sum = p.instructions
  /-- All instructions. -/
  instructions : p.instructions = (executedOpcodes events).length
  /-- Entered functions. -/
  calls : p.calls = events.countP Event.isCall
  /-- Types made. -/
  classes : p.classes = events.countP Event.isMakeClass
  /-- The greatest depth. -/
  maxDepth : p.maxDepth = (events.filterMap Event.reachedDepth?).foldl max 0

theorem tallies_empty : empty.Tallies [] where
  opcodes _ _ := ⟨(nomatch ·), fun ⟨positive, zero⟩ => absurd zero (Nat.ne_of_gt positive)⟩
  total := rfl
  instructions := rfl
  calls := rfl
  classes := rfl
  maxDepth := rfl

theorem opcodes_count (p : Profile) (e : Event) :
    (p.count e).opcodes = e.opcode?.elim p.opcodes fun opcode =>
      p.opcodes.insert opcode ((p.opcodes.get? opcode).getD 0 + 1) := by
  cases e <;> rfl

theorem instructions_count (p : Profile) (e : Event) :
    (p.count e).instructions = p.instructions + e.opcode?.toList.length := by
  cases e <;> rfl

theorem calls_count (p : Profile) (e : Event) : (p.count e).calls = p.calls + [e].countP Event.isCall := by
  cases e <;> rfl

theorem classes_count (p : Profile) (e : Event) : (p.count e).classes = p.classes + [e].countP Event.isMakeClass := by
  cases e <;> rfl

theorem maxDepth_count (p : Profile) (e : Event) :
    (p.count e).maxDepth = e.reachedDepth?.toList.foldl max p.maxDepth := by
  cases e <;> rfl

/-- A write to a table of numbers changes their sum by as much as it changes one of them. -/
theorem sum_updateIn (k : String) (v : Nat) (l : List (String × Nat)) :
    ((Table.updateIn k (fun _ => v) l).map Prod.snd).sum + (Table.lookupIn k l).getD 0 =
      (l.map Prod.snd).sum + v := by
  induction l with
  | nil => simp [Table.updateIn, Table.lookupIn]
  | cons e rest ih =>
    obtain ⟨k', v'⟩ := e
    by_cases same : k' = k
    · simp only [Table.updateIn, Table.lookupIn, same, if_true, List.map_cons, List.sum_cons, Option.getD_some]
      omega
    · simp only [Table.updateIn, Table.lookupIn, same, if_false, List.map_cons, List.sum_cons]
      omega

theorem Tallies.getD_get? (tallies : p.Tallies events) (opcode : String) :
    (p.opcodes.get? opcode).getD 0 = (executedOpcodes events).count opcode := by
  cases found : p.opcodes.get? opcode with
  | some n => exact ((tallies.opcodes opcode n).mp found).2
  | none =>
    by_contra other
    have counted := (tallies.opcodes opcode _).mpr ⟨Nat.pos_of_ne_zero (Ne.symm other), rfl⟩
    rw [found] at counted
    cases counted

/-- One more event is counted. -/
theorem Tallies.count (tallies : p.Tallies events) (e : Event) : (p.count e).Tallies (events ++ [e]) where
  opcodes other n := by
    rw [opcodes_count, executedOpcodes_append]
    cases e.opcode? with
    | none =>
      rw [Option.toList_none, List.append_nil]
      exact tallies.opcodes other n
    | some opcode =>
      rw [Option.elim_some, Option.toList_some, Table.get?_insert, tallies.getD_get?, List.count_append,
        List.count_singleton]
      by_cases same : opcode = other
      · simp only [same, if_true, Option.some.injEq, beq_self_eq_true]
        omega
      · simp only [same, if_false, tallies.opcodes, beq_iff_eq, Nat.add_zero]
  total := by
    rw [opcodes_count, instructions_count]
    cases e.opcode? with
    | none => exact tallies.total
    | some opcode =>
      have sum := sum_updateIn opcode ((p.opcodes.get? opcode).getD 0 + 1) p.opcodes.entries
      rw [show Table.lookupIn opcode p.opcodes.entries = p.opcodes.get? opcode from rfl, tallies.total] at sum
      show ((Table.updateIn opcode _ p.opcodes.entries).map Prod.snd).sum = p.instructions + 1
      omega
  instructions := by
    rw [instructions_count, executedOpcodes_append, List.length_append, tallies.instructions]
  calls := by rw [calls_count, List.countP_append, tallies.calls]
  classes := by rw [classes_count, List.countP_append, tallies.classes]
  maxDepth := by
    rw [maxDepth_count, tallies.maxDepth, List.filterMap_append, List.foldl_append]
    cases found : e.reachedDepth? <;> simp [found]

/-- However many events are counted, the counts are theirs. -/
theorem Tallies.countAll (tallies : p.Tallies events) (later : List Event) :
    (later.foldl Profile.count p).Tallies (events ++ later) := by
  induction later generalizing p events with
  | nil =>
    rw [List.append_nil]
    exact tallies
  | cons e later ih =>
    have counted := ih (tallies.count e)
    rw [List.append_assoc] at counted
    exact counted

/-! ### The report -/

/-- An opcode is listed in front of another one: it is more frequent, or as frequent and first by name. -/
def RanksBefore (a b : String × Nat) : Prop := b.2 < a.2 ∨ a.2 = b.2 ∧ a.1 < b.1

theorem listedBefore_iff {a b : String × Nat} : listedBefore a b = true ↔ b.2 < a.2 ∨ a.2 = b.2 ∧ a.1 ≤ b.1 := by
  simp [listedBefore]

theorem listedBefore_trans (a b c : String × Nat) (first : listedBefore a b = true) (later : listedBefore b c = true) :
    listedBefore a c = true := by
  rw [listedBefore_iff] at first later ⊢
  obtain more | ⟨same, before⟩ := first
  · exact .inl (by omega)
  · obtain more' | ⟨same', before'⟩ := later
    · exact .inl (by omega)
    · exact .inr ⟨same.trans same', String.le_trans before before'⟩

theorem listedBefore_total (a b : String × Nat) : (listedBefore a b || listedBefore b a) = true := by
  rw [Bool.or_eq_true, listedBefore_iff, listedBefore_iff]
  obtain less | same | more := Nat.lt_trichotomy a.2 b.2
  · exact .inr (.inl less)
  · exact (String.le_total a.1 b.1).imp (fun before => .inr ⟨same, before⟩) fun before => .inr ⟨same.symm, before⟩
  · exact .inl (.inl more)

theorem listedBefore_antisymm {a b : String × Nat} (before : listedBefore a b = true)
    (behind : listedBefore b a = true) : a = b := by
  rw [listedBefore_iff] at before behind
  obtain more | ⟨same, before⟩ := before
  · omega
  · obtain more | ⟨-, behind⟩ := behind
    · omega
    · exact Prod.ext (String.le_antisymm before behind) same

theorem pairwise_mergeSort_listedBefore (listing : List (String × Nat)) :
    (listing.mergeSort listedBefore).Pairwise fun a b => listedBefore a b = true :=
  List.pairwise_mergeSort listedBefore_trans listedBefore_total listing

theorem perm_ranking (p : Profile) : p.ranking.Perm p.opcodes.entries := List.mergeSort_perm _ _

theorem nodup_ranking (p : Profile) : (p.ranking.map Prod.fst).Nodup :=
  (p.perm_ranking.map Prod.fst).nodup_iff.mpr p.opcodes.nodup_keys

/-- No opcode is listed twice, so that the order of the report is strict. -/
theorem pairwise_ranking (p : Profile) : p.ranking.Pairwise RanksBefore := by
  have apart := List.pairwise_map.mp p.nodup_ranking
  refine ((pairwise_mergeSort_listedBefore p.opcodes.entries).and apart).imp ?_
  rintro a b ⟨before, other⟩
  refine (listedBefore_iff.mp before).imp_right fun ⟨same, before⟩ => ⟨same, ?_⟩
  exact String.not_le.mp fun behind => other (String.le_antisymm before behind)

/-- In whatever order the counts are kept, the report is the same. -/
theorem mergeSort_eq_ranking {listing : List (String × Nat)} (kept : listing.Perm p.opcodes.entries) :
    listing.mergeSort listedBefore = p.ranking := by
  have same : (listing.mergeSort listedBefore).Perm p.ranking :=
    (List.mergeSort_perm listing _).trans (kept.trans p.perm_ranking.symm)
  exact same.eq_of_pairwise (fun _ _ _ _ before behind => listedBefore_antisymm before behind)
    (pairwise_mergeSort_listedBefore listing) (pairwise_mergeSort_listedBefore p.opcodes.entries)

/-- What a profile tells of the events that were recorded meanwhile. -/
structure Summarizes (p : Profile) (events : List Event) : Prop where
  /-- An opcode is listed with the number of its instructions, if there are any. -/
  counts : ∀ opcode n, (opcode, n) ∈ p.ranking ↔ 0 < n ∧ n = events.countP fun e => e.opcode? = some opcode
  /-- No opcode is listed twice. -/
  once : (p.ranking.map Prod.fst).Nodup
  /-- The more frequent opcodes are listed first, and by name where they are as frequent. -/
  sorted : p.ranking.Pairwise RanksBefore
  /-- The list does not depend on the order in which the counts are kept. -/
  canonical : ∀ listing : List (String × Nat), listing.Perm p.opcodes.entries →
    listing.mergeSort listedBefore = p.ranking
  /-- The counts of the list add up to the number of instructions. -/
  total : p.instructions = (p.ranking.map Prod.snd).sum
  /-- This is the number of all recorded instructions. -/
  instructions : p.instructions = events.countP fun e => e.opcode?.isSome
  /-- Recorded calls. -/
  calls : p.calls = events.countP Event.isCall
  /-- Recorded Types. -/
  classes : p.classes = events.countP Event.isMakeClass
  /-- The greatest depth at which an instruction or a call was reported. -/
  maxDepth : p.maxDepth = (events.filterMap Event.reachedDepth?).foldl max 0

theorem count_executedOpcodes (events : List Event) (opcode : String) :
    (executedOpcodes events).count opcode = events.countP fun e => e.opcode? = some opcode := by
  rw [executedOpcodes, List.count_eq_countP, List.countP_filterMap]
  refine List.countP_congr fun e _ => ?_
  cases e.opcode? <;> simp

theorem length_executedOpcodes (events : List Event) :
    (executedOpcodes events).length = events.countP fun e => e.opcode?.isSome := by
  rw [executedOpcodes, List.length_filterMap_eq_countP]

theorem Tallies.summarizes (tallies : p.Tallies events) : p.Summarizes events where
  counts opcode n := by
    rw [p.perm_ranking.mem_iff, ← Table.get?_eq_some_iff, tallies.opcodes, count_executedOpcodes]
  once := p.nodup_ranking
  sorted := p.pairwise_ranking
  canonical := fun _ kept => mergeSort_eq_ranking kept
  total := tallies.total.symm.trans (p.perm_ranking.map Prod.snd).sum_nat.symm
  instructions := tallies.instructions.trans (length_executedOpcodes events)
  calls := tallies.calls
  classes := tallies.classes
  maxDepth := tallies.maxDepth

end Profile

/-! ### Observed sessions -/

theorem Tracer.observeAll_profiling (p : Profile) (events : List Event) :
    (profiling p).observeAll events = profiling (events.foldl Profile.count p) := by
  induction events generalizing p with
  | nil => rfl
  | cons e later ih => exact ih (p.count e)

/-- A session of a machine ends in the same way whether its events are recorded or counted, and it answers whatever it
is asked then. The profile is what a fold of the recording gives, and a recording with a limit is the first part of the
recording without one. -/
theorem Machine.profile_summarizes_recording (m : Machine) (actions : List HostAction) :
    ∃ (events : List Event) (profile : Profile) (last : Machine),
      (m.watchedBy (.recording none #[])).afterSession actions = last.watchedBy (.recording none events.toArray) ∧
      (m.watchedBy (.profiling .empty)).afterSession actions = last.watchedBy (.profiling profile) ∧
      profile.Summarizes events ∧
      (∀ n, (m.watchedBy (.recording (some n) #[])).afterSession actions =
        last.watchedBy (.recording (some n) (events.take n).toArray)) ∧
      ∀ printer r, ((last.watchedBy (.recording none events.toArray)).serve printer r).1 =
        ((last.watchedBy (.profiling profile)).serve printer r).1 := by
  have recorded (limit : Option Nat) : (m.watchedBy (.recording limit #[])).afterSession actions =
      (m.afterSession actions).watchedBy (.recorded limit (m.sessionReports actions)) := by
    rw [← Tracer.recorded_nil, m.afterSession_watchedBy (t := .recorded limit []) rfl, Tracer.observeAll_recorded,
      List.nil_append]
  refine ⟨m.sessionReports actions, (m.sessionReports actions).foldl Profile.count .empty, m.afterSession actions,
    recorded none, ?_, (Profile.tallies_empty.countAll _).summarizes, fun n => recorded (some n), fun printer r => ?_⟩
  · rw [m.afterSession_watchedBy rfl actions, Tracer.observeAll_profiling]
  · rw [Machine.serve_watchedBy _ rfl, Machine.serve_watchedBy _ rfl]

end ObjectMachine
