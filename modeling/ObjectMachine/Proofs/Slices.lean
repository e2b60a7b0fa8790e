import Mathlib.Tactic.ByContra
import ObjectMachine.Engine.Protection
/-!
Slices of code. What is cut out of code shares its instructions: it is a window, whose bounds count from the beginning
of what is shared, while everything that reads the slice counts from the slice's own start. A slice of a slice is a
slice of the whole, and a tag is found in a slice where the whole has it, less the start of the slice, as long as that
is before its end. What is cut out as a body is exactly what stands between the two instructions around it, so that
bodies of bodies, however deep, are windows on the same instructions.
-/
namespace ObjectMachine

namespace Code

variable {c d : Code} {tag : String} {a b start i : Nat}

/-! ### Instructions of a slice -/

theorem size_slice (inside : b ≤ c.size) : (c.slice a b).size = b - a := by
  rw [size, slice, Array.size_extract]
  exact congrArg (· - a) (Nat.min_eq_left inside)

theorem at?_slice (c : Code) (a b i : Nat) : (c.slice a b).at? i = if a + i < b then c.at? (a + i) else none := by
  simp only [at?, slice, Array.getElem?_extract]
  by_cases before : a + i < b
  · rw [if_pos before]
    by_cases stored : a + i < c.instructions.size
    · rw [if_pos (by omega)]
    · rw [if_neg (by omega), Array.getElem?_eq_none (Nat.le_of_not_lt stored)]
  · rw [if_neg before, if_neg (by omega)]

theorem slice_slice (c : Code) {p q : Nat} (ordered : a ≤ b) (inside : q ≤ b - a) :
    (c.slice a b).slice p q = c.slice (a + p) (a + q) := by
  rw [slice, slice, slice, Array.extract_extract, Nat.min_eq_left (Nat.add_le_of_le_sub' ordered inside)]

theorem lt_size_of_at? {instruction : Instruction} (found : c.at? i = some instruction) : i < c.size :=
  (Array.getElem?_eq_some_iff.mp found).1

/-! ### Tags -/

/-- The instruction at a position carries the tag. -/
def Carries (c : Code) (tag : String) (i : Nat) : Prop :=
  ∃ instruction, c.at? i = some instruction ∧ instruction.tag = some tag

theorem Carries.lt_size (carries : c.Carries tag i) : i < c.size :=
  lt_size_of_at? carries.choose_spec.1

theorem carries_slice : (c.slice a b).Carries tag i ↔ a + i < b ∧ c.Carries tag (a + i) := by
  simp only [Carries, at?_slice]
  by_cases before : a + i < b <;> simp [before]

/-- The first position from a start on that carries the tag. -/
structure First (c : Code) (tag : String) (start i : Nat) : Prop where
  /-- It is not before the start. -/
  behind : start ≤ i
  /-- It carries the tag. -/
  carries : c.Carries tag i
  /-- No position from the start up to it does. -/
  earliest : ∀ j, start ≤ j → j < i → ¬ c.Carries tag j

theorem first_iff_eq (carries : c.Carries tag start) : c.First tag start i ↔ i = start := by
  constructor
  · intro first
    by_contra other
    exact first.earliest start (Nat.le_refl start) (Nat.lt_of_le_of_ne first.behind (Ne.symm other)) carries
  · rintro rfl
    exact ⟨Nat.le_refl i, carries, fun j behind before => absurd behind (Nat.not_le_of_lt before)⟩

theorem first_succ_iff (other : ¬ c.Carries tag start) : c.First tag (start + 1) i ↔ c.First tag start i := by
  constructor
  · intro first
    refine ⟨Nat.le_of_succ_le first.behind, first.carries, fun j behind before => ?_⟩
    obtain rfl | above : start = j ∨ start < j := Nat.eq_or_lt_of_le behind
    · exact other
    · exact first.earliest j above before
  · intro first
    have apart : start ≠ i := by
      rintro rfl
      exact other first.carries
    exact ⟨Nat.lt_of_le_of_ne first.behind apart, first.carries,
      fun j behind before => first.earliest j (Nat.le_of_succ_le behind) before⟩

theorem searchTag_eq_some_iff {count : Nat} :
    searchTag c.instructions tag count start = some i ↔ c.First tag start i ∧ i < start + count := by
  induction count generalizing start with
  | zero =>
    refine ⟨(nomatch ·), fun ⟨first, before⟩ => ?_⟩
    exact absurd first.behind (Nat.not_le_of_lt before)
  | succ count ih =>
    rw [searchTag, show c.instructions[start]? = c.at? start from rfl]
    cases found : c.at? start with
    | none =>
      -- nothing stands at the start, so nothing stands behind it
      have exhausted : c.size ≤ start := Array.getElem?_eq_none_iff.mp found
      refine ⟨(nomatch ·), fun ⟨first, _⟩ => ?_⟩
      exact absurd (Nat.le_trans exhausted first.behind) (Nat.not_le_of_lt first.carries.lt_size)
    | some instruction =>
      by_cases tagged : instruction.tag = some tag
      · simp only [tagged, if_true, Option.some.injEq, first_iff_eq ⟨instruction, found, tagged⟩]
        omega
      · have other : ¬ c.Carries tag start := by
          rintro ⟨_, same, carries⟩
          cases found.symm.trans same
          exact tagged carries
        simp only [tagged, if_false, ih, first_succ_iff other]
        exact and_congr_right fun _ => by omega

/-- A search finds the first position that carries the tag, and nothing else. -/
theorem findTagFrom?_eq_some_iff : c.findTagFrom? start tag = some i ↔ c.First tag start i := by
  rw [findTagFrom?, searchTag_eq_some_iff, and_iff_left_iff_imp]
  intro first
  have inside := first.carries.lt_size
  have behind := first.behind
  omega

theorem first_slice : (c.slice a b).First tag start i ↔ a + i < b ∧ c.First tag (a + start) (a + i) := by
  constructor
  · intro first
    obtain ⟨before, carries⟩ := carries_slice.mp first.carries
    refine ⟨before, Nat.add_le_add_left first.behind a, carries, fun j behind earlier there => ?_⟩
    obtain ⟨j, rfl⟩ := Nat.exists_eq_add_of_le (Nat.le_of_add_right_le behind)
    exact first.earliest j (by omega) (by omega) (carries_slice.mpr ⟨by omega, there⟩)
  · rintro ⟨before, first⟩
    refine ⟨Nat.le_of_add_le_add_left first.behind, carries_slice.mpr ⟨before, first.carries⟩, ?_⟩
    intro j behind earlier there
    exact first.earliest (a + j) (by omega) (by omega) (carries_slice.mp there).2

/-- A search in a slice is the search in the whole from the same place on, cut off at the end of the slice. -/
theorem findTagFrom?_slice (c : Code) (a b start : Nat) (tag : String) :
    (c.slice a b).findTagFrom? start tag = ((c.findTagFrom? (a + start) tag).filter (· < b)).map (· - a) := by
  apply Option.ext
  intro i
  rw [findTagFrom?_eq_some_iff, first_slice, Option.map_eq_some_iff]
  simp only [Option.filter_eq_some_iff, findTagFrom?_eq_some_iff, decide_eq_true_eq]
  constructor
  · rintro ⟨before, first⟩
    exact ⟨a + i, ⟨first, before⟩, by omega⟩
  · rintro ⟨j, ⟨first, before⟩, rfl⟩
    have behind := first.behind
    rw [Nat.add_sub_cancel' (by omega)]
    exact ⟨before, first⟩

/-- What is cut out of code from one position up to another: it is read from its own start, and everything that is read
of it is what the code has that far behind the first position. -/
structure CutOut (c : Code) (a b : Nat) (part : Code) : Prop where
  /-- It is as long as the stretch. -/
  size : part.size = b - a
  /-- It has the instructions of the stretch, and no others. -/
  instructions : ∀ i, part.at? i = if a + i < b then c.at? (a + i) else none
  /-- What is cut out of it can be cut out of the code. -/
  slices : ∀ p q, p ≤ q → q ≤ b - a → part.slice p q = c.slice (a + p) (a + q)
  /-- A search for a tag finds what the same search in the code finds, as long as that is in the stretch. -/
  tags : ∀ start tag, part.findTagFrom? start tag = ((c.findTagFrom? (a + start) tag).filter (· < b)).map (· - a)

theorem cutOut_slice (ordered : a ≤ b) (inside : b ≤ c.size) : c.CutOut a b (c.slice a b) where
  size := size_slice inside
  instructions := at?_slice c a b
  slices := fun _ _ _ inside => slice_slice c ordered inside
  tags := findTagFrom?_slice c a b

/-! ### Bodies -/

/-- A body stands in code, and it is the one that a search for a tag from a start on comes to. -/
structure Encloses (c : Code) (start : Nat) (tag : String) (body : Body) : Prop where
  /-- Its opening instruction is the first that carries the tag. -/
  opens : c.First tag start body.start
  /-- Its closing instruction is the first one behind that carries the closing tag. -/
  closes : ∃ instruction closing, c.at? body.start = some instruction ∧ instruction.op = .bodyStart closing ∧
    c.First closing (body.start + 1) body.stop
  /-- It is as long as the stretch between them. -/
  size : body.code.size = body.stop - (body.start + 1)
  /-- It has the instructions of that stretch. -/
  between : ∀ i, body.code.at? i = if body.start + 1 + i < body.stop then c.at? (body.start + 1 + i) else none

theorem Encloses.start_lt_stop {body : Body} (found : c.Encloses start tag body) : body.start < body.stop :=
  found.closes.choose_spec.choose_spec.2.2.behind

theorem Encloses.stop_lt_size {body : Body} (found : c.Encloses start tag body) : body.stop < c.size :=
  found.closes.choose_spec.choose_spec.2.2.carries.lt_size

/-- Code is its instructions. -/
theorem ext_at? (same : ∀ i, c.at? i = d.at? i) : c = d :=
  congrArg Code.mk (Array.ext_getElem? same)

theorem Encloses.code_eq {body : Body} (found : c.Encloses start tag body) :
    body.code = c.slice (body.start + 1) body.stop :=
  ext_at? fun i => (found.between i).trans (at?_slice c _ _ i).symm

theorem encloses_of_bodyFrom? {body : Body} (found : c.bodyFrom? start tag = some body) :
    c.Encloses start tag body := by
  simp only [bodyFrom?] at found
  split at found
  · cases found
  rename_i opening opens
  split at found
  · rename_i closing carried stands
    obtain ⟨stop, closes, rfl⟩ := Option.map_eq_some_iff.mp found
    have closes := findTagFrom?_eq_some_iff.mp closes
    exact ⟨findTagFrom?_eq_some_iff.mp opens, ⟨_, closing, stands, rfl, closes⟩,
      size_slice (Nat.le_of_lt closes.carries.lt_size), at?_slice c _ _⟩
  · cases found

/-- The search for a body comes to a body that stands in the code, and to every such body. -/
theorem bodyFrom?_eq_some_iff {body : Body} : c.bodyFrom? start tag = some body ↔ c.Encloses start tag body := by
  refine ⟨encloses_of_bodyFrom?, fun found => ?_⟩
  obtain ⟨⟨op, carried⟩, closing, stands, rfl, closes⟩ := found.closes
  rw [bodyFrom?, findTagFrom?_eq_some_iff.mpr found.opens]
  simp only [stands, findTagFrom?_eq_some_iff.mpr closes, Option.map_some, Option.some.injEq]
  exact congrArg (Body.mk body.start body.stop) found.code_eq.symm

/-- Code that is cut out of other code, body by body. -/
inductive Nested (c : Code) : Code → Prop where
  /-- The code itself. -/
  | whole : Nested c c
  /-- A body of such code. -/
  | body {d : Code} {start : Nat} {tag : String} {found : Body} (outer : Nested c d)
    (cut : d.bodyFrom? start tag = some found) : Nested c found.code

/-! ### Windows -/

/-- A window on instructions that are shared; its bounds count from their beginning. -/
structure Window where
  /-- The instructions. -/
  storage : Array Instruction
  /-- Where the window begins. -/
  start : Nat
  /-- Where it ends. -/
  stop : Nat
  ordered : start ≤ stop
  inside : stop ≤ storage.size

namespace Window

/-- The code that shows in a window. -/
def code (w : Window) : Code := slice ⟨w.storage⟩ w.start w.stop

theorem size_code (w : Window) : w.code.size = w.stop - w.start := size_slice w.inside

/-- A narrower window, whose bounds are counted from the beginning of this one. -/
def narrow (w : Window) (p q : Nat) (ordered : p ≤ q) (inside : q ≤ w.stop - w.start) : Window where
  storage := w.storage
  start := w.start + p
  stop := w.start + q
  ordered := Nat.add_le_add_left ordered w.start
  inside := by
    have := w.ordered
    have := w.inside
    omega

/-- What shows in a narrower window is a slice. -/
theorem code_narrow (w : Window) {p q : Nat} (ordered : p ≤ q) (inside : q ≤ w.stop - w.start) :
    (w.narrow p q ordered inside).code = w.code.slice p q :=
  (slice_slice ⟨w.storage⟩ w.ordered inside).symm

/-- Bodies of bodies show in windows on the same instructions. -/
theorem exists_of_nested {w : Window} (nested : w.code.Nested d) :
    ∃ v : Window, v.storage = w.storage ∧ w.start ≤ v.start ∧ v.stop ≤ w.stop ∧ v.code = d := by
  induction nested with
  | whole => exact ⟨w, rfl, Nat.le_refl _, Nat.le_refl _, rfl⟩
  | @body d start tag found outer cut ih =>
    obtain ⟨v, shared, first, last, rfl⟩ := ih
    have encloses := encloses_of_bodyFrom? cut
    have ordered := encloses.start_lt_stop
    have inside := encloses.stop_lt_size
    rw [v.size_code] at inside
    refine ⟨v.narrow (found.start + 1) found.stop ordered (Nat.le_of_lt inside), shared, ?_, ?_, ?_⟩
    · exact Nat.le_trans first (Nat.le_add_right _ _)
    · show v.start + found.stop ≤ w.stop
      omega
    · rw [code_narrow, encloses.code_eq]

/-- The window that shows all of some code. -/
def ofCode (c : Code) : Window := ⟨c.instructions, 0, c.size, Nat.zero_le _, Nat.le_refl _⟩

theorem code_ofCode (c : Code) : (ofCode c).code = c := congrArg Code.mk Array.extract_size

end Window

/-- Code that was cut out body by body was cut out of the whole at once. -/
theorem Nested.exists_cutOut (nested : c.Nested d) : ∃ a b, a ≤ b ∧ b ≤ c.size ∧ c.CutOut a b d := by
  rw [← Window.code_ofCode c] at nested
  obtain ⟨⟨storage, first, last, ordered, inside⟩, shared, -, -, rfl⟩ := Window.exists_of_nested nested
  obtain rfl : storage = c.instructions := shared
  exact ⟨first, last, ordered, inside, cutOut_slice ordered inside⟩

end Code

/-! ### Sections -/

namespace Sections

variable {f : Frame} {block : String} {s : Sections}

/-- The sections of a block are bodies of the frame's code, and the code goes on behind them, and not outside. -/
structure Within (s : Sections) (f : Frame) : Prop where
  /-- The guarded section is a body of the code. -/
  guarded : f.code.Nested s.guarded
  /-- So is the handler. -/
  handler : ∀ code ∈ s.handler, f.code.Nested code
  /-- So is the cleanup. -/
  cleanup : ∀ code ∈ s.cleanup, f.code.Nested code
  /-- The code goes on behind the block. -/
  behind : f.ip < s.next
  /-- It goes on at a position of the code, or behind it. -/
  inside : s.next ≤ f.code.size

theorem within_of_find? (found : find? f block = some s) : s.Within f := by
  have bounds {name : String} {body : Code.Body} (part : f.code.bodyFrom? (f.ip + 1) name = some body) :
      f.ip < body.stop ∧ body.stop < f.code.size := by
    have encloses := Code.encloses_of_bodyFrom? part
    exact ⟨Nat.lt_trans encloses.opens.behind encloses.start_lt_stop, encloses.stop_lt_size⟩
  have nested (name : String) (code : Code)
      (isPart : code ∈ (f.code.bodyFrom? (f.ip + 1) name).map Code.Body.code) : f.code.Nested code := by
    obtain ⟨body, found, rfl⟩ := Option.map_eq_some_iff.mp isPart
    exact .body .whole found
  obtain ⟨guarded, isGuarded, rfl⟩ := Option.map_eq_some_iff.mp found
  have bounded := bounds isGuarded
  have stops (name : String) : ((f.code.bodyFrom? (f.ip + 1) name).map Code.Body.stop).getD 0 < f.code.size := by
    cases part : f.code.bodyFrom? (f.ip + 1) name with
    | none => exact Nat.zero_lt_of_lt bounded.2
    | some body => exact (bounds part).2
  have handler := stops (block ++ "." ++ "catch")
  have cleanup := stops (block ++ "." ++ "finally")
  exact ⟨.body .whole isGuarded, nested _, nested _, by dsimp only; omega, by dsimp only; omega⟩

end Sections

end ObjectMachine
