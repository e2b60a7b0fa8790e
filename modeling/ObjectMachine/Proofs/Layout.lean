import ObjectMachine.Engine.Instructions
import ObjectMachine.Proofs.Labels
/-!
The layout of assembled code. However deeply the statements of a script nest, every tag marks one
place, and from the place of each instruction the tags that it names lead to what was laid out with
it: bodies and sections to what their own statements laid out, brackets behind their own end, and
loops to their own head and exit.

Two facts carry this. Tags that the assembler makes up end in a number that it hands out once, so no
two of them agree; and from an unambiguous piece of code the first match of a tag is its only match.
-/
namespace ObjectMachine

/-! ### Unambiguous code -/

namespace Code

theorem index_unique {c : Code} (h : c.tags.Nodup) {i j : Nat} {x y : Instruction} {tag : String}
    (hi : c.at? i = some x) (hj : c.at? j = some y) (hx : x.tag = some tag)
    (hy : y.tag = some tag) : i = j := by
  have apart := List.pairwise_iff_getElem.mp (List.pairwise_filterMap.mp h)
  simp only [at?, Array.getElem?_eq_some_iff] at hi hj
  obtain ⟨hi, rfl⟩ := hi
  obtain ⟨hj, rfl⟩ := hj
  rcases Nat.lt_trichotomy i j with below | same | above
  · exact absurd rfl (apart i j hi hj below tag hx tag hy)
  · exact same
  · exact absurd rfl (apart j i hj hi above tag hy tag hx)

theorem searchTag_eq {c : Code} (h : c.tags.Nodup) {i : Nat} {x : Instruction} {tag : String}
    (hi : c.at? i = some x) (hx : x.tag = some tag) (count start : Nat) (hs : start ≤ i)
    (hc : i < start + count) : searchTag c.instructions tag count start = some i := by
  induction count generalizing start with
  | zero => omega
  | succ count ih =>
    have inside : i < c.size := (Array.getElem?_eq_some_iff.mp hi).1
    obtain ⟨y, found⟩ : ∃ y, c.at? start = some y :=
      ⟨_, Array.getElem?_eq_getElem (Nat.lt_of_le_of_lt hs inside)⟩
    rw [searchTag, show c.instructions[start]? = some y from found]
    by_cases marked : y.tag = some tag
    · simp only [marked, if_true, index_unique h found hi marked hx]
    · have later : start ≠ i := by
        rintro rfl
        have same : y = x := Option.some.inj (found.symm.trans hi)
        exact marked (same ▸ hx)
      simp only [marked, if_false]
      exact ih (start + 1) (by omega) (by omega)

/-- In unambiguous code the first match of a tag is its only match. -/
theorem findTagFrom?_eq {c : Code} (h : c.tags.Nodup) {i : Nat} {x : Instruction} {tag : String}
    (hi : c.at? i = some x) (hx : x.tag = some tag) {start : Nat} (hs : start ≤ i) :
    c.findTagFrom? start tag = some i := by
  have inside : i < c.size := (Array.getElem?_eq_some_iff.mp hi).1
  exact searchTag_eq h hi hx _ _ hs (by omega)

theorem target_eq {c : Code} (h : c.tags.Nodup) {i : Nat} {x : Instruction} {tag : String}
    (hi : c.at? i = some x) (hx : x.tag = some tag) {f : Frame} (code : f.code = c) :
    Engine.target f tag = pure i := by
  have found : c.findTag? tag = some i := findTagFrom?_eq h hi hx (Nat.zero_le i)
  rw [Engine.target, code, found]

/-- A tag that no instruction carries is not found. -/
theorem bodyFrom?_eq_none {c : Code} {tag : String} (h : tag ∉ c.tags) (start : Nat) :
    c.bodyFrom? start tag = none := by
  have nowhere (count i : Nat) : searchTag c.instructions tag count i = none := by
    induction count generalizing i with
    | zero => rfl
    | succ count ih =>
      rw [searchTag]
      cases found : c.instructions[i]? with
      | none => rfl
      | some x =>
        have other : x.tag ≠ some tag := fun marked =>
          h (List.mem_filterMap.mpr ⟨x, Array.mem_toList_iff.mpr (Array.mem_of_getElem? found), marked⟩)
        simp only [other, if_false]
        exact ih (i + 1)
  rw [bodyFrom?, findTagFrom?, nowhere]

theorem tags_slice_sublist (c : Code) (start stop : Nat) :
    (c.slice start stop).tags.Sublist c.tags := by
  simp only [tags, slice, toList, Array.toList_extract]
  exact ((List.take_sublist _ _).trans (List.drop_sublist _ _)).filterMap _

theorem slice_eq {c inner : Code} {start : Nat}
    (same : ∀ i x, inner.at? i = some x → c.at? (start + i) = some x) :
    c.slice start (start + inner.size) = inner := by
  obtain ⟨inner⟩ := inner
  simp only [slice, size, at?, Code.mk.injEq] at same ⊢
  apply Array.ext_getElem?
  intro i
  rw [Array.getElem?_extract]
  by_cases inside : i < inner.size
  · have there := same i _ (Array.getElem?_eq_getElem inside)
    have bound := (Array.getElem?_eq_some_iff.mp there).1
    rw [if_pos (by omega), there, Array.getElem?_eq_getElem inside]
  · rw [if_neg (by omega), Array.getElem?_eq_none (by omega)]

/-- A body stands in the code: its brackets at their places, what it encloses between them, and all
searches for it lead there. -/
structure Brackets (c : Code) (tag : String) (start : Nat) (inner : Code) : Prop where
  opens : c.at? start = some ⟨.bodyStart (Assembler.closingTag tag), some tag⟩
  closes : c.at? (start + 1 + inner.size) =
    some ⟨.bodyEnd, some (Assembler.closingTag tag)⟩
  encloses : ∀ behind ≤ start,
    c.bodyFrom? behind tag = some ⟨start, start + 1 + inner.size, inner⟩
  jumps : ∀ (k : Reentry) (f : Frame), f.code = c → f.ip = start →
    Engine.execute k f (.bodyStart (Assembler.closingTag tag)) =
      pure (.jump (start + 1 + inner.size + 1) f)

/-- A body that stands in unambiguous code is found there. -/
theorem brackets_of_at {c : Code} (h : c.tags.Nodup) {tag : String} {start : Nat} {inner : Code}
    (opens : c.at? start = some ⟨.bodyStart (Assembler.closingTag tag), some tag⟩)
    (closes : c.at? (start + 1 + inner.size) = some ⟨.bodyEnd, some (Assembler.closingTag tag)⟩)
    (between : c.slice (start + 1) (start + 1 + inner.size) = inner) :
    c.Brackets tag start inner := by
  have stop : c.findTagFrom? (start + 1) (Assembler.closingTag tag) =
      some (start + 1 + inner.size) := findTagFrom?_eq h closes rfl (by omega)
  refine ⟨opens, closes, fun behind before => ?_, fun k f code ip => ?_⟩
  · have first : c.findTagFrom? behind tag = some start := findTagFrom?_eq h opens rfl before
    simp [bodyFrom?, first, opens, stop, between]
  · simp [Engine.execute, code, ip, stop]

theorem Brackets.slice_eq {c inner : Code} {tag : String} {start : Nat}
    (h : c.Brackets tag start inner) : c.slice (start + 1) (start + 1 + inner.size) = inner := by
  have found := h.encloses start (Nat.le_refl _)
  simp only [bodyFrom?] at found
  split at found
  · cases found
  · split at found
    · simp only [Option.map_eq_some_iff, Body.mk.injEq] at found
      obtain ⟨_, _, rfl, rfl, between⟩ := found
      exact between
    · cases found

theorem Brackets.nodup_tags {c inner : Code} {tag : String} {start : Nat}
    (h : c.Brackets tag start inner) (apart : c.tags.Nodup) : inner.tags.Nodup :=
  (h.slice_eq ▸ c.tags_slice_sublist _ _).nodup apart

end Code

/-! ### The assembler only goes on -/

namespace Assembler

/-- One assembler is the other after it has laid out more. -/
inductive Grows (a : Assembler) : Assembler → Prop where
  | refl : Grows a a
  | emit {b : Assembler} (op : Opcode) : Grows a b → Grows a (b.emit op)
  | label {b : Assembler} (tag : String) : Grows a b → Grows a (b.label tag)
  | count {b : Assembler} (labels : Nat) : Grows a b → Grows a { b with labels }

theorem Grows.trans {a b c : Assembler} (hab : Grows a b) (hbc : Grows b c) : Grows a c := by
  induction hbc with
  | refl => exact hab
  | emit op _ ih => exact ih.emit op
  | label tag _ ih => exact ih.label tag
  | count labels _ ih => exact ih.count labels

theorem Grows.openBody {a b : Assembler} (h : Grows a b) (tag : String) :
    Grows a (b.openBody tag) := (h.label tag).emit _

theorem Grows.closeBody {a b : Assembler} (h : Grows a b) (tag : String) :
    Grows a (b.closeBody tag) := (h.label _).emit _

mutual

theorem Grows.statement {a b : Assembler} (h : Grows a b) : ∀ s, Grows a (b.statement s)
  | .op _ | .int _ | .str _ | .get _ | .define _ | .operator .. => h.emit _
  | .label tag => h.label tag
  | .fresh _ => (h.count _).emit _
  | .body tag inner => ((h.openBody tag).block inner).closeBody tag
  | .function _ _ _ inner =>
    ((((h.count _).openBody _).block inner).closeBody _).emit _
  | .typeDef _ _ inner =>
    ((((h.count _).openBody _).block inner).closeBody _).emit _
  | .protect _ inner handler cleanup =>
    have guarded := (((h.count _).emit _).openBody _).block inner
    ((guarded.closeBody _).part? _ handler).part? _ cleanup
  | .forEach _ iterable inner =>
    have head := (((h.count _).count _).emit _).block iterable
    have items := ((((head.emit _).label _).emit _).emit _).block inner
    ((items.emit _).label _).emit _

theorem Grows.block {a b : Assembler} (h : Grows a b) : ∀ l, Grows a (b.block l)
  | [] => h
  | s :: rest => (h.statement s).block rest

theorem Grows.part? {a b : Assembler} (h : Grows a b) (tag : String) :
    ∀ part, Grows a (b.part? tag part)
  | none => h
  | some inner => ((h.openBody tag).block inner).closeBody tag

end

/-! ### What is laid out does not depend on what stands before it -/

/-- The assembler with instructions in front of what it has laid out. -/
def behind (a : Assembler) (before : Array Instruction) : Assembler :=
  { a with emitted := before ++ a.emitted }

@[simp] theorem labels_behind (a : Assembler) (before : Array Instruction) :
    (a.behind before).labels = a.labels := rfl

theorem emit_behind (a : Assembler) (before : Array Instruction) (op : Opcode) :
    (a.behind before).emit op = (a.emit op).behind before := by
  simp only [emit, behind, Array.append_push]

theorem label_behind (a : Assembler) (before : Array Instruction) (tag : String) :
    (a.behind before).label tag = (a.label tag).behind before := by
  by_cases waiting : a.pendingTag.isSome <;>
    simp only [label, behind, emit, waiting, Array.append_push, if_true, if_false, Bool.false_eq_true]

theorem openBody_behind (a : Assembler) (before : Array Instruction) (tag : String) :
    (a.behind before).openBody tag = (a.openBody tag).behind before := by
  rw [openBody, label_behind, emit_behind, openBody]

theorem closeBody_behind (a : Assembler) (before : Array Instruction) (tag : String) :
    (a.behind before).closeBody tag = (a.closeBody tag).behind before := by
  rw [closeBody, label_behind, emit_behind, closeBody]

theorem freshLabel_behind (a : Assembler) (before : Array Instruction) (stem : String) :
    (a.behind before).freshLabel stem =
      ((a.freshLabel stem).1, (a.freshLabel stem).2.behind before) := rfl

mutual

theorem statement_behind (a : Assembler) (before : Array Instruction) :
    ∀ s, (a.behind before).statement s = (a.statement s).behind before
  | .op _ | .int _ | .str _ | .get _ | .define _ | .operator .. => emit_behind a before _
  | .label tag => label_behind a before tag
  | .fresh stem => emit_behind (a.freshLabel stem).2 before _
  | .body tag inner => by
    simp only [statement, openBody_behind, block_behind _ before inner, closeBody_behind]
  | .function _ _ _ inner | .typeDef _ _ inner => by
    simp only [statement, freshLabel_behind, openBody_behind, block_behind _ before inner,
      closeBody_behind, emit_behind]
  | .protect _ inner handler cleanup => by
    simp only [statement, freshLabel_behind, emit_behind, openBody_behind,
      block_behind _ before inner, closeBody_behind, part?_behind _ before _ handler,
      part?_behind _ before _ cleanup]
  | .forEach _ iterable inner => by
    simp only [statement, freshLabel_behind, emit_behind, label_behind,
      block_behind _ before iterable, block_behind _ before inner]

theorem block_behind (a : Assembler) (before : Array Instruction) :
    ∀ l, (a.behind before).block l = (a.block l).behind before
  | [] => rfl
  | s :: rest => by
    simp only [block, statement_behind a before s, block_behind _ before rest]

theorem part?_behind (a : Assembler) (before : Array Instruction) (tag : String) :
    ∀ part, (a.behind before).part? tag part = (a.part? tag part).behind before
  | none => rfl
  | some inner => by
    simp only [part?, openBody_behind, block_behind _ before inner, closeBody_behind]

end

/-- The code that statements lay out on their own, after some labels were handed out. -/
def laidOut (labels : Nat) (l : List Statement) : Code := (block ⟨#[], none, labels⟩ l).finish

theorem emitted_label (a : Assembler) (tag : String) :
    (a.label tag).emitted = a.finish.instructions := by
  by_cases waiting : a.pendingTag.isSome <;> simp [label, finish, waiting]

theorem pendingTag_label (a : Assembler) (tag : String) : (a.label tag).pendingTag = some tag := rfl

/-- The assembler after a body. -/
def enclose (a : Assembler) (tag : String) (inner : List Statement) : Assembler :=
  ((a.openBody tag).block inner).closeBody tag

/-- A body is its opening bracket, what it encloses and its closing bracket. -/
theorem enclose_eq (a : Assembler) (tag : String) (inner : List Statement) :
    a.enclose tag inner =
      ⟨(a.finish.instructions.push ⟨.bodyStart (closingTag tag), some tag⟩ ++
          (laidOut a.labels inner).instructions).push ⟨.bodyEnd, some (closingTag tag)⟩,
        none, (block ⟨#[], none, a.labels⟩ inner).labels⟩ := by
  have opened : a.openBody tag = behind ⟨#[], none, a.labels⟩
      (a.finish.instructions.push ⟨.bodyStart (closingTag tag), some tag⟩) := by
    simp only [openBody, emit, behind, emitted_label, pendingTag_label, labels_label,
      Array.append_empty]
  rw [enclose, opened, block_behind, closeBody_behind]
  simp only [closeBody, emit, behind, emitted_label, pendingTag_label, labels_label, laidOut,
    Array.append_push]

/-! ### Places in the finished code -/

/-- What is laid out stays where it is. -/
theorem Grows.emitted_at {a b : Assembler} (h : Grows a b) {i : Nat} {x : Instruction}
    (hi : a.emitted[i]? = some x) : b.emitted[i]? = some x := by
  have push_at {l : Array Instruction} {y : Instruction} (hl : l[i]? = some x) :
      (l.push y)[i]? = some x := by
    have inside := (Array.getElem?_eq_some_iff.mp hl).1
    rw [Array.getElem?_push_lt inside, ← hl, Array.getElem?_eq_getElem inside]
  induction h with
  | refl => exact hi
  | emit op _ ih => exact push_at ih
  | @label b tag _ ih =>
    by_cases waiting : b.pendingTag.isSome
    · simpa [Assembler.label, Assembler.emit, waiting] using push_at ih
    · simpa [Assembler.label, waiting] using ih
  | count _ _ ih => exact ih

theorem at_finish {a : Assembler} {i : Nat} {x : Instruction} (hi : a.emitted[i]? = some x) :
    a.finish.at? i = some x := by
  by_cases waiting : a.pendingTag.isSome
  · simpa [finish, waiting, Code.at?] using (Grows.refl.emit .nop).emitted_at hi
  · simpa [finish, waiting, Code.at?] using hi

theorem Grows.at_emit {a b : Assembler} {op : Opcode} (h : Grows (a.emit op) b) :
    b.finish.at? a.emitted.size = some ⟨op, a.pendingTag⟩ :=
  at_finish (h.emitted_at (by simp [Assembler.emit]))

/-- A tag that waits is put on the next instruction, whatever that is. -/
theorem Grows.waiting {a b : Assembler} (h : Grows a b) {tag : String}
    (waiting : a.pendingTag = some tag) :
    (b.emitted = a.emitted ∧ b.pendingTag = some tag) ∨
      ∃ op, b.emitted[a.emitted.size]? = some ⟨op, some tag⟩ := by
  induction h with
  | refl => exact .inl ⟨rfl, waiting⟩
  | @emit b op before ih =>
    right
    rcases ih with ⟨same, waits⟩ | ⟨op', placed⟩
    · exact ⟨op, by simp [Assembler.emit, same, waits]⟩
    · exact ⟨op', (Grows.refl.emit op).emitted_at placed⟩
  | @label b other before ih =>
    right
    rcases ih with ⟨same, waits⟩ | ⟨op', placed⟩
    · exact ⟨.nop, by simp [Assembler.label, Assembler.emit, same, waits]⟩
    · exact ⟨op', (Grows.refl.label other).emitted_at placed⟩
  | count _ _ ih => exact ih

/-- A label marks the place where the assembler stood when it was set. -/
theorem Grows.at_label {a b : Assembler} {tag : String} (h : Grows (a.label tag) b) :
    ∃ op, b.finish.at? a.finish.size = some ⟨op, some tag⟩ := by
  have here : (a.label tag).emitted.size = a.finish.size := by
    rw [emitted_label, Code.size]
  rcases h.waiting rfl with ⟨same, waits⟩ | ⟨op, placed⟩
  · refine ⟨.nop, ?_⟩
    rw [← here, ← same]
    simp [finish, waits, Assembler.emit, Code.at?]
  · exact ⟨op, here ▸ at_finish placed⟩

/-- A body laid out in code that is unambiguous in the end stands there. -/
theorem Grows.brackets {a b : Assembler} {tag : String} {inner : List Statement}
    (h : Grows (a.enclose tag inner) b) (apart : b.finish.tags.Nodup) :
    b.finish.Brackets tag a.finish.size (laidOut a.labels inner) := by
  have placed {i : Nat} {x : Instruction} (hi : (a.enclose tag inner).emitted[i]? = some x) : b.finish.at? i = some x := at_finish (h.emitted_at hi)
  rw [enclose_eq] at placed
  apply Code.brackets_of_at apart
  · apply placed
    simp [Array.getElem?_append, Code.size]
  · apply placed
    have last : a.finish.size + 1 + (laidOut a.labels inner).size =
        (a.finish.instructions.push ⟨.bodyStart (closingTag tag), some tag⟩ ++
          (laidOut a.labels inner).instructions).size := by
      simp [Code.size]
    rw [last, Array.getElem?_push_size]
  · apply Code.slice_eq
    intro i x hi
    apply placed
    have inside := (Array.getElem?_eq_some_iff.mp hi).1
    have offset : a.finish.size + 1 + i -
        (a.finish.instructions.push ⟨.bodyStart (closingTag tag), some tag⟩).size = i := by
      simp only [Code.size, Array.size_push]
      omega
    rw [Array.getElem?_push_lt (by simp [Code.size]; omega), ← Array.getElem?_eq_getElem,
      Array.getElem?_append_right (by simp [Code.size]), offset]
    exact hi

/-! ### The layout of a script -/

mutual

/-- A statement stands in the code from where the assembler stood before it. Bodies and sections are
found by their tags from the places that name them, with what their own statements lay out, and in
those again every statement stands; labels mark where the assembler stood; a loop goes on at its
head and at its end. -/
def Placed (c : Code) (a : Assembler) : Statement → Prop
  | .op op => c.at? a.emitted.size = some ⟨op, a.pendingTag⟩
  | .label tag => c.findTag? tag = some a.finish.size
  | .fresh stem => c.at? a.emitted.size = some ⟨.pushStr (a.freshLabel stem).1, a.pendingTag⟩
  | .int value => c.at? a.emitted.size = some ⟨.pushInt value, a.pendingTag⟩
  | .str value => c.at? a.emitted.size = some ⟨.pushStr value, a.pendingTag⟩
  | .get name => c.at? a.emitted.size = some ⟨.getVar name, a.pendingTag⟩
  | .define name => c.at? a.emitted.size = some ⟨.defineVar name, a.pendingTag⟩
  | .operator name argc => c.at? a.emitted.size = some ⟨.operator name argc, a.pendingTag⟩
  | .body tag inner =>
    c.Brackets tag a.finish.size (laidOut a.labels inner) ∧
      AllPlaced (laidOut a.labels inner) ⟨#[], none, a.labels⟩ inner
  | .function name params generator inner =>
    let tag := labelled ("fn." ++ name) (a.labels + 1)
    let body := laidOut (a.labels + 1) inner
    c.Brackets tag a.finish.size body ∧
      c.at? (a.finish.size + body.size + 2) =
        some ⟨.makeFunction name tag params generator, none⟩ ∧
      AllPlaced body ⟨#[], none, a.labels + 1⟩ inner
  | .typeDef name parents inner =>
    let tag := labelled ("class." ++ name) (a.labels + 1)
    let body := laidOut (a.labels + 1) inner
    c.Brackets tag a.finish.size body ∧
      c.at? (a.finish.size + body.size + 2) = some ⟨.makeClass name tag parents, none⟩ ∧
      AllPlaced body ⟨#[], none, a.labels + 1⟩ inner
  | .protect binding inner handler cleanup =>
    let tag := labelled "try" (a.labels + 1)
    let opened := emit { a with labels := a.labels + 1 } (.tryBlock tag binding)
    let guarded := opened.enclose (tag ++ ".try") inner
    let handled := guarded.part? (tag ++ ".catch") handler
    let finished := handled.part? (tag ++ ".finally") cleanup
    c.at? a.emitted.size = some ⟨.tryBlock tag binding, a.pendingTag⟩ ∧
      (∀ f : Frame, f.code = c → f.ip = a.emitted.size →
        Sections.find? f tag = some
          { guarded := laidOut opened.labels inner
            handler := handler.map (laidOut guarded.labels)
            cleanup := cleanup.map (laidOut handled.labels)
            next := finished.emitted.size }) ∧
      c.Brackets (tag ++ ".try") opened.finish.size (laidOut opened.labels inner) ∧
      AllPlaced (laidOut opened.labels inner) ⟨#[], none, opened.labels⟩ inner ∧
      PartPlaced c guarded (tag ++ ".catch") handler ∧
      PartPlaced c handled (tag ++ ".finally") cleanup
  | .forEach name iterable inner =>
    let head := labelled "loop" (a.labels + 1)
    let done := labelled "loop.done" (a.labels + 2)
    let opened := emit { a with labels := a.labels + 2 } (.getVar "iter")
    let items := opened.block iterable
    let looping := (((items.emit (.call 1)).label head).emit (.iterNext done)).emit (.defineVar name)
    let stop := looping.block inner
    c.at? a.emitted.size = some ⟨.getVar "iter", a.pendingTag⟩ ∧
      AllPlaced c opened iterable ∧
      c.at? items.emitted.size = some ⟨.call 1, items.pendingTag⟩ ∧
      c.at? (items.emitted.size + 1) = some ⟨.iterNext done, some head⟩ ∧
      c.at? (items.emitted.size + 2) = some ⟨.defineVar name, none⟩ ∧
      AllPlaced c looping inner ∧
      c.at? stop.emitted.size = some ⟨.jump head, stop.pendingTag⟩ ∧
      c.at? (stop.emitted.size + 1) = some ⟨.nop, some done⟩ ∧
      ∀ f : Frame, f.code = c →
        Engine.target f head = pure (items.emitted.size + 1) ∧
        Engine.target f done = pure (stop.emitted.size + 1)

/-- Statements stand in the code one after another. -/
def AllPlaced (c : Code) (a : Assembler) : List Statement → Prop
  | [] => True
  | s :: rest => Placed c a s ∧ AllPlaced c (a.statement s) rest

/-- A section stands in the code, if there is one. -/
def PartPlaced (c : Code) (a : Assembler) (tag : String) : Option (List Statement) → Prop
  | none => True
  | some inner =>
    c.Brackets tag a.finish.size (laidOut a.labels inner) ∧
      AllPlaced (laidOut a.labels inner) ⟨#[], none, a.labels⟩ inner

end

theorem size_enclose (a : Assembler) (tag : String) (inner : List Statement) :
    (a.enclose tag inner).emitted.size = a.finish.size + (laidOut a.labels inner).size + 2 := by
  rw [enclose_eq]
  simp only [Array.size_push, Array.size_append, Code.size]
  omega

theorem finish_of_untagged {a : Assembler} (h : a.pendingTag = none) :
    a.finish = ⟨a.emitted⟩ := by
  simp [finish, h]

theorem finish_count (a : Assembler) (labels : Nat) : { a with labels }.finish = a.finish := by
  by_cases waiting : a.pendingTag.isSome <;> simp [finish, emit, waiting]

theorem tags_laidOut (n : Nat) (l : List Statement) : (laidOut n l).tags = allMarks n l := by
  rw [laidOut, ← tags, tags_block]
  rfl

/-- Labels handed out while statements are laid out are used for these statements only. -/
def Keeps (c : Code) (n count : Nat) (laid : List String) : Prop :=
  ∀ tag ∈ c.tags, ∀ m, Stamped m tag → n < m → m ≤ n + count → tag ∈ laid

theorem Keeps.laidOut (n : Nat) (l : List Statement) :
    Keeps (laidOut n l) n (handedOutAll l) (allMarks n l) := by
  intro tag at_ _ _ _ _
  rwa [tags_laidOut] at at_

/-! What labels are used for, for a part of the statements. -/

theorem Keeps.head {c : Code} {n : Nat} {s : Statement} {rest : List Statement}
    (plain : Plain (allOwnTags rest))
    (h : Keeps c n (handedOutAll (s :: rest)) (allMarks n (s :: rest))) :
    Keeps c n (handedOut s) (marks n s) := by
  intro tag at_ m stamp above below
  rcases List.mem_append.mp (h tag at_ m stamp above (by simp only [handedOutAll]; omega))
    with here | later
  · exact here
  · have := ((marked_allMarks _ rest).number_mem plain later stamp).1
    omega

theorem Keeps.rest {c : Code} {n : Nat} {s : Statement} {rest : List Statement}
    (plain : Plain (ownTags s))
    (h : Keeps c n (handedOutAll (s :: rest)) (allMarks n (s :: rest))) :
    Keeps c (n + handedOut s) (handedOutAll rest) (allMarks (n + handedOut s) rest) := by
  intro tag at_ m stamp above below
  rcases List.mem_append.mp (h tag at_ m stamp (by omega) (by simp only [handedOutAll]; omega))
    with earlier | here
  · have := ((marked_marks _ s).number_mem plain earlier stamp).2
    omega
  · exact here

section Loop

variable {c : Code} {n : Nat} {name : String} {iterable inner : List Statement}
  (h : Keeps c n (handedOut (.forEach name iterable inner)) (marks n (.forEach name iterable inner)))
include h

theorem Keeps.items (plain : Plain (allOwnTags inner)) :
    Keeps c (n + 2) (handedOutAll iterable) (allMarks (n + 2) iterable) := by
  intro tag at_ m stamp above below
  have laid := h tag at_ m stamp (by omega) (by simp only [handedOut]; omega)
  rcases mem_loop_of_stamped laid stamp above with here | later
  · exact here
  · have := ((marked_allMarks _ inner).number_mem plain later stamp).1
    omega

theorem Keeps.looped (plain : Plain (allOwnTags iterable)) :
    Keeps c (n + 2 + handedOutAll iterable) (handedOutAll inner)
      (allMarks (n + 2 + handedOutAll iterable) inner) := by
  intro tag at_ m stamp above below
  have laid := h tag at_ m stamp (by omega) (by simp only [handedOut]; omega)
  rcases mem_loop_of_stamped laid stamp (by omega) with earlier | here
  · have := ((marked_allMarks _ iterable).number_mem plain earlier stamp).2
    omega
  · exact here

end Loop

/-- A section is found by its tag if there is one, and else nothing is. -/
theorem bodyFrom?_part {a b : Assembler} (apart : b.finish.tags.Nodup) {tag : String}
    {part : Option (List Statement)} (h : Grows (a.part? tag part) b)
    (untagged : a.pendingTag = none) (absent : part = none → tag ∉ b.finish.tags) {start : Nat}
    (before : start ≤ a.emitted.size) :
    b.finish.bodyFrom? start tag = part.map fun inner =>
      ⟨a.emitted.size, a.emitted.size + 1 + (laidOut a.labels inner).size, laidOut a.labels inner⟩ := by
  cases part with
  | none => exact Code.bodyFrom?_eq_none (absent rfl) start
  | some inner =>
    have stands := h.brackets apart
    rw [finish_of_untagged untagged] at stands
    exact stands.encloses start before

theorem size_part (a : Assembler) (untagged : a.pendingTag = none) (tag : String)
    (part : Option (List Statement)) : (a.part? tag part).emitted.size =
      a.emitted.size + (part.map fun inner => (laidOut a.labels inner).size + 2).getD 0 := by
  cases part with
  | none => rfl
  | some inner =>
    exact (size_enclose a tag inner).trans (by rw [finish_of_untagged untagged]; rfl)

theorem untagged_part (a : Assembler) (untagged : a.pendingTag = none) (tag : String)
    (part : Option (List Statement)) : (a.part? tag part).pendingTag = none := by
  cases part with
  | none => exact untagged
  | some inner => rfl

/-- The sections of a protected block are found behind it, and none that it lacks. -/
theorem find?_sections {a b : Assembler} (apart : b.finish.tags.Nodup) {binding : Option String}
    {inner : List Statement} {handler cleanup : Option (List Statement)}
    (plain : Plain (ownTags (.protect binding inner handler cleanup)))
    (keeps : Keeps b.finish a.labels (handedOut (.protect binding inner handler cleanup))
      (marks a.labels (.protect binding inner handler cleanup))) :
    let tag := labelled "try" (a.labels + 1)
    let opened := emit { a with labels := a.labels + 1 } (.tryBlock tag binding)
    let guarded := opened.enclose (tag ++ ".try") inner
    let handled := guarded.part? (tag ++ ".catch") handler
    let finished := handled.part? (tag ++ ".finally") cleanup
    Grows finished b → ∀ f : Frame, f.code = b.finish → f.ip = a.emitted.size →
      Sections.find? f tag = some
        { guarded := laidOut opened.labels inner
          handler := handler.map (laidOut guarded.labels)
          cleanup := cleanup.map (laidOut handled.labels)
          next := finished.emitted.size } := by
  intro tag opened guarded handled finished h f code ip
  have toHandled : Grows handled b := (Grows.refl.part? _ cleanup).trans h
  have toGuarded : Grows guarded b := (Grows.refl.part? _ handler).trans toHandled
  have untagged : handled.pendingTag = none := untagged_part guarded rfl _ handler
  -- a section that the block lacks is not found, as its tag could only come from this block
  have stamp : Stamped (a.labels + 1) tag := stamped_labelled _ _
  have only {t : String} (at_ : t ∈ b.finish.tags) (mine : Stamped (a.labels + 1) t) :=
    mem_sections_of_stamped plain (keeps t at_ _ mine (by omega) (by simp only [handedOut]; omega))
      mine
  have noHandler : handler = none → tag ++ ".catch" ∉ b.finish.tags := by
    rintro rfl at_
    exact catch_not_mem (only at_ (stamp.append (r := "catch".toList) (by decide) (by decide)))
  have noCleanup : cleanup = none → tag ++ ".finally" ∉ b.finish.tags := by
    rintro rfl at_
    exact finally_not_mem
      (only at_ (stamp.append (r := "finally".toList) (by decide) (by decide)))
  have openedSize : opened.emitted.size = a.emitted.size + 1 := Array.size_push _
  have openedFinish : opened.finish = ⟨opened.emitted⟩ := finish_of_untagged rfl
  have guardedSize : guarded.emitted.size =
      opened.emitted.size + (laidOut opened.labels inner).size + 2 := by
    rw [size_enclose, openedFinish]
    rfl
  have handledSize : handled.emitted.size = guarded.emitted.size + _ :=
    size_part guarded rfl (tag ++ ".catch") handler
  have finishedSize : finished.emitted.size = handled.emitted.size + _ :=
    size_part handled untagged (tag ++ ".finally") cleanup
  have found := (toGuarded.brackets apart).encloses (a.emitted.size + 1)
    (by rw [openedFinish]; exact Nat.le_of_eq openedSize.symm)
  have handles := bodyFrom?_part apart toHandled rfl noHandler
    (show a.emitted.size + 1 ≤ guarded.emitted.size by omega)
  have cleans := bodyFrom?_part apart h untagged noCleanup
    (show a.emitted.size + 1 ≤ handled.emitted.size by omega)
  have name (part : String) : tag ++ "." ++ part = tag ++ ("." ++ part) := String.append_assoc
  rw [openedFinish, show (Code.mk opened.emitted).size = opened.emitted.size from rfl] at found
  simp only [Sections.find?, code, ip, name]
  rw [show "." ++ "try" = ".try" from rfl, show "." ++ "catch" = ".catch" from rfl,
    show "." ++ "finally" = ".finally" from rfl, found, handles, cleans]
  cases handler <;> cases cleanup <;>
    simp only [Option.map_none, Option.map_some, Option.getD_none, Option.getD_some, Option.some.injEq, Sections.mk.injEq, true_and] at handledSize finishedSize ⊢ <;> omega

/-- The instructions of a loop stand around what its parts lay out. -/
theorem Grows.loop {a b : Assembler} {name : String} {iterable inner : List Statement}
    (h : Grows (a.statement (.forEach name iterable inner)) b) :
    let head := labelled "loop" (a.labels + 1)
    let done := labelled "loop.done" (a.labels + 2)
    let items := (Assembler.emit { a with labels := a.labels + 2 } (.getVar "iter")).block iterable
    let looping := (((items.emit (.call 1)).label head).emit (.iterNext done)).emit (.defineVar name)
    let stop := looping.block inner
    Grows items b ∧ Grows stop b ∧
      b.finish.at? a.emitted.size = some ⟨.getVar "iter", a.pendingTag⟩ ∧
      b.finish.at? items.emitted.size = some ⟨.call 1, items.pendingTag⟩ ∧
      b.finish.at? (items.emitted.size + 1) = some ⟨.iterNext done, some head⟩ ∧
      b.finish.at? (items.emitted.size + 2) = some ⟨.defineVar name, none⟩ ∧
      b.finish.at? stop.emitted.size = some ⟨.jump head, stop.pendingTag⟩ ∧
      b.finish.at? (stop.emitted.size + 1) = some ⟨.nop, some done⟩ := by
  intro head done items looping stop
  let start := (items.emit (.call 1)).label head
  have toExit : Grows ((stop.emit (.jump head)).label done |>.emit .nop) b := h
  have toLabel : Grows ((stop.emit (.jump head)).label done) b := (Grows.refl.emit _).trans toExit
  have toJump : Grows (stop.emit (.jump head)) b := (Grows.refl.label _).trans toLabel
  have toStop : Grows stop b := (Grows.refl.emit _).trans toJump
  have toLooping : Grows looping b := (Grows.refl.block inner).trans toStop
  have toNext : Grows (start.emit (.iterNext done)) b := (Grows.refl.emit _).trans toLooping
  have toStart : Grows start b := (Grows.refl.emit _).trans toNext
  have toCall : Grows (items.emit (.call 1)) b := (Grows.refl.label _).trans toStart
  have toItems : Grows items b := (Grows.refl.emit _).trans toCall
  have toOpened : Grows (Assembler.emit { a with labels := a.labels + 2 } (.getVar "iter")) b :=
    (Grows.refl.block iterable).trans toItems
  have startSize : start.emitted.size = items.emitted.size + 1 := Array.size_push _
  have nextSize : (start.emit (.iterNext done)).emitted.size = items.emitted.size + 2 := by
    rw [show items.emitted.size + 2 = start.emitted.size + 1 by omega]
    exact Array.size_push _
  have exitSize : ((stop.emit (.jump head)).label done).emitted.size = stop.emitted.size + 1 := Array.size_push _
  have next := toNext.at_emit
  have bound := toLooping.at_emit
  have exit := toExit.at_emit
  rw [startSize] at next
  rw [nextSize] at bound
  rw [exitSize] at exit
  exact ⟨toItems, toStop, toOpened.at_emit, toCall.at_emit, next, bound, toJump.at_emit, exit⟩

mutual

theorem placed_statement {a b : Assembler} (apart : b.finish.tags.Nodup) :
    ∀ s, Plain (ownTags s) → Keeps b.finish a.labels (handedOut s) (marks a.labels s) →
      Grows (a.statement s) b → Placed b.finish a s
  | .op _, _, _, h | .int _, _, _, h | .str _, _, _, h | .get _, _, _, h | .define _, _, _, h
  | .operator .., _, _, h => h.at_emit
  | .fresh stem, _, _, h => Grows.at_emit (a := (a.freshLabel stem).2) h
  | .label tag, _, _, h => by
    obtain ⟨op, here⟩ := h.at_label
    exact Code.findTagFrom?_eq apart here rfl (Nat.zero_le _)
  | .body tag inner, plain, _, h => by
    have stands := h.brackets apart
    have own : Plain (allOwnTags inner) := fun t here => plain t (by simp [ownTags, here])
    exact ⟨stands, placed_block (stands.nodup_tags apart) inner own (Keeps.laidOut _ _) .refl⟩
  | .function name params generator inner, plain, _, h => by
    have made := h.at_emit
    have stands := ((Grows.refl.emit _).trans h).brackets apart
    rw [← enclose, size_enclose, finish_count a] at made
    rw [finish_count a] at stands
    exact ⟨stands, made,
      placed_block (stands.nodup_tags apart) inner plain (Keeps.laidOut _ _) .refl⟩
  | .typeDef name parents inner, plain, _, h => by
    have made := h.at_emit
    have stands := ((Grows.refl.emit _).trans h).brackets apart
    rw [← enclose, size_enclose, finish_count a] at made
    rw [finish_count a] at stands
    exact ⟨stands, made,
      placed_block (stands.nodup_tags apart) inner plain (Keeps.laidOut _ _) .refl⟩
  | .protect binding inner handler cleanup, plain, keeps, h => by
    have ownInner : Plain (allOwnTags inner) := fun t here => plain t (by simp [ownTags, here])
    have ownHandler : Plain (partOwnTags handler) := fun t here =>
      plain t (by simp [ownTags, here])
    have ownCleanup : Plain (partOwnTags cleanup) := fun t here =>
      plain t (by simp [ownTags, here])
    have toHandler := (Grows.refl.part? _ cleanup).trans h
    have toGuarded := (Grows.refl.part? _ handler).trans toHandler
    have toOpened := (((Grows.refl.openBody _).block inner).closeBody _).trans toGuarded
    have stands := toGuarded.brackets apart
    exact ⟨toOpened.at_emit, find?_sections apart plain keeps h, stands,
      placed_block (stands.nodup_tags apart) inner ownInner (Keeps.laidOut _ _) .refl,
      placed_part apart _ handler ownHandler toHandler,
      placed_part apart _ cleanup ownCleanup h⟩
  | .forEach name iterable inner, plain, keeps, h => by
    let opened := emit { a with labels := a.labels + 2 } (.getVar "iter")
    let items := opened.block iterable
    let head := labelled "loop" (a.labels + 1)
    let done := labelled "loop.done" (a.labels + 2)
    let looping := (((items.emit (.call 1)).label head).emit (.iterNext done)).emit (.defineVar name)
    obtain ⟨toItems, toStop, read, called, next, bound, jumped, exit⟩ := h.loop
    have ownItems : Plain (allOwnTags iterable) := fun t here => plain t (by simp [ownTags, here])
    have ownInner : Plain (allOwnTags inner) := fun t here => plain t (by simp [ownTags, here])
    have loopingLabels : looping.labels = a.labels + 2 + handedOutAll iterable := calc
      looping.labels = items.labels := labels_label _ head
      _ = opened.labels + handedOutAll iterable := labels_block opened iterable
    have looped := keeps.looped ownItems
    rw [← loopingLabels] at looped
    exact ⟨read, placed_block apart iterable ownItems (keeps.items ownInner) toItems, called, next, bound,
      placed_block apart inner ownInner looped toStop, jumped, exit, fun f code =>
        ⟨Code.target_eq apart next rfl code, Code.target_eq apart exit rfl code⟩⟩

theorem placed_block {a b : Assembler} (apart : b.finish.tags.Nodup) :
    ∀ l, Plain (allOwnTags l) → Keeps b.finish a.labels (handedOutAll l) (allMarks a.labels l) →
      Grows (a.block l) b → AllPlaced b.finish a l
  | [], _, _, _ => trivial
  | s :: rest, plain, keeps, h => by
    have own : Plain (ownTags s) := fun t here => plain t (List.mem_append_left _ here)
    have own' : Plain (allOwnTags rest) := fun t here => plain t (List.mem_append_right _ here)
    have later := keeps.rest own
    rw [← labels_statement] at later
    exact ⟨placed_statement apart s own (keeps.head own') ((Grows.refl.block rest).trans h),
      placed_block apart rest own' later h⟩

theorem placed_part {a b : Assembler} (apart : b.finish.tags.Nodup) (tag : String) :
    ∀ part, Plain (partOwnTags part) → Grows (a.part? tag part) b → PartPlaced b.finish a tag part
  | none, _, _ => trivial
  | some inner, plain, h => by
    have stands := h.brackets apart
    exact ⟨stands, placed_block (stands.nodup_tags apart) inner plain (Keeps.laidOut _ _) .refl⟩

end

end Assembler

/-- The code that a script describes agrees with how the engine looks up tags, if the tags that the
script chooses are distinct and have no `#`: every tag marks one instruction, and every statement of
the script and of its bodies stands in its section where its tags lead. -/
theorem assembled_as_found (script : List Statement)
    (distinct : (Assembler.allOwnTags script).Nodup)
    (plain : Assembler.Plain (Assembler.allOwnTags script)) :
    (assemble script).tags.Nodup ∧ Assembler.AllPlaced (assemble script) .empty script := by
  have apart : (assemble script).tags.Nodup := by
    rw [show assemble script = Assembler.laidOut 0 script from rfl, Assembler.tags_laidOut]
    exact Assembler.nodup_allMarks 0 distinct plain
  have keeps := Assembler.Keeps.laidOut 0 script
  exact ⟨apart, Assembler.placed_block apart script plain keeps .refl⟩

/-- A script with names that look like labels: a function named after the label of a loop, and a
label that only lacks the number of a class. -/
def lookalikes : List Statement :=
  [.label "class.A",
    .function "loop#2" [] true
      [.forEach "x" [.get "items"] [.get "x", .op .yieldValue], .label "last"],
    .typeDef "A" 0 [.protect none [.body "plain" [.int 1]] (some [.label "again", .op .nop]) none],
    .label "plain.en"]

theorem lookalikes_as_found :
    (Assembler.allOwnTags lookalikes).Nodup ∧ Assembler.Plain (Assembler.allOwnTags lookalikes) ∧
      (assemble lookalikes).tags.Nodup ∧
      Assembler.AllPlaced (assemble lookalikes) .empty lookalikes := by
  have distinct : (Assembler.allOwnTags lookalikes).Nodup := by decide
  have plain : Assembler.Plain (Assembler.allOwnTags lookalikes) := by
    unfold Assembler.Plain
    decide
  exact ⟨distinct, plain, assembled_as_found lookalikes distinct plain⟩

end ObjectMachine
