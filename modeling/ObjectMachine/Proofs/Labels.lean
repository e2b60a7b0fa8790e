import Mathlib.Data.List.Nodup
import ObjectMachine.Assembler
/-!
The tags of assembled code. A label that is handed out ends in its number, so it differs from every
other such label and from all tags without a `#`, whatever stems and names stand in front; hence a
script whose own tags are plain and distinct is laid out without using a tag twice.
-/
namespace ObjectMachine

/-- The tags of the instructions, in order. -/
def Code.tags (c : Code) : List String := c.toList.filterMap Instruction.tag

namespace Assembler

/-! ### Labels that were handed out -/

/-- A label as it is handed out. -/
def labelled (stem : String) (number : Nat) : String := stem ++ "#" ++ toString number

/-- Whether a tag comes from the label with the given number: the number stands behind the last
`#` and is followed by nothing or by a dot. -/
def Stamped (m : Nat) (tag : String) : Prop :=
  ∃ stem ext : List Char, tag.toList = stem ++ '#' :: (Nat.toDigits 10 m ++ ext) ∧
    '#' ∉ ext ∧ (ext = [] ∨ ∃ rest, ext = '.' :: rest)

theorem not_mem_toDigits {c : Char} (h : c.isDigit = false) (m : Nat) :
    c ∉ Nat.toDigits 10 m := by
  intro digit
  have := Nat.isDigit_of_mem_toDigits (by omega) (by omega) digit
  simp_all

/-- What stands behind the last occurrence of a character is determined by the text. -/
theorem behind_last {c : Char} {s s' t t' : List Char} (ht : c ∉ t) (ht' : c ∉ t')
    (same : s ++ c :: t = s' ++ c :: t') : t = t' := by
  rcases List.append_eq_append_iff.mp same with ⟨u, rfl, left⟩ | ⟨u, rfl, left⟩
  · cases u with
    | nil => simpa using left
    | cons d u => simp_all
  · cases u with
    | nil => simpa using left.symm
    | cons d u => simp_all

/-- A number that a dot or nothing follows is determined by the text. -/
theorem digits_before_dot {m m' : Nat} {ext ext' : List Char}
    (dot : ext = [] ∨ ∃ rest, ext = '.' :: rest) (dot' : ext' = [] ∨ ∃ rest, ext' = '.' :: rest)
    (same : Nat.toDigits 10 m ++ ext = Nat.toDigits 10 m' ++ ext') : m = m' := by
  have cut {n : Nat} {e : List Char} (h : e = [] ∨ ∃ rest, e = '.' :: rest) :
      (Nat.toDigits 10 n ++ e).takeWhile Char.isDigit = Nat.toDigits 10 n := by
    have digits : ∀ c ∈ Nat.toDigits 10 n, c.isDigit = true := fun c hc =>
      Nat.isDigit_of_mem_toDigits (by omega) (by omega) hc
    rw [List.takeWhile_append_of_pos digits]
    rcases h with rfl | ⟨rest, rfl⟩ <;> simp
  have digits : Nat.toDigits 10 m = Nat.toDigits 10 m' := by
    rw [← cut dot, same, cut dot']
  have value := congrArg (Nat.ofDigitChars 10 · 0) digits
  simpa only [Nat.ofDigitChars_toDigits (b := 10) (by omega) (by omega)] using value

theorem Stamped.unique {m m' : Nat} {tag : String} (h : Stamped m tag) (h' : Stamped m' tag) :
    m = m' := by
  obtain ⟨stem, ext, text, plain, dot⟩ := h
  obtain ⟨stem', ext', text', plain', dot'⟩ := h'
  have hash (k : Nat) : '#' ∉ Nat.toDigits 10 k := not_mem_toDigits (by decide) k
  have same : stem ++ '#' :: (Nat.toDigits 10 m ++ ext) =
      stem' ++ '#' :: (Nat.toDigits 10 m' ++ ext') := by
    rw [← text, text']
  apply digits_before_dot dot dot'
  exact behind_last (by simp [hash, plain]) (by simp [hash, plain']) same

theorem stamped_labelled (stem : String) (number : Nat) : Stamped number (labelled stem number) :=
  ⟨stem.toList, [], by simp [labelled], by simp, .inl rfl⟩

theorem Stamped.append {m : Nat} {tag suffix : String} (h : Stamped m tag) {r : List Char}
    (dotted : suffix.toList = '.' :: r) (plain : '#' ∉ r) : Stamped m (tag ++ suffix) := by
  obtain ⟨stem, ext, text, plain', dot⟩ := h
  refine ⟨stem, ext ++ suffix.toList, by simp [text], by simp [dotted, plain, plain'], .inr ?_⟩
  rcases dot with rfl | ⟨rest', rfl⟩
  · exact ⟨r, dotted⟩
  · exact ⟨_, rfl⟩

theorem Stamped.closingTag {m : Nat} {tag : String} (h : Stamped m tag) :
    Stamped m (closingTag tag) :=
  show Stamped m (tag ++ ".end") from h.append (r := "end".toList) (by decide) (by decide)

theorem Stamped.mem {m : Nat} {tag : String} (h : Stamped m tag) : '#' ∈ tag.toList := by
  obtain ⟨stem, ext, text, -, -⟩ := h
  simp [text]

/-! ### The tags of a script -/

mutual

/-- The tags that a statement chooses itself: labels, and tags of bodies with what closes them. -/
def ownTags : Statement → List String
  | .label tag => [tag]
  | .body tag inner => tag :: allOwnTags inner ++ [closingTag tag]
  | .function _ _ _ inner | .typeDef _ _ inner => allOwnTags inner
  | .protect _ inner handler cleanup =>
    allOwnTags inner ++ partOwnTags handler ++ partOwnTags cleanup
  | .forEach _ iterable inner => allOwnTags iterable ++ allOwnTags inner
  | .op _ | .fresh _ | .int _ | .str _ | .get _ | .define _ | .operator .. => []

/-- The tags that statements choose themselves. -/
def allOwnTags : List Statement → List String
  | [] => []
  | s :: rest => ownTags s ++ allOwnTags rest

/-- The tags that a section chooses itself, if there is one. -/
def partOwnTags : Option (List Statement) → List String
  | none => []
  | some inner => allOwnTags inner

end

mutual

/-- How many labels a statement takes. -/
def handedOut : Statement → Nat
  | .fresh _ => 1
  | .body _ inner => handedOutAll inner
  | .function _ _ _ inner | .typeDef _ _ inner => 1 + handedOutAll inner
  | .protect _ inner handler cleanup =>
    1 + handedOutAll inner + handedOutPart handler + handedOutPart cleanup
  | .forEach _ iterable inner => 2 + handedOutAll iterable + handedOutAll inner
  | .op _ | .label _ | .int _ | .str _ | .get _ | .define _ | .operator .. => 0

/-- How many labels statements take. -/
def handedOutAll : List Statement → Nat
  | [] => 0
  | s :: rest => handedOut s + handedOutAll rest

/-- How many labels a section takes, if there is one. -/
def handedOutPart : Option (List Statement) → Nat
  | none => 0
  | some inner => handedOutAll inner

end

/-- The tags of a body around those that it encloses. -/
def bracketed (tag : String) (inner : List String) : List String :=
  tag :: inner ++ [closingTag tag]

mutual

/-- The tags that a statement lays out after `n` labels were handed out, in order. -/
def marks (n : Nat) : Statement → List String
  | .label tag => [tag]
  | .body tag inner => bracketed tag (allMarks n inner)
  | .function name _ _ inner => bracketed (labelled ("fn." ++ name) (n + 1)) (allMarks (n + 1) inner)
  | .typeDef name _ inner => bracketed (labelled ("class." ++ name) (n + 1)) (allMarks (n + 1) inner)
  | .protect _ inner handler cleanup =>
    let tag := labelled "try" (n + 1)
    let n' := n + 1 + handedOutAll inner
    bracketed (tag ++ ".try") (allMarks (n + 1) inner) ++ partMarks n' (tag ++ ".catch") handler ++
      partMarks (n' + handedOutPart handler) (tag ++ ".finally") cleanup
  | .forEach _ iterable inner =>
    allMarks (n + 2) iterable ++ labelled "loop" (n + 1) ::
      allMarks (n + 2 + handedOutAll iterable) inner ++ [labelled "loop.done" (n + 2)]
  | .op _ | .fresh _ | .int _ | .str _ | .get _ | .define _ | .operator .. => []

/-- The tags that statements lay out, in order. -/
def allMarks (n : Nat) : List Statement → List String
  | [] => []
  | s :: rest => marks n s ++ allMarks (n + handedOut s) rest

/-- The tags that a section lays out, in order, if there is one. -/
def partMarks (n : Nat) (tag : String) : Option (List Statement) → List String
  | none => []
  | some inner => bracketed tag (allMarks n inner)

end

/-! ### The assembler lays out these tags -/

theorem freshLabel_eq (a : Assembler) (stem : String) :
    a.freshLabel stem = (labelled stem (a.labels + 1), { a with labels := a.labels + 1 }) := rfl

@[simp] theorem labels_emit (a : Assembler) (op : Opcode) : (a.emit op).labels = a.labels := rfl

@[simp] theorem labels_label (a : Assembler) (tag : String) : (a.label tag).labels = a.labels := by
  by_cases waiting : a.pendingTag.isSome <;> simp [label, waiting]

@[simp] theorem labels_openBody (a : Assembler) (tag : String) :
    (a.openBody tag).labels = a.labels := a.labels_label tag

@[simp] theorem labels_closeBody (a : Assembler) (tag : String) :
    (a.closeBody tag).labels = a.labels := a.labels_label (closingTag tag)

mutual

theorem labels_statement (a : Assembler) :
    ∀ s, (a.statement s).labels = a.labels + handedOut s
  | .op _ | .int _ | .str _ | .get _ | .define _ | .operator .. | .fresh _ => rfl
  | .label tag => labels_label a tag
  | .body tag inner => by
    simp only [statement, handedOut, labels_closeBody, labels_block _ inner, labels_openBody]
  | .function _ _ _ inner | .typeDef _ _ inner => by
    simp only [statement, handedOut, freshLabel_eq, labels_emit, labels_closeBody,
      labels_block _ inner, labels_openBody]
    omega
  | .protect _ inner handler cleanup => by
    simp only [statement, handedOut, freshLabel_eq, labels_part _ _ cleanup,
      labels_part _ _ handler, labels_closeBody, labels_block _ inner, labels_openBody, labels_emit]
    omega
  | .forEach _ iterable inner => by
    simp only [statement, handedOut, freshLabel_eq, labels_emit, labels_label,
      labels_block _ iterable, labels_block _ inner]
    omega

theorem labels_block (a : Assembler) :
    ∀ l, (a.block l).labels = a.labels + handedOutAll l
  | [] => rfl
  | s :: rest => by
    simp only [block, handedOutAll, labels_block _ rest, labels_statement a s]
    omega

theorem labels_part (a : Assembler) (tag : String) :
    ∀ part, (a.part? tag part).labels = a.labels + handedOutPart part
  | none => rfl
  | some inner => by
    simp only [part?, handedOutPart, labels_closeBody, labels_block _ inner, labels_openBody]

end

/-- The tags laid out so far, and the one that waits. -/
def tags (a : Assembler) : List String := a.finish.tags

@[simp] theorem tags_emit (a : Assembler) (op : Opcode) : (a.emit op).tags = a.tags := by
  cases waiting : a.pendingTag <;> simp [tags, Code.tags, Code.toList, finish, emit, waiting]

@[simp] theorem tags_label (a : Assembler) (tag : String) :
    (a.label tag).tags = a.tags ++ [tag] := by
  cases waiting : a.pendingTag <;>
    simp [tags, Code.tags, Code.toList, finish, label, emit, waiting]

@[simp] theorem tags_count (a : Assembler) (labels : Nat) : { a with labels }.tags = a.tags := by
  cases waiting : a.pendingTag <;> simp [tags, Code.tags, Code.toList, finish, emit, waiting]

@[simp] theorem tags_openBody (a : Assembler) (tag : String) :
    (a.openBody tag).tags = a.tags ++ [tag] := by
  rw [openBody, tags_emit, tags_label]

@[simp] theorem tags_closeBody (a : Assembler) (tag : String) :
    (a.closeBody tag).tags = a.tags ++ [closingTag tag] := by
  rw [closeBody, tags_emit, tags_label]

mutual

theorem tags_statement (a : Assembler) : ∀ s, (a.statement s).tags = a.tags ++ marks a.labels s
  | .op _ | .int _ | .str _ | .get _ | .define _ | .operator .. => by
    simp only [statement, tags_emit, marks, List.append_nil]
  | .fresh _ => by
    simp only [statement, freshLabel_eq, tags_emit, tags_count, marks, List.append_nil]
  | .label tag => tags_label a tag
  | .body tag inner => by
    simp [statement, tags_block _ inner, marks, bracketed]
  | .function _ _ _ inner | .typeDef _ _ inner => by
    simp [statement, freshLabel_eq, tags_block _ inner, marks, bracketed]
  | .protect _ inner handler cleanup => by
    simp [statement, freshLabel_eq, tags_block _ inner, labels_block _ inner,
      tags_part _ _ handler, labels_part _ _ handler, tags_part _ _ cleanup, marks, bracketed]
  | .forEach _ iterable inner => by
    simp [statement, freshLabel_eq, tags_block _ iterable, labels_block _ iterable,
      tags_block _ inner, marks]

theorem tags_block (a : Assembler) : ∀ l, (a.block l).tags = a.tags ++ allMarks a.labels l
  | [] => by simp only [block, allMarks, List.append_nil]
  | s :: rest => by
    simp only [block, allMarks, tags_block _ rest, tags_statement a s, labels_statement,
      List.append_assoc]

theorem tags_part (a : Assembler) (tag : String) :
    ∀ part, (a.part? tag part).tags = a.tags ++ partMarks a.labels tag part
  | none => by simp only [part?, partMarks, List.append_nil]
  | some inner => by
    simp [part?, partMarks, tags_block _ inner, bracketed]

end

/-! ### No two of these tags agree -/

/-- Tags laid out while `count` labels are handed out after `n`: those that are given, which no
label handed out meanwhile agrees with, and labels handed out meanwhile. -/
structure Marked (n count : Nat) (given laid : List String) : Prop where
  mem : ∀ tag ∈ laid, tag ∈ given ∨ ∃ m, n < m ∧ m ≤ n + count ∧ Stamped m tag
  nodup : given.Nodup → (∀ tag ∈ given, ∀ m, Stamped m tag → m ≤ n) → laid.Nodup

theorem Marked.nil (n count : Nat) : Marked n count [] [] :=
  ⟨fun _ h => absurd h List.not_mem_nil, fun _ _ => List.nodup_nil⟩

theorem Marked.single (n : Nat) (tag : String) : Marked n 0 [tag] [tag] :=
  ⟨fun _ h => .inl h, fun distinct _ => distinct⟩

theorem Marked.append {n count count' : Nat} {given given' laid laid' : List String}
    (h : Marked n count given laid) (h' : Marked (n + count) count' given' laid') :
    Marked n (count + count') (given ++ given') (laid ++ laid') := by
  refine ⟨fun tag at_ => ?_, fun distinct older => ?_⟩
  · rcases List.mem_append.mp at_ with first | second
    · rcases h.mem tag first with here | ⟨m, above, below, stamp⟩
      · exact .inl (List.mem_append_left _ here)
      · exact .inr ⟨m, above, by omega, stamp⟩
    · rcases h'.mem tag second with here | ⟨m, above, below, stamp⟩
      · exact .inl (List.mem_append_right _ here)
      · exact .inr ⟨m, by omega, by omega, stamp⟩
  · obtain ⟨distinct, distinct', apart⟩ := List.nodup_append.mp distinct
    have old : ∀ tag ∈ given, ∀ m, Stamped m tag → m ≤ n := fun tag here =>
      older tag (List.mem_append_left _ here)
    have old' : ∀ tag ∈ given', ∀ m, Stamped m tag → m ≤ n := fun tag here =>
      older tag (List.mem_append_right _ here)
    refine List.nodup_append.mpr ⟨h.nodup distinct old,
      h'.nodup distinct' fun tag here m stamp => Nat.le_trans (old' tag here m stamp) (by omega), ?_⟩
    rintro tag first _ second rfl
    rcases h.mem tag first with here | ⟨m, above, below, stamp⟩ <;>
      rcases h'.mem tag second with here' | ⟨m', above', below', stamp'⟩
    · exact apart tag here tag here' rfl
    · have := old tag here m' stamp'
      omega
    · have := old' tag here' m stamp
      omega
    · have := stamp.unique stamp'
      omega

theorem Marked.enclose {n count : Nat} {given laid : List String} (h : Marked n count given laid)
    (tag : String) : Marked n count (bracketed tag given) (bracketed tag laid) := by
  have opened := (Marked.single n tag).append h
  simpa [bracketed] using opened.append (Marked.single _ (closingTag tag))

/-- Tags of labels that are handed out first need not be given. -/
theorem Marked.handOut {n n' count : Nat} {taken own given laid : List String}
    (h : Marked n' count given laid) (same : given.Perm (taken ++ own)) (distinct : taken.Nodup)
    (stamped : ∀ tag ∈ taken, ∃ m, n < m ∧ m ≤ n' ∧ Stamped m tag) (later : n ≤ n') :
    Marked n (n' - n + count) own laid := by
  refine ⟨fun tag at_ => ?_, fun nodup older => h.nodup ?_ fun tag here m stamp => ?_⟩
  · rcases h.mem tag at_ with here | ⟨m, above, below, stamp⟩
    · rcases List.mem_append.mp (same.mem_iff.mp here) with fresh | mine
      · obtain ⟨m, above, below, stamp⟩ := stamped tag fresh
        exact .inr ⟨m, above, by omega, stamp⟩
      · exact .inl mine
    · exact .inr ⟨m, by omega, by omega, stamp⟩
  · refine same.nodup_iff.mpr (List.nodup_append.mpr ⟨distinct, nodup, ?_⟩)
    rintro tag fresh _ mine rfl
    obtain ⟨m, above, -, stamp⟩ := stamped tag fresh
    have := older tag mine m stamp
    omega
  · rcases List.mem_append.mp (same.mem_iff.mp here) with fresh | mine
    · obtain ⟨m', -, below, stamp'⟩ := stamped tag fresh
      rw [stamp.unique stamp']
      exact below
    · exact Nat.le_trans (older tag mine m stamp) later

theorem bracketed_perm (tag : String) (inner : List String) :
    (bracketed tag inner).Perm ([tag, closingTag tag] ++ inner) :=
  .cons tag (show (inner ++ [closingTag tag]).Perm ([closingTag tag] ++ inner) from
    List.perm_append_comm)

theorem perm_interleave {α : Type} {l l' first first' second second' : List α}
    (h : l.Perm (first ++ second)) (h' : l'.Perm (first' ++ second')) :
    (l ++ l').Perm (first ++ first' ++ (second ++ second')) := by
  refine (h.append h').trans ?_
  simp only [List.append_assoc, List.perm_append_left_iff]
  simp only [← List.append_assoc, List.perm_append_right_iff]
  exact List.perm_append_comm

theorem closingTag_ne (tag : String) : tag ≠ closingTag tag := by
  intro same
  have := congrArg (fun t : String => t.toList.length) same
  simp [closingTag] at this

/-- A body under a label of its own. -/
theorem Marked.named {n count : Nat} {own laid : List String} (h : Marked (n + 1) count own laid)
    (stem : String) : Marked n (1 + count) own (bracketed (labelled stem (n + 1)) laid) := by
  have stamp := stamped_labelled stem (n + 1)
  have marked := (h.enclose (labelled stem (n + 1))).handOut (n := n)
    (bracketed_perm _ own) (by simp [closingTag_ne])
    (by simpa using ⟨⟨n + 1, by omega, by omega, stamp⟩, n + 1, by omega, by omega, stamp.closingTag⟩)
    (by omega)
  simpa using marked

/-- The tags of a section, if there is one. -/
def partTags (tag : String) : Option (List Statement) → List String
  | none => []
  | some _ => [tag, closingTag tag]

/-- What is given to the tags of a section, if there is one. -/
def partGiven (tag : String) : Option (List Statement) → List String
  | none => []
  | some inner => bracketed tag (allOwnTags inner)

theorem partGiven_perm (tag : String) :
    ∀ part, (partGiven tag part).Perm (partTags tag part ++ partOwnTags part)
  | none => .refl _
  | some inner => bracketed_perm tag (allOwnTags inner)

theorem partTags_sublist (tag : String) :
    ∀ part, (partTags tag part).Sublist [tag, closingTag tag]
  | none => List.nil_sublist _
  | some _ => List.Sublist.refl _

/-- The tags of all sections that a protected block may have. -/
def sectionTags (tag : String) : List String :=
  [".try", ".try.end", ".catch", ".catch.end", ".finally", ".finally.end"].map (tag ++ ·)

theorem nodup_sectionTags (tag : String) : (sectionTags tag).Nodup := by
  refine List.Nodup.map ?_ (by decide)
  intro suffix suffix' same
  exact (String.append_right_inj tag).mp same

theorem stamped_sectionTags {m : Nat} {tag : String} (h : Stamped m tag) :
    ∀ t ∈ sectionTags tag, Stamped m t := by
  intro t at_
  simp only [sectionTags, List.map_cons, List.map_nil, List.mem_cons, List.not_mem_nil,
    or_false] at at_
  rcases at_ with rfl | rfl | rfl | rfl | rfl | rfl
  · exact h.append (r := "try".toList) (by decide) (by decide)
  · exact h.append (r := "try.end".toList) (by decide) (by decide)
  · exact h.append (r := "catch".toList) (by decide) (by decide)
  · exact h.append (r := "catch.end".toList) (by decide) (by decide)
  · exact h.append (r := "finally".toList) (by decide) (by decide)
  · exact h.append (r := "finally.end".toList) (by decide) (by decide)

theorem tags_sublist_sectionTags (tag : String) (handler cleanup : Option (List Statement)) :
    ([tag ++ ".try", closingTag (tag ++ ".try")] ++ partTags (tag ++ ".catch") handler ++
      partTags (tag ++ ".finally") cleanup).Sublist (sectionTags tag) := by
  have all : sectionTags tag = [tag ++ ".try", closingTag (tag ++ ".try")] ++
      [tag ++ ".catch", closingTag (tag ++ ".catch")] ++
      [tag ++ ".finally", closingTag (tag ++ ".finally")] := by
    simp [sectionTags, closingTag, String.append_assoc]
  rw [all]
  exact ((List.Sublist.refl _).append (partTags_sublist _ handler)).append
    (partTags_sublist _ cleanup)

mutual

theorem marked_marks (n : Nat) : ∀ s, Marked n (handedOut s) (ownTags s) (marks n s)
  | .op _ | .fresh _ | .int _ | .str _ | .get _ | .define _ | .operator .. => .nil n _
  | .label tag => .single n tag
  | .body tag inner => (marked_allMarks n inner).enclose tag
  | .function name _ _ inner => (marked_allMarks (n + 1) inner).named ("fn." ++ name)
  | .typeDef name _ inner => (marked_allMarks (n + 1) inner).named ("class." ++ name)
  | .protect _ inner handler cleanup => by
    have stamp := stamped_sectionTags (stamped_labelled "try" (n + 1))
    have fits := tags_sublist_sectionTags (labelled "try" (n + 1)) handler cleanup
    have guarded := (marked_allMarks (n + 1) inner).enclose (labelled "try" (n + 1) ++ ".try")
    have sections := (guarded.append (marked_partMarks _ (labelled "try" (n + 1) ++ ".catch")
      handler)).append (marked_partMarks _ (labelled "try" (n + 1) ++ ".finally") cleanup)
    have given := perm_interleave (perm_interleave
      (bracketed_perm (labelled "try" (n + 1) ++ ".try") (allOwnTags inner))
      (partGiven_perm (labelled "try" (n + 1) ++ ".catch") handler))
      (partGiven_perm (labelled "try" (n + 1) ++ ".finally") cleanup)
    have marked := sections.handOut (n := n) given ((nodup_sectionTags _).sublist fits)
      (fun tag at_ => ⟨n + 1, by omega, by omega, stamp tag (fits.subset at_)⟩) (by omega)
    simpa [handedOut, ownTags, marks, Nat.add_assoc] using marked
  | .forEach _ iterable inner => by
    have start := stamped_labelled "loop" (n + 1)
    have stop := stamped_labelled "loop.done" (n + 2)
    have items := (marked_allMarks (n + 2) iterable).append
      ((Marked.single _ (labelled "loop" (n + 1))).append (marked_allMarks _ inner))
    have whole := items.append (.single _ (labelled "loop.done" (n + 2)))
    have apart : labelled "loop" (n + 1) ≠ labelled "loop.done" (n + 2) := by
      intro same
      have := start.unique (same ▸ stop)
      omega
    have given := perm_interleave (perm_interleave (.refl ([] ++ allOwnTags iterable))
      (.refl ([labelled "loop" (n + 1)] ++ allOwnTags inner)))
      (.refl ([labelled "loop.done" (n + 2)] ++ []))
    have marked := whole.handOut (n := n) given (by simp [apart])
      (by simpa using ⟨⟨n + 1, by omega, by omega, start⟩, n + 2, by omega, by omega, stop⟩)
      (by omega)
    simpa [handedOut, ownTags, marks, Nat.add_assoc] using marked

theorem marked_allMarks (n : Nat) :
    ∀ l, Marked n (handedOutAll l) (allOwnTags l) (allMarks n l)
  | [] => .nil n _
  | s :: rest => (marked_marks n s).append (marked_allMarks _ rest)

theorem marked_partMarks (n : Nat) (tag : String) :
    ∀ part, Marked n (handedOutPart part) (partGiven tag part) (partMarks n tag part)
  | none => .nil n _
  | some inner => (marked_allMarks n inner).enclose tag

end

/-- Tags without a `#`. -/
def Plain (tags : List String) : Prop := ∀ tag ∈ tags, '#' ∉ tag.toList

theorem Marked.number_mem {n count : Nat} {given laid : List String}
    (h : Marked n count given laid) (plain : Plain given) {tag : String} (at_ : tag ∈ laid) {m : Nat}
    (stamp : Stamped m tag) : n < m ∧ m ≤ n + count := by
  rcases h.mem tag at_ with here | ⟨m', above, below, stamp'⟩
  · exact absurd stamp.mem (plain tag here)
  · rw [stamp.unique stamp']
    exact ⟨above, below⟩

/-- A script whose own tags are plain and distinct uses no tag twice. -/
theorem nodup_allMarks (n : Nat) {l : List Statement} (distinct : (allOwnTags l).Nodup)
    (plain : Plain (allOwnTags l)) : (allMarks n l).Nodup :=
  (marked_allMarks n l).nodup distinct fun tag here _ stamp => absurd stamp.mem (plain tag here)

/-- The label of a protected block is only used for the sections that the block has. -/
theorem mem_sections_of_stamped {n : Nat} {binding : Option String} {inner : List Statement}
    {handler cleanup : Option (List Statement)}
    (plain : Plain (ownTags (.protect binding inner handler cleanup))) {tag : String}
    (at_ : tag ∈ marks n (.protect binding inner handler cleanup)) (stamp : Stamped (n + 1) tag) :
    tag ∈ [labelled "try" (n + 1) ++ ".try", closingTag (labelled "try" (n + 1) ++ ".try")] ++
      partTags (labelled "try" (n + 1) ++ ".catch") handler ++
      partTags (labelled "try" (n + 1) ++ ".finally") cleanup := by
  have inner_not : tag ∉ allMarks (n + 1) inner := fun inside => by
    have := (marked_allMarks (n + 1) inner).number_mem
      (fun t own => plain t (by simp [ownTags, own])) inside stamp
    omega
  have part_not {k : Nat} {name : String} {part : Option (List Statement)} (after : n + 1 ≤ k)
      (own : Plain (partOwnTags part)) (inside : tag ∈ partMarks k name part) :
      tag ∈ partTags name part := by
    cases part with
    | none => exact inside
    | some block =>
      simp only [partMarks, bracketed, List.cons_append, List.mem_cons, List.mem_append,
        List.not_mem_nil, or_false] at inside
      rcases inside with rfl | inside | rfl
      · simp [partTags]
      · have := (marked_allMarks k block).number_mem own inside stamp
        omega
      · simp [partTags]
  simp only [marks, bracketed, List.mem_append, List.mem_cons, List.not_mem_nil, or_false,
    List.cons_append] at at_ ⊢
  rcases at_ with rfl | ((inside | rfl) | handles) | cleans
  · simp
  · exact absurd inside inner_not
  · simp
  · have := part_not (by omega) (fun t own => plain t (by simp [ownTags, own])) handles
    simp [this]
  · have := part_not (by omega) (fun t own => plain t (by simp [ownTags, own])) cleans
    simp [this]

/-- The label of a loop is used for the loop only, and not in its items or its own statements. -/
theorem mem_loop_of_stamped {n m : Nat} {name tag : String} {iterable inner : List Statement}
    (at_ : tag ∈ marks n (.forEach name iterable inner)) (stamp : Stamped m tag)
    (above : n + 2 < m) : tag ∈ allMarks (n + 2) iterable ∨
      tag ∈ allMarks (n + 2 + handedOutAll iterable) inner := by
  simp only [marks, List.mem_append, List.mem_cons, List.not_mem_nil, or_false] at at_
  rcases at_ with (inItems | rfl | inInner) | rfl
  · exact .inl inItems
  · have := (stamped_labelled "loop" (n + 1)).unique stamp
    omega
  · exact .inr inInner
  · have := (stamped_labelled "loop.done" (n + 2)).unique stamp
    omega

theorem catch_not_mem {tag : String} {cleanup : Option (List Statement)} :
    tag ++ ".catch" ∉ [tag ++ ".try", closingTag (tag ++ ".try")] ++ [] ++
      partTags (tag ++ ".finally") cleanup := by
  cases cleanup <;> simp [partTags, closingTag, String.append_assoc, String.append_right_inj]

theorem finally_not_mem {tag : String} {handler : Option (List Statement)} :
    tag ++ ".finally" ∉ [tag ++ ".try", closingTag (tag ++ ".try")] ++
      partTags (tag ++ ".catch") handler ++ [] := by
  cases handler <;> simp [partTags, closingTag, String.append_assoc, String.append_right_inj]

end Assembler

end ObjectMachine
