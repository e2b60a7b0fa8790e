import Mathlib.Data.List.Forall2
import ObjectMachine.Opcode.Document
import ObjectMachine.Proofs.ReadBack
/-!
Code as JSON. Reading a written instruction gives it back, so code survives being written and read by a library
that reproduces what stands in documents. What is read depends only on the members that an instruction has, and a
member that may be left out means the same as its default.
-/
namespace ObjectMachine

/-! ### Words -/

theorem Integer.ofInt?_toInt (i : Int64) : Integer.ofInt? i.toInt = some i := by
  have least := i.le_toInt
  have greatest := i.toInt_lt
  rw [Integer.ofInt?, if_pos, Int64.ofInt_toInt]
  exact ⟨least, Int.le_of_lt_add_one greatest⟩

theorem Json.nat64?_ofNat {n : Nat} (fits : n < UInt64.size) : (ofNat n).nat64? = some n := by
  rw [ofNat, nat64?]
  exact if_pos ⟨Int.natCast_nonneg n, fits⟩

theorem Json.lt_of_nat64? {doc : Json} {n : Nat} (read : doc.nat64? = some n) : n < UInt64.size := by
  cases doc with
  | int i =>
    rw [nat64?] at read
    split at read
    · rename_i fits
      cases read
      exact fits.2
    · cases read
  | _ => cases read

/-- The counts of an opcode fit a word. -/
def Opcode.WordSized : Opcode → Prop
  | pop n | buildList n | buildMap n | call n | operator _ n | makeClass _ _ n => n < UInt64.size
  | _ => True

namespace Code

/-- The counts in all instructions fit a word. -/
def WordSized (c : Code) : Prop := ∀ i ∈ c.toList, i.op.WordSized

/-- An instruction pushes the number. -/
def Pushes (c : Code) (x : Binary64) : Prop := ∃ i ∈ c.toList, i.op = .pushNum x

end Code

/-! ### Written instructions are read back -/

theorem ParamSpec.ofJson?_toJson (p : ParamSpec) : ofJson? p.toJson = some p := by
  obtain ⟨name, hasDefault, rest, typeName⟩ := p
  cases typeName <;> rfl

/-- A list is read back if each of its items is. -/
theorem mapM_map_eq_some {α β : Type} {write : α → β} {read : β → Option α} {l : List α}
    (back : ∀ a ∈ l, read (write a) = some a) : (l.map write).mapM read = some l := by
  induction l with
  | nil => rfl
  | cons a later ih =>
    obtain ⟨first, rest⟩ := List.forall_mem_cons.mp back
    rw [List.map_cons, List.mapM_cons, first, ih rest]
    rfl

/-- What is read of a list is read of its items. -/
theorem exists_mem_of_mapM {α β : Type} {read : β → Option α} {docs : List β} {l : List α}
    (all : docs.mapM read = some l) : ∀ a ∈ l, ∃ doc ∈ docs, read doc = some a := by
  induction docs generalizing l with
  | nil =>
    cases all
    exact List.forall_mem_nil _
  | cons doc docs ih =>
    rw [List.mapM_cons] at all
    obtain ⟨a, first, all⟩ := Option.bind_eq_some_iff.mp all
    obtain ⟨later, rest, all⟩ := Option.bind_eq_some_iff.mp all
    cases all
    intro b mem
    rcases List.mem_cons.mp mem with rfl | mem
    · exact ⟨doc, List.mem_cons_self, first⟩
    · obtain ⟨d, d_mem, is⟩ := ih rest b mem
      exact ⟨d, List.mem_cons_of_mem doc d_mem, is⟩

theorem mapM_congr {α β : Type} {read : β → Option α} {docs docs' : List β}
    (same : List.Forall₂ (fun d d' => read d = read d') docs docs') : docs.mapM read = docs'.mapM read := by
  induction same with
  | nil => rfl
  | cons first _ ih => rw [List.mapM_cons, List.mapM_cons, first, ih]

theorem Opcode.ofJson?_toJson {op : Opcode} (fits : op.WordSized) : ofJson? op.toJson = some op := by
  cases op with
  | pushInt i =>
    show (Integer.ofInt? i.toInt).map pushInt = _
    rw [Integer.ofInt?_toInt]
    rfl
  | pop n | buildList n | buildMap n | call n =>
    show (Json.ofNat n).nat64?.map _ = _
    rw [Json.nat64?_ofNat fits]
    rfl
  | operator name argc =>
    show ((Json.ofNat argc).nat64?.bind fun argc => some (operator name argc)) = _
    rw [Json.nat64?_ofNat fits]
    rfl
  | makeClass name body parents =>
    show ((Json.ofNat parents).nat64?.bind fun parents => some (makeClass name body parents)) = _
    rw [Json.nat64?_ofNat fits]
    rfl
  | makeFunction name body params generator =>
    show (((params.map ParamSpec.toJson).mapM ParamSpec.ofJson?).bind fun params =>
      some (makeFunction name body params generator)) = _
    rw [mapM_map_eq_some fun p _ => p.ofJson?_toJson]
    rfl
  | tryBlock block binding => cases binding <;> rfl
  | _ => rfl

theorem Instruction.ofJson?_toJson {i : Instruction} (fits : i.op.WordSized) : ofJson? i.toJson = some i := by
  obtain ⟨op, tag⟩ := i
  cases tag with
  | none =>
    show ((Opcode.ofJson? op.toJson).bind fun op => some (Instruction.mk op none)) = _
    rw [Opcode.ofJson?_toJson fits]
    rfl
  | some tag =>
    show ((Opcode.ofJson? op.toJson).bind fun op => some (Instruction.mk op (some tag))) = _
    rw [Opcode.ofJson?_toJson fits]
    rfl

namespace Code

variable {c : Code}

theorem ofJson?_toJson (fits : c.WordSized) : ofJson? c.toJson = some c := by
  show (((c.toList.map Instruction.toJson).mapM Instruction.ofJson?).map ofList) = _
  rw [mapM_map_eq_some fun i mem => Instruction.ofJson?_toJson (fits i mem)]
  rfl

/-- The instructions of a slice are instructions of the code. -/
theorem mem_of_mem_slice {i : Instruction} {start stop : Nat} (mem : i ∈ (c.slice start stop).toList) :
    i ∈ c.toList := by
  rw [toList, slice, Array.toList_extract, List.extract_eq_take_drop] at mem
  exact List.mem_of_mem_drop (List.mem_of_mem_take mem)

/-- Slices of slices. -/
def cut (c : Code) (cuts : List (Nat × Nat)) : Code := cuts.foldl (fun c bounds => c.slice bounds.1 bounds.2) c

theorem mem_of_mem_cut {i : Instruction} {cuts : List (Nat × Nat)} (mem : i ∈ (c.cut cuts).toList) :
    i ∈ c.toList := by
  induction cuts generalizing c with
  | nil => exact mem
  | cons bounds later ih => exact mem_of_mem_slice (ih mem)

end Code

/-! ### Accepted documents -/

theorem Opcode.wordSized_of_ofName? {name : String} {op : Opcode} (read : ofName? name = some op) :
    op.WordSized := by
  unfold ofName? at read
  split at read <;> cases read <;> trivial

theorem Json.lt_of_natMember? {doc : Json} {name : String} {n : Nat} (read : doc.natMember? name = some n) :
    n < UInt64.size := by
  obtain ⟨v, -, isNat⟩ := Option.bind_eq_some_iff.mp read
  exact lt_of_nat64? isNat

theorem Opcode.wordSized_of_ofOperand? {name : String} {doc : Json} {op : Opcode}
    (read : ofOperand? name doc = some op) : op.WordSized := by
  unfold ofOperand? at read
  split at read
  -- counts are read as words, and most other opcodes have none
  all_goals try
    obtain ⟨n, isNat, rfl⟩ := Option.map_eq_some_iff.mp read
    first
    | exact Json.lt_of_nat64? isNat
    | trivial
  · obtain ⟨name, -, read⟩ := Option.bind_eq_some_iff.mp read
    obtain ⟨argc, isNat, read⟩ := Option.bind_eq_some_iff.mp read
    cases read
    exact Json.lt_of_natMember? isNat
  · obtain ⟨name, -, read⟩ := Option.bind_eq_some_iff.mp read
    obtain ⟨body, -, read⟩ := Option.bind_eq_some_iff.mp read
    obtain ⟨items, -, read⟩ := Option.bind_eq_some_iff.mp read
    obtain ⟨params, -, read⟩ := Option.bind_eq_some_iff.mp read
    obtain ⟨generator, -, read⟩ := Option.bind_eq_some_iff.mp read
    cases read
    trivial
  · obtain ⟨name, -, read⟩ := Option.bind_eq_some_iff.mp read
    obtain ⟨body, -, read⟩ := Option.bind_eq_some_iff.mp read
    obtain ⟨parents, isNat, read⟩ := Option.bind_eq_some_iff.mp read
    cases read
    exact Json.lt_of_natMember? isNat
  · obtain ⟨block, -, read⟩ := Option.bind_eq_some_iff.mp read
    obtain ⟨binding, -, read⟩ := Option.bind_eq_some_iff.mp read
    cases read
    trivial
  · split at read
    · exact wordSized_of_ofName? read
    · cases read

theorem Opcode.wordSized_of_ofJson? {doc : Json} {op : Opcode} (read : ofJson? doc = some op) : op.WordSized := by
  unfold ofJson? at read
  split at read
  · exact wordSized_of_ofName? read
  · exact wordSized_of_ofOperand? read
  · cases read

/-- What was read has counts that fit a word. -/
theorem Code.wordSized_of_ofJson? {doc : Json} {c : Code} (read : ofJson? doc = some c) : c.WordSized := by
  obtain ⟨l, items, rfl⟩ := Option.map_eq_some_iff.mp read
  obtain ⟨docs, -, instructions⟩ := Option.bind_eq_some_iff.mp items
  intro i mem
  rw [toList, ofList, List.toList_toArray] at mem
  obtain ⟨doc, -, single⟩ := exists_mem_of_mapM instructions i mem
  obtain ⟨op, isOp, single⟩ := Option.bind_eq_some_iff.mp single
  obtain ⟨tag, -, single⟩ := Option.bind_eq_some_iff.mp single
  cases single
  obtain ⟨d, -, opcode⟩ := Option.bind_eq_some_iff.mp isOp
  exact Opcode.wordSized_of_ofJson? opcode

/-! ### Optional members -/

namespace Json

/-- The document of a member: the one that is there, or else the default. -/
def memberOr (defaults : List (String × Json)) (doc : Json) (name : String) : Option Json :=
  (doc.member? name).or (defaults.lookup name)

/-- Two documents of a structure have the same members, if those that are left out are taken to be their
defaults. -/
def Alike (defaults : List (String × Json)) (doc doc' : Json) : Prop :=
  ∀ name, memberOr defaults doc name = memberOr defaults doc' name

/-- All defaults may be written out behind the members. -/
theorem alike_append (defaults members : List (String × Json)) :
    Alike defaults (obj members) (obj (members ++ defaults)) := by
  intro name
  show (members.lookup name).or (defaults.lookup name) =
    ((members ++ defaults).lookup name).or (defaults.lookup name)
  rw [List.lookup_append, Option.or_assoc, Option.or_self]

theorem flag?_eq (doc : Json) (name : String) :
    doc.flag? name = ((doc.member? name).or (some (bool false))).bind bool? := by
  rw [flag?]
  cases doc.member? name <;> rfl

/-- A text, or `null` for none. -/
def optional? : Json → Option (Option String)
  | null => some none
  | str s => some (some s)
  | _ => none

theorem optionalText?_eq (doc : Json) (name : String) :
    doc.optionalText? name = ((doc.member? name).or (some null)).bind optional? := by
  rw [optionalText?]
  cases doc.member? name with
  | none => rfl
  | some v => cases v <;> rfl

section
variable {defaults : List (String × Json)} {doc doc' : Json} {name : String}
  (same : memberOr defaults doc name = memberOr defaults doc' name)
include same

theorem textMember?_congr (required : defaults.lookup name = none) :
    doc.textMember? name = doc'.textMember? name := by
  rw [memberOr, memberOr, required, Option.or_none, Option.or_none] at same
  rw [textMember?, textMember?, same]

theorem flag?_congr (default : defaults.lookup name = some (bool false)) :
    doc.flag? name = doc'.flag? name := by
  rw [memberOr, memberOr, default] at same
  rw [flag?_eq, flag?_eq, same]

theorem optionalText?_congr (default : defaults.lookup name = some null) :
    doc.optionalText? name = doc'.optionalText? name := by
  rw [memberOr, memberOr, default] at same
  rw [optionalText?_eq, optionalText?_eq, same]

end

end Json

namespace ParamSpec

/-- What the members of a parameter mean that are left out. -/
def defaults : List (String × Json) := [("has_default", .bool false), ("rest", .bool false), ("type_name", .null)]

/-- Two documents describe the same parameter. -/
def Alike (doc doc' : Json) : Prop := Json.Alike defaults (doc.asObject fields) (doc'.asObject fields)

theorem ofJson?_of_alike {doc doc' : Json} (alike : Alike doc doc') : ofJson? doc = ofJson? doc' := by
  have name := Json.textMember?_congr (alike "name") rfl
  have hasDefault := Json.flag?_congr (alike "has_default") rfl
  have rest := Json.flag?_congr (alike "rest") rfl
  have typeName := Json.optionalText?_congr (alike "type_name") rfl
  rw [ofJson?, ofJson?, name, hasDefault, rest, typeName]

end ParamSpec

namespace Opcode

/-- Two documents describe the same opcode. -/
inductive Alike : Json → Json → Prop where
  /-- They are the same. -/
  | same (doc : Json) : Alike doc doc
  /-- Both make a function with parameters that are described one by one; `generator` is false if left out. -/
  | makeFunction (doc doc' : Json) (params params' : List Json)
    (others : ∀ name ≠ "params", doc.memberOr [("generator", .bool false)] name =
      doc'.memberOr [("generator", .bool false)] name)
    (has : doc.member? "params" = some (.arr params)) (has' : doc'.member? "params" = some (.arr params'))
    (described : List.Forall₂ ParamSpec.Alike params params') :
    Alike (.obj [("MakeFunction", doc)]) (.obj [("MakeFunction", doc')])
  /-- Both protect a block; `binding` is `null` if left out. -/
  | tryBlock (doc doc' : Json) (members : Json.Alike [("binding", .null)] doc doc') :
    Alike (.obj [("Try", doc)]) (.obj [("Try", doc')])

theorem ofJson?_of_alike {doc doc' : Json} (alike : Alike doc doc') : ofJson? doc = ofJson? doc' := by
  cases alike with
  | same => rfl
  | makeFunction doc doc' params params' others has has' described =>
    have name := Json.textMember?_congr (others "name" (by decide)) rfl
    have body := Json.textMember?_congr (others "body" (by decide)) rfl
    have generator := Json.flag?_congr (others "generator" (by decide)) rfl
    have list : params.mapM ParamSpec.ofJson? = params'.mapM ParamSpec.ofJson? :=
      mapM_congr (described.imp fun d d' => ParamSpec.ofJson?_of_alike)
    show ofOperand? "MakeFunction" doc = ofOperand? "MakeFunction" doc'
    simp only [ofOperand?, name, body, generator, has, has', Option.bind_eq_bind, Option.bind_some, Json.items?,
      list]
  | tryBlock doc doc' members =>
    have block := Json.textMember?_congr (members "block") rfl
    have binding := Json.optionalText?_congr (members "binding") rfl
    show ofOperand? "Try" doc = ofOperand? "Try" doc'
    simp only [ofOperand?, block, binding]

end Opcode

namespace Instruction

/-- Two documents describe the same instruction. -/
structure Alike (doc doc' : Json) : Prop where
  /-- The opcodes are described alike. -/
  op : Option.Rel Opcode.Alike ((doc.asObject fields).member? "op") ((doc'.asObject fields).member? "op")
  /-- The tags are the same; `tag` is `null` if left out. -/
  tag : (doc.asObject fields).memberOr [("tag", .null)] "tag" = (doc'.asObject fields).memberOr [("tag", .null)] "tag"

theorem ofJson?_of_alike {doc doc' : Json} (alike : Alike doc doc') : ofJson? doc = ofJson? doc' := by
  obtain ⟨opcodes, tags⟩ := alike
  have tag := Json.optionalText?_congr tags rfl
  have op : ((doc.asObject fields).member? "op").bind Opcode.ofJson? =
      ((doc'.asObject fields).member? "op").bind Opcode.ofJson? := by
    generalize (doc.asObject fields).member? "op" = opcode at opcodes
    generalize (doc'.asObject fields).member? "op" = opcode' at opcodes
    cases opcodes with
    | none => rfl
    | some described => exact Opcode.ofJson?_of_alike described
  rw [ofJson?, ofJson?, op, tag]

end Instruction

namespace Code

/-- Two documents describe the same instructions one by one. -/
inductive Alike : Json → Json → Prop where
  /-- They are lists of alike documents. -/
  | arr {items items' : List Json} (described : List.Forall₂ Instruction.Alike items items') :
    Alike (.arr items) (.arr items')

theorem ofJson?_of_alike {doc doc' : Json} (alike : Alike doc doc') : ofJson? doc = ofJson? doc' := by
  obtain ⟨described⟩ := alike
  have same := mapM_congr (described.imp fun d d' => Instruction.ofJson?_of_alike)
  show Option.map ofList (Option.bind (some _) _) = Option.map ofList (Option.bind (some _) _)
  rw [Option.bind_some, Option.bind_some, same]

end Code

/-! ### Through a library -/

namespace Json

variable {numbers : Binary64 → Prop}

theorem plain_ofNat {n : Nat} (fits : n < UInt64.size) (depth : Nat) : Plain numbers depth (ofNat n) := by
  apply Plain.int
  · exact Int.le_trans (by decide) (Int.natCast_nonneg n)
  · exact Int.ofNat_lt.mpr fits

theorem plain_toInt (i : Int64) (depth : Nat) : Plain numbers depth (int i.toInt) := by
  apply Plain.int
  · exact i.le_toInt
  · exact Int.lt_trans i.toInt_lt (by decide)

theorem plain_ofOption (s : Option String) (depth : Nat) : Plain numbers depth (ofOption str s) := by
  cases s with
  | none => exact .null depth
  | some s => exact .str depth s

/-- An object with one member is as plain as that is. -/
theorem Plain.single {depth : Nat} {doc : Json} (plain : Plain numbers depth doc) (name : String) :
    Plain numbers (depth + 1) (.obj [(name, doc)]) := by
  apply Plain.obj
  · exact List.pairwise_singleton _ name
  · intro m mem
    rw [List.mem_singleton.mp mem]
    exact plain

end Json

section
variable {numbers : Binary64 → Prop}

theorem ParamSpec.plain_toJson (p : ParamSpec) (depth : Nat) : p.toJson.Plain numbers (depth + 1) := by
  have distinct : ["name", "has_default", "rest", "type_name"].Nodup := by decide
  apply Json.Plain.obj
  · exact distinct
  · simp only [List.forall_mem_cons]
    exact ⟨.str _ _, .bool _ _, .bool _ _, Json.plain_ofOption _ _, List.forall_mem_nil _⟩

theorem Opcode.plain_toJson {op : Opcode} (fits : op.WordSized)
    (finite : ∀ x, op = .pushNum x → x.isFinite ∧ numbers x) (depth : Nat) :
    op.toJson.Plain numbers (depth + 4) := by
  cases op with
  | pushNum x =>
    obtain ⟨isFinite, among⟩ := finite x rfl
    exact (Json.Plain.num (depth + 3) x isFinite among).single _
  | pushInt i => exact (Json.plain_toInt i (depth + 3)).single _
  | pushBool b => exact (Json.Plain.bool (depth + 3) b).single _
  | pop n | buildList n | buildMap n | call n => exact (Json.plain_ofNat fits (depth + 3)).single _
  | pushStr s | getVar s | defineVar s | setVar s | deleteVar s | getMember s | setMember s | deleteMember s
  | jump s | jumpIfTrue s | jumpIfFalse s | typeTest s | iterNext s =>
    exact (Json.Plain.str (depth + 3) s).single _
  | operator name argc =>
    have distinct : ["name", "argc"].Nodup := by decide
    refine Json.Plain.single (.obj (depth + 2) _ ?_ ?_) _
    · exact distinct
    simp only [List.forall_mem_cons]
    exact ⟨.str _ _, Json.plain_ofNat fits _, List.forall_mem_nil _⟩
  | bodyStart closing => exact ((Json.Plain.str (depth + 2) closing).single _).single _
  | makeFunction name body params generator =>
    have distinct : ["name", "body", "params", "generator"].Nodup := by decide
    refine Json.Plain.single (.obj (depth + 2) _ ?_ ?_) _
    · exact distinct
    simp only [List.forall_mem_cons]
    refine ⟨.str _ _, .str _ _, .arr _ _ ?_, .bool _ _, List.forall_mem_nil _⟩
    intro doc mem
    obtain ⟨p, -, rfl⟩ := List.mem_map.mp mem
    exact p.plain_toJson depth
  | makeClass name body parents =>
    have distinct : ["name", "body", "parents"].Nodup := by decide
    refine Json.Plain.single (.obj (depth + 2) _ ?_ ?_) _
    · exact distinct
    simp only [List.forall_mem_cons]
    exact ⟨.str _ _, .str _ _, Json.plain_ofNat fits _, List.forall_mem_nil _⟩
  | tryBlock block binding =>
    have distinct : ["block", "binding"].Nodup := by decide
    refine Json.Plain.single (.obj (depth + 2) _ ?_ ?_) _
    · exact distinct
    simp only [List.forall_mem_cons]
    exact ⟨.str _ _, Json.plain_ofOption _ _, List.forall_mem_nil _⟩
  | _ => exact .str _ _

theorem Instruction.plain_toJson {i : Instruction} (fits : i.op.WordSized)
    (finite : ∀ x, i.op = .pushNum x → x.isFinite ∧ numbers x) (depth : Nat) :
    i.toJson.Plain numbers (depth + 5) := by
  have op := Opcode.plain_toJson fits finite depth
  obtain ⟨_, tag⟩ := i
  cases tag with
  | none => exact op.single "op"
  | some tag =>
    have distinct : ["op", "tag"].Nodup := by decide
    apply Json.Plain.obj
    · exact distinct
    · exact List.forall_mem_cons.mpr ⟨op, List.forall_mem_singleton.mpr (.str _ tag)⟩

theorem Code.plain_toJson {c : Code} (fits : c.WordSized)
    (finite : ∀ x, c.Pushes x → x.isFinite ∧ numbers x) (depth : Nat) : c.toJson.Plain numbers (depth + 6) := by
  apply Json.Plain.arr
  intro doc mem
  obtain ⟨i, i_mem, rfl⟩ := List.mem_map.mp mem
  exact Instruction.plain_toJson (fits i i_mem) (fun x pushes => finite x ⟨i, i_mem, pushes⟩) depth

end

/-- A library that writes documents as texts and reads them. -/
structure Json.Library where
  /-- The text of a document. -/
  write : Json → String
  /-- The document of a text. -/
  read : String → Option Json

namespace Json.Library

/-- Documents of integers that fit a word, texts, truth values, `null` and certain numbers come back. -/
def Reproduces (lib : Library) (numbers : Binary64 → Prop) : Prop :=
  ∀ doc, doc.Plain numbers maxDepth → lib.read (lib.write doc) = some doc

/-- The text of code. -/
def serialize (lib : Library) (c : Code) : String := lib.write c.toJson

/-- The code of a text. -/
def deserialize? (lib : Library) (text : String) : Option Code := (lib.read text).bind Code.ofJson?

end Json.Library

namespace Code

/-- With a library that reproduces integers, texts and certain numbers: code that pushes only such numbers comes
back, whole or after any cuts, with the same instructions. What is read of any text is code that comes back in this
way. Documents that differ only in optional members that are left out, for which their defaults stand, are read as
the same code, and so is any document that differs in this way from the one that is written. -/
theorem deserialize?_serialize (lib : Json.Library) (numbers : Binary64 → Prop)
    (reproduces : lib.Reproduces numbers) :
    (∀ (c : Code) (cuts : List (Nat × Nat)), c.WordSized → (∀ x, c.Pushes x → x.isFinite ∧ numbers x) →
      lib.deserialize? (lib.serialize (c.cut cuts)) = some (c.cut cuts)) ∧
    (∀ text c, lib.deserialize? text = some c → c.WordSized ∧
      ((∀ x, c.Pushes x → x.isFinite ∧ numbers x) → lib.deserialize? (lib.serialize c) = some c)) ∧
    (∀ doc doc', Alike doc doc' → ofJson? doc = ofJson? doc') ∧
    ∀ doc c, c.WordSized → Alike doc c.toJson → ofJson? doc = some c := by
  have back (c : Code) (fits : c.WordSized) (finite : ∀ x, c.Pushes x → x.isFinite ∧ numbers x) :
      lib.deserialize? (lib.serialize c) = some c := by
    rw [Json.Library.deserialize?, Json.Library.serialize, reproduces _ (plain_toJson fits finite 121),
      Option.bind_some, ofJson?_toJson fits]
  refine ⟨?_, ?_, fun _ _ => ofJson?_of_alike, ?_⟩
  · intro c cuts fits finite
    apply back
    · intro i mem
      exact fits i (mem_of_mem_cut mem)
    · rintro x ⟨i, mem, pushes⟩
      exact finite x ⟨i, mem_of_mem_cut mem, pushes⟩
  · intro text c accepted
    obtain ⟨doc, -, read⟩ := Option.bind_eq_some_iff.mp accepted
    have fits := wordSized_of_ofJson? read
    exact ⟨fits, back c fits⟩
  · intro doc c fits alike
    rw [ofJson?_of_alike alike, ofJson?_toJson fits]

/-- The body of a function, cut out of its code, comes back through JSON text. A protected block without `binding`
and with `null` for its tag is read as one without both. -/
theorem deserialize?_serialize_body :
    let lib : Json.Library := ⟨Json.render, Json.parse?⟩
    let c := Code.ofList [⟨.bodyStart "end", some "body"⟩, ⟨.pushInt (-1), none⟩, ⟨.returnValue, some "last"⟩,
      ⟨.bodyEnd, some "end"⟩, ⟨.makeFunction "f" "body" [⟨"x", true, false, none⟩] false, none⟩]
    let guarded := Code.ofList [⟨.tryBlock "block" none, none⟩]
    let short : Json := .arr [.obj [("op", .obj [("Try", .obj [("block", .str "block")])]), ("tag", .null)]]
    lib.Reproduces (fun _ => False) ∧
      (∀ i ∈ c.toList, i.op.WordSized ∧ ∀ x, i.op ≠ .pushNum x) ∧
      lib.deserialize? (lib.serialize (c.cut [(0, 4), (1, 3)])) =
        some (Code.ofList [⟨.pushInt (-1), none⟩, ⟨.returnValue, some "last"⟩]) ∧
      Alike short guarded.toJson ∧ ofJson? short = some guarded := by
  intro lib c guarded short
  have reproduces : lib.Reproduces fun _ => False := fun doc plain => Json.parse?_render plain
  have instructions : ∀ i ∈ c.toList, i.op.WordSized ∧ ∀ x, i.op ≠ .pushNum x := by
    simp only [c, toList, ofList, List.forall_mem_cons]
    exact ⟨⟨trivial, nofun⟩, ⟨trivial, nofun⟩, ⟨trivial, nofun⟩, ⟨trivial, nofun⟩, ⟨trivial, nofun⟩,
      List.forall_mem_nil _⟩
  have alike : Alike short guarded.toJson := by
    apply Alike.arr
    apply List.Forall₂.cons _ List.Forall₂.nil
    have binding := Json.alike_append [("binding", .null)] [("block", .str "block")]
    exact ⟨.some (.tryBlock _ _ binding), rfl⟩
  obtain ⟨cuts, -, -, same⟩ := deserialize?_serialize lib (fun _ => False) reproduces
  refine ⟨reproduces, instructions, ?_, alike, same short guarded ?_ alike⟩
  · apply cuts c [(0, 4), (1, 3)]
    · exact fun i mem => (instructions i mem).1
    · rintro x ⟨i, mem, pushes⟩
      exact absurd pushes ((instructions i mem).2 x)
  · exact List.forall_mem_singleton.mpr trivial

end Code

end ObjectMachine
