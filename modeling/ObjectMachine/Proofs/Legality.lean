import ObjectMachine.Proofs.Matching
import ObjectMachine.Proofs.Throwing
/-!
Legal parameter lists. A list is legal if its names are distinct and required parameters are followed either by
parameters with defaults or by one that collects. Exactly the legal lists are accepted; of any other list, the
parameter that is reported is the first one that breaks a rule of its place, and no function is made.
-/
namespace ObjectMachine

namespace Signature

variable {params before later : List Param} {p q : Param} {fault : SignatureFault} {s : Signature}

/-- The names are distinct, and the groups of required, optional and collecting parameters follow one another. -/
structure Legal (params : List Param) : Prop where
  /-- No two parameters share a name. -/
  nodup : (params.map Param.name).Nodup
  /-- The list consists of the groups. -/
  grouped : ∃ required optional collecting, Grouped params required optional collecting

/-- The last parameter of a list that has a default. -/
def LastWithDefault (params : List Param) (p : Param) : Prop :=
  ∃ front back, params = front ++ p :: back ∧ p.default.isSome ∧ ∀ q ∈ back, q.default = none

/-- A parameter breaks a rule of its place between others, and this is the fault. Of several rules that are broken
in one place, the first one in this order counts. -/
inductive Offends (before : List Param) (p : Param) (later : List Param) : SignatureFault → Prop where
  /-- The name is taken. -/
  | duplicate (taken : p.name ∈ before.map Param.name) : Offends before p later (.duplicate p.name)
  /-- A parameter that collects is followed by another one. -/
  | restNotLast (fresh : p.name ∉ before.map Param.name) (collects : p.rest) (followed : later ≠ []) :
    Offends before p later (.restNotLast p.name)
  /-- A parameter that collects has a default, or follows one that has. -/
  | restWithDefault (fresh : p.name ∉ before.map Param.name) (collects : p.rest) (last : later = [])
    (default : ∃ q ∈ before ++ [p], q.default.isSome) : Offends before p later (.restWithDefault p.name)
  /-- A required parameter follows one with a default. -/
  | requiredAfterDefault (previous : Param) (fresh : p.name ∉ before.map Param.name) (positional : p.rest = false)
    (required : p.default = none) (behind : LastWithDefault before previous) :
    Offends before p later (.requiredAfterDefault p.name previous.name)

/-- The first parameter of a list that breaks a rule of its place breaks this one. -/
structure FirstOffence (params before : List Param) (p : Param) (later : List Param) (fault : SignatureFault) :
    Prop where
  /-- The parameter has its place between the others. -/
  place : params = before ++ p :: later
  /-- It breaks the rule there. -/
  offends : Offends before p later fault
  /-- No parameter in front of it breaks a rule. -/
  first : ∀ front q back e, before = front ++ q :: back → ¬ Offends front q (back ++ p :: later) e

/-! ### One parameter -/

/-- The name of the last parameter with a default. -/
def lastDefault (params : List Param) : Option String :=
  (params.reverse.find? fun p => p.default.isSome).map Param.name

theorem lastDefault_concat (params : List Param) (p : Param) :
    lastDefault (params ++ [p]) = if p.default.isSome then some p.name else lastDefault params := by
  rw [lastDefault, List.reverse_append, List.reverse_singleton, List.singleton_append, List.find?_cons]
  cases p.default.isSome <;> rfl

theorem lastDefault_eq_some_iff {name : String} :
    lastDefault params = some name ↔ ∃ p, LastWithDefault params p ∧ p.name = name := by
  rw [lastDefault, Option.map_eq_some_iff]
  apply exists_congr
  intro p
  apply and_congr_left
  intro _
  rw [List.find?_eq_some_iff_append]
  constructor
  · rintro ⟨default, back, front, reversed, plain⟩
    refine ⟨front.reverse, back.reverse, ?_, default, ?_⟩
    · rw [← List.reverse_reverse params, reversed]
      simp
    · intro q mem
      simpa using plain q (List.mem_reverse.mp mem)
  · rintro ⟨front, back, rfl, default, plain⟩
    refine ⟨default, back.reverse, front.reverse, by simp, ?_⟩
    intro q mem
    simpa using plain q (List.mem_reverse.mp mem)

theorem isSome_lastDefault : (lastDefault params).isSome ↔ ∃ p ∈ params, p.default.isSome := by
  rw [lastDefault, Option.isSome_map, List.find?_isSome]
  simp only [List.mem_reverse]

/-- The fault of a parameter in its place. -/
def faultAt? (before : List Param) (p : Param) (later : List Param) : Option SignatureFault :=
  if p.name ∈ before.map Param.name then some (.duplicate p.name)
  else if p.rest then
    if !later.isEmpty then some (.restNotLast p.name)
    else if p.default.isSome || (lastDefault before).isSome then some (.restWithDefault p.name)
    else none
  else if p.default.isSome then none
  else (lastDefault before).map (.requiredAfterDefault p.name)

theorem faultAt?_eq_some_iff : faultAt? before p later = some fault ↔ Offends before p later fault := by
  rw [faultAt?]
  constructor
  · intro found
    split at found
    · cases found
      exact .duplicate ‹_›
    split at found
    · rename_i fresh collects
      split at found
      · rename_i followed
        cases found
        exact .restNotLast fresh collects (by simpa using followed)
      rename_i last
      split at found
      · rename_i default
        cases found
        apply Offends.restWithDefault fresh collects (by simpa using last)
        rw [Bool.or_eq_true, isSome_lastDefault] at default
        rcases default with own | ⟨q, mem, earlier⟩
        · exact ⟨p, by simp, own⟩
        · exact ⟨q, List.mem_append_left _ mem, earlier⟩
      · cases found
    · rename_i fresh positional
      split at found
      · cases found
      rename_i required
      obtain ⟨name, last, rfl⟩ := Option.map_eq_some_iff.mp found
      obtain ⟨previous, behind, rfl⟩ := lastDefault_eq_some_iff.mp last
      exact .requiredAfterDefault previous fresh (by simpa using positional) (by simpa using required) behind
  · intro offends
    cases offends with
    | duplicate taken => rw [if_pos taken]
    | restNotLast fresh collects followed => simp [fresh, collects, followed]
    | restWithDefault fresh collects last default =>
      have some_default : p.default.isSome ∨ (lastDefault before).isSome := by
        obtain ⟨q, mem, own⟩ := default
        rcases List.mem_append.mp mem with earlier | same
        · exact .inr (isSome_lastDefault.mpr ⟨q, earlier, own⟩)
        · rw [List.mem_singleton.mp same] at own
          exact .inl own
      rw [← Bool.or_eq_true] at some_default
      simp only [fresh, collects, last, some_default, ↓reduceIte, List.isEmpty_nil, Bool.not_true,
        Bool.false_eq_true]
    | requiredAfterDefault previous fresh positional required behind =>
      have last : lastDefault before = some previous.name := lastDefault_eq_some_iff.mpr ⟨previous, behind, rfl⟩
      simp [fresh, positional, required, last]

theorem faultAt?_eq_none_iff : faultAt? before p later = none ↔ ∀ e, ¬ Offends before p later e := by
  rw [Option.eq_none_iff_forall_ne_some]
  apply forall_congr'
  intro e
  rw [ne_eq, faultAt?_eq_some_iff]

/-! ### One parameter after another -/

/-- The check of a list looks at one parameter after the other. -/
theorem faultFrom_cons (seen : List String) (same : ∀ name, name ∈ seen ↔ name ∈ before.map Param.name) :
    faultFrom seen (lastDefault before) (p :: later) =
      (faultAt? before p later).or (faultFrom (p.name :: seen) (lastDefault (before ++ [p])) later) := by
  rw [faultFrom.eq_def, faultAt?, lastDefault_concat]
  simp only [same]
  split
  · rfl
  split
  · split
    · rfl
    rename_i last
    split
    · rfl
    · have none_later : later = [] := by simpa using last
      rw [none_later, faultFrom]
      rfl
  · split
    · rfl
    · cases lastDefault before <;> rfl

/-- The check finds the first parameter that breaks a rule of its place. -/
theorem faultFrom_eq_some_iff (seen : List String) (same : ∀ name, name ∈ seen ↔ name ∈ before.map Param.name) :
    faultFrom seen (lastDefault before) later = some fault ↔
      ∃ passed p behind, later = passed ++ p :: behind ∧ Offends (before ++ passed) p behind fault ∧
        ∀ front q back e, passed = front ++ q :: back → ¬ Offends (before ++ front) q (back ++ p :: behind) e := by
  -- by induction on what is left of the list; what was passed grows by one parameter that breaks no rule
  induction later generalizing before seen with
  | nil =>
    constructor
    · intro found
      cases found
    · rintro ⟨passed, p, behind, split, -⟩
      simp at split
  | cons p later ih =>
    have same' : ∀ name, name ∈ p.name :: seen ↔ name ∈ (before ++ [p]).map Param.name := by
      intro name
      rw [List.mem_cons, same, List.map_append, List.mem_append, List.map_singleton, List.mem_singleton, or_comm]
    rw [faultFrom_cons seen same]
    cases here : faultAt? before p later with
    | some e =>
      have offends := faultAt?_eq_some_iff.mp here
      rw [Option.some_or, Option.some_inj]
      constructor
      · rintro rfl
        refine ⟨[], p, later, rfl, by rwa [List.append_nil], ?_⟩
        intro front q back e split
        simp at split
      · rintro ⟨passed, q, behind, split, offends', first⟩
        cases passed with
        | nil =>
          cases split
          rw [List.append_nil] at offends'
          rw [← faultAt?_eq_some_iff, here] at offends'
          exact Option.some.inj offends'
        | cons r passed =>
          cases split
          exact absurd (by rwa [List.append_nil]) (first [] p passed e rfl)
    | none =>
      have fine := faultAt?_eq_none_iff.mp here
      rw [Option.none_or, ih _ same']
      constructor
      · rintro ⟨passed, q, behind, rfl, offends, first⟩
        refine ⟨p :: passed, q, behind, rfl, by simpa using offends, ?_⟩
        intro front r back e split
        cases front with
        | nil =>
          cases split
          rw [List.append_nil]
          exact fine e
        | cons head front =>
          cases split
          simpa using first front r back e rfl
      · rintro ⟨passed, q, behind, split, offends, first⟩
        cases passed with
        | nil =>
          cases split
          rw [List.append_nil] at offends
          exact absurd offends (fine fault)
        | cons head passed =>
          cases split
          refine ⟨passed, q, behind, rfl, by simpa using offends, ?_⟩
          rintro front r back e rfl
          simpa using first (p :: front) r back e rfl

/-- A list is refused with the fault of the first parameter that breaks a rule of its place. -/
theorem ofParams_eq_error_iff :
    ofParams params = .error fault ↔ ∃ before p later, FirstOffence params before p later fault := by
  have found : ofParams params = .error fault ↔ faultFrom [] none params = some fault := by
    rw [ofParams]
    cases faultFrom [] none params <;> simp
  rw [found]
  refine (@faultFrom_eq_some_iff [] params fault [] (by simp)).trans ?_
  constructor
  · rintro ⟨before, p, later, place, offends, first⟩
    exact ⟨before, p, later, place, offends, first⟩
  · rintro ⟨before, p, later, place, offends, first⟩
    exact ⟨before, p, later, place, offends, first⟩

/-! ### Legal lists -/

/-- Parameters with defaults break no rule if their names are new. -/
theorem faultFrom_of_optional {seen : List String} (last : Option String)
    (optional : ∀ p ∈ params, p.rest = false ∧ p.default.isSome) (nodup : (params.map Param.name).Nodup)
    (fresh : ∀ p ∈ params, p.name ∉ seen) : faultFrom seen last params = none := by
  induction params generalizing seen last with
  | nil => rfl
  | cons p later ih =>
    obtain ⟨⟨positional, default⟩, optional⟩ := List.forall_mem_cons.mp optional
    obtain ⟨new, fresh⟩ := List.forall_mem_cons.mp fresh
    obtain ⟨other, nodup⟩ := List.nodup_cons.mp nodup
    rw [faultFrom.eq_def]
    simp only [new, positional, default, ↓reduceIte, Bool.false_eq_true]
    apply ih _ optional nodup
    intro q mem seen
    rcases List.mem_cons.mp seen with same | earlier
    · exact other (same ▸ List.mem_map_of_mem mem)
    · exact fresh q mem earlier

/-- Groups of parameters break no rule if their names are new and distinct. -/
theorem faultFrom_of_grouped {seen : List String} {required optional : List Param} {collecting : Option Param}
    (grouped : Grouped params required optional collecting) (nodup : (params.map Param.name).Nodup)
    (fresh : ∀ p ∈ params, p.name ∉ seen) : faultFrom seen none params = none := by
  induction required generalizing seen params with
  | nil =>
    have split := grouped.split
    rw [List.nil_append] at split
    cases collecting with
    | none =>
      rw [Option.toList_none, List.append_nil] at split
      exact faultFrom_of_optional none (split ▸ grouped.of_optional) nodup fresh
    | some p =>
      rw [grouped.apart rfl, List.nil_append, Option.toList_some] at split
      obtain ⟨collects, plain⟩ := grouped.of_collecting p rfl
      have new : p.name ∉ seen := fresh p (by simp [split])
      simp [split, faultFrom, new, collects, plain]
  | cons p required ih =>
    have split := grouped.split
    rw [List.cons_append, List.cons_append] at split
    obtain ⟨⟨positional, plain⟩, of_required⟩ := List.forall_mem_cons.mp grouped.of_required
    rw [split] at nodup fresh ⊢
    obtain ⟨new, fresh⟩ := List.forall_mem_cons.mp fresh
    obtain ⟨other, nodup⟩ := List.nodup_cons.mp nodup
    rw [faultFrom, if_neg new, positional, if_neg Bool.false_ne_true, plain, if_neg (by simp)]
    apply ih ⟨rfl, of_required, grouped.of_optional, grouped.of_collecting, grouped.apart⟩ nodup
    intro q mem seen
    rcases List.mem_cons.mp seen with same | earlier
    · exact other (same ▸ List.mem_map_of_mem mem)
    · exact fresh q mem earlier

/-- The names of an accepted list are distinct, and new. -/
theorem nodup_of_faultFrom {seen : List String} {last : Option String}
    (accepted : faultFrom seen last params = none) :
    (params.map Param.name).Nodup ∧ ∀ p ∈ params, p.name ∉ seen := by
  induction params generalizing seen last with
  | nil => exact ⟨List.nodup_nil, List.forall_mem_nil _⟩
  | cons p later ih =>
    -- whatever the parameter is, what follows it was accepted with its name taken
    have rest : p.name ∉ seen ∧ ((later.map Param.name).Nodup ∧ ∀ q ∈ later, q.name ∉ p.name :: seen) := by
      rw [faultFrom.eq_def] at accepted
      dsimp only at accepted
      split at accepted
      · cases accepted
      rename_i new
      refine ⟨new, ?_⟩
      split at accepted
      · split at accepted
        · cases accepted
        rename_i alone
        have none_later : later = [] := by simpa using alone
        rw [none_later]
        exact ⟨List.nodup_nil, List.forall_mem_nil _⟩
      split at accepted
      · exact ih accepted
      · split at accepted
        · cases accepted
        · exact ih accepted
    obtain ⟨new, nodup, fresh⟩ := rest
    refine ⟨List.nodup_cons.mpr ⟨?_, nodup⟩, List.forall_mem_cons.mpr ⟨new, ?_⟩⟩
    · intro taken
      obtain ⟨q, mem, same⟩ := List.mem_map.mp taken
      exact fresh q mem (List.mem_cons.mpr (.inl same))
    · intro q mem earlier
      exact fresh q mem (List.mem_cons_of_mem _ earlier)

/-- Just the legal lists are accepted, as they are. -/
theorem ofParams_eq_ok_iff : ofParams params = .ok s ↔ s.params = params ∧ Legal params := by
  have checked : ofParams params = .ok s ↔ s.params = params ∧ faultFrom [] none params = none := by
    obtain ⟨own⟩ := s
    rw [ofParams]
    cases faultFrom [] none params with
    | some fault => simp
    | none => simp [eq_comm]
  rw [checked]
  apply and_congr_right
  intro _
  constructor
  · intro accepted
    exact ⟨(nodup_of_faultFrom accepted).1, grouped_of_faultFrom accepted⟩
  · rintro ⟨nodup, required, optional, collecting, grouped⟩
    exact faultFrom_of_grouped grouped nodup fun p _ => List.not_mem_nil

end Signature

/-! ### The instruction that makes a function -/

namespace Heap

/-- The declared Type of a parameter, looked up in a scope. -/
def Declares (h : Heap) (s : ScopeRef) (spec : ParamSpec) (type : Option Ref) : Prop :=
  match spec.typeName with
  | none => type = none
  | some name => ∃ T, h.resolve? s name = some T ∧ h.isType T ∧ type = some T

/-- Descriptions give parameters, with defaults in order and with declared Types as a scope has them. -/
inductive Describes (h : Heap) (s : ScopeRef) : List ParamSpec → List Ref → List Param → Prop where
  /-- No description gives no parameter. -/
  | none (defaults : List Ref) : Describes h s [] defaults []
  /-- A parameter without default. -/
  | plain {spec : ParamSpec} {type : Option Ref} {specs : List ParamSpec} {defaults : List Ref} {params : List Param}
    (hasNone : spec.hasDefault = false) (declared : h.Declares s spec type)
    (later : Describes h s specs defaults params) :
    Describes h s (spec :: specs) defaults (⟨spec.name, type, .none, spec.rest⟩ :: params)
  /-- A parameter with the next default. -/
  | defaulted {spec : ParamSpec} {type : Option Ref} {specs : List ParamSpec} {value : Ref} {defaults : List Ref}
    {params : List Param} (hasOne : spec.hasDefault) (declared : h.Declares s spec type)
    (later : Describes h s specs defaults params) :
    Describes h s (spec :: specs) (value :: defaults) (⟨spec.name, type, some value, spec.rest⟩ :: params)

end Heap

namespace Engine

variable {due : Schedule} {m : Machine} {s : ScopeRef} {f : Frame} {specs : List ParamSpec} {defaults : List Ref}
  {params : List Param}

theorem runUnder_declaredType (due : Schedule) {spec : ParamSpec} {type : Option Ref}
    (declared : m.heap.Declares s spec type) : (declaredType s spec).runUnder due m = .ok type m := by
  rw [Heap.Declares] at declared
  rw [declaredType]
  cases named : spec.typeName with
  | none =>
    rw [named] at declared
    rw [declared]
    rfl
  | some name =>
    rw [named] at declared
    obtain ⟨T, found, isType, rfl⟩ := declared
    have read : (readVariable s name).runUnder due m = .ok T m := by
      rw [readVariable, runUnder_bind, runUnder_ask, found]
      rfl
    simp only [runUnder_bind, read, runUnder_ask, isType, ↓reduceIte, runUnder_pure]

/-- Parameters are made without touching the machine. -/
theorem runUnder_parameters (due : Schedule) (described : m.heap.Describes s specs defaults params) :
    (parameters s specs defaults).runUnder due m = .ok params m := by
  induction described with
  | none => rfl
  | plain hasNone declared later ih =>
    simp only [parameters, runUnder_bind, runUnder_declaredType due declared, hasNone, Bool.false_eq_true,
      ↓reduceIte, runUnder_pure, ih]
  | defaulted hasOne declared later ih =>
    simp only [parameters, runUnder_bind, runUnder_declaredType due declared, hasOne, ↓reduceIte, runUnder_pure, ih]

/-- Once the parameters are known, they are checked, and a function with just these is stored. -/
theorem runUnder_makeFunction (due : Schedule) (name body : String) (generator : Bool)
    (enough : specs.countP ParamSpec.hasDefault ≤ f.stack.length)
    (described : m.heap.Describes f.scope specs (f.stack.take (specs.countP ParamSpec.hasDefault)).reverse params) :
    (makeFunction f name body specs generator).runUnder due m =
      match Signature.ofParams params with
      | .error fault => .error (.raised (.ofCause (.badParameters fault))) m
      | .ok signature =>
        match f.code.bodyFrom? 0 body with
        | none => .error (.defect (.functionBody body) []) m
        | some found =>
          (new (.function ⟨name, signature, .code found.code f.scope generator, []⟩) >>= fun function =>
            pure (function, f.withStack (f.stack.drop (specs.countP ParamSpec.hasDefault)))).runUnder due
              (m.observe fun _ => .makeFunction name (specs.countP ParamSpec.hasDefault)) := by
  let left := f.withStack (f.stack.drop (specs.countP ParamSpec.hasDefault))
  have popped : (popMany f (specs.countP ParamSpec.hasDefault)).runUnder due m =
      .ok ((f.stack.take (specs.countP ParamSpec.hasDefault)).reverse, left) m := by
    rw [popMany, if_neg enough.not_gt]
    rfl
  have made : (parameters left.scope specs _).runUnder due m = .ok params m := runUnder_parameters due described
  rw [makeFunction, runUnder_bind, popped]
  dsimp only
  rw [runUnder_bind, made]
  dsimp only
  cases Signature.ofParams params with
  | error fault => rfl
  | ok signature =>
    dsimp only
    show runUnder due (match f.code.bodyFrom? 0 body with | none => _ | some _ => _) m = _
    cases f.code.bodyFrom? 0 body <;> rfl

/-- Just the legal parameter lists are accepted, as they are, and every other list is refused with the fault of the
first parameter that breaks a rule of its place. An instruction with such a list raises an error of arguments and
leaves the machine as it is; with a legal list it stores a function that has just these parameters. -/
theorem parameter_lists_checked (params : List Param) :
    (∀ s, Signature.ofParams params = .ok s ↔ s.params = params ∧ Signature.Legal params) ∧
    (∀ fault, Signature.ofParams params = .error fault ↔
      ∃ before p later, Signature.FirstOffence params before p later fault) ∧
    ∀ (due : Schedule) (m : Machine) (k : Reentry) (f : Frame) (name body : String) (specs : List ParamSpec)
      (generator : Bool),
      let count := specs.countP ParamSpec.hasDefault
      let ran := (execute k f (.makeFunction name body specs generator)).runUnder due m
      count ≤ f.stack.length → m.heap.Describes f.scope specs (f.stack.take count).reverse params →
        (∀ before p later fault, Signature.FirstOffence params before p later fault →
          ∃ e, ran = .error (.raised e) m ∧ e.type = .builtin .argumentError ∧ e.message = fault.message) ∧
        (Signature.Legal params → ∀ found, f.code.bodyFrom? 0 body = some found →
          ran = (new (.function ⟨name, ⟨params⟩, .code found.code f.scope generator, []⟩) >>= fun function =>
            pure (.next ((f.withStack (f.stack.drop count)).push function))).runUnder due
              (m.observe fun _ => .makeFunction name count)) := by
  refine ⟨fun s => Signature.ofParams_eq_ok_iff, fun fault => Signature.ofParams_eq_error_iff, ?_⟩
  intro due m k f name body specs generator count ran enough described
  have made := runUnder_makeFunction due name body generator enough described
  have ran_eq : ran = (makeFunction f name body specs generator >>= fun made =>
      pure (.next (made.2.push made.1))).runUnder due m := rfl
  constructor
  · intro before p later fault offence
    have refused : Signature.ofParams params = .error fault :=
      Signature.ofParams_eq_error_iff.mpr ⟨before, p, later, offence⟩
    rw [refused] at made
    refine ⟨.ofCause (.badParameters fault), ?_, rfl, rfl⟩
    rw [ran_eq, runUnder_bind, made]
  · intro legal found closed
    have accepted : Signature.ofParams params = .ok ⟨params⟩ := Signature.ofParams_eq_ok_iff.mpr ⟨rfl, legal⟩
    rw [accepted] at made
    simp only [closed] at made
    rw [ran_eq, runUnder_bind, made, runUnder_bind, runUnder_bind]
    cases (new _).runUnder due _ <;> rfl

/-- A parameter without default behind one that has `null` is refused. -/
theorem parameter_lists_checked_required :
    let m := Machine.boot .unlimited .silent
    let f : Frame := { Frame.start (assemble []) m.globals with stack := [.null] }
    let specs : List ParamSpec := [⟨"x", true, false, none⟩, ⟨"y", false, false, some "int"⟩]
    ∃ e, (execute (reentry Machine.fuel) f (.makeFunction "f" "f" specs false)).run m = .error (.raised e) m ∧
      e.message = "parameter 'y' without a default follows parameter 'x' with a default" := by
  intro m f specs
  let x : Param := ⟨"x", none, some .null, false⟩
  let y : Param := ⟨"y", some Kind.int.ref, none, false⟩
  obtain ⟨named, isType⟩ : m.heap.resolve? m.globals "int" = some Kind.int.ref ∧ m.heap.isType Kind.int.ref := by
    decide +kernel
  have described : m.heap.Describes f.scope specs [.null] [x, y] :=
    .defaulted rfl rfl (.plain rfl ⟨_, named, isType, rfl⟩ (.none []))
  have offence : Signature.FirstOffence [x, y] [x] y [] (.requiredAfterDefault "y" "x") := by
    refine ⟨rfl, .requiredAfterDefault x (by decide) rfl rfl ⟨[], [], rfl, rfl, List.forall_mem_nil _⟩, ?_⟩
    intro front q back e split offends
    obtain ⟨rfl, rfl, rfl⟩ : front = [] ∧ q = x ∧ back = [] := by
      simpa [eq_comm, List.append_eq_cons_iff] using split
    have fine : Signature.faultAt? [] x [y] = none := by decide
    exact Signature.faultAt?_eq_none_iff.mp fine e offends
  obtain ⟨-, -, instruction⟩ := parameter_lists_checked [x, y]
  obtain ⟨refused, -⟩ := instruction Heap.collectionDue m (reentry Machine.fuel) f "f" "f" specs false
    (by decide) described
  obtain ⟨e, ran, -, message⟩ := refused _ _ _ _ offence
  exact ⟨e, ran, message⟩

end Engine

end ObjectMachine
