import ObjectMachine.Ref
/-!
Parameter lists. A list is checked once, when a function is made: names are distinct, required
parameters come first, then either parameters with defaults or one parameter that collects the rest.
A call binds its arguments in order, fills in defaults, and checks declared Types.
-/
namespace ObjectMachine

/-- A parameter of a function. -/
structure Param where
  /-- The name under which the body sees the argument. -/
  name : String
  /-- The declared Type. -/
  type : Option Ref
  /-- The value of an omitted argument. -/
  default : Option Ref
  /-- Whether the parameter collects all further arguments. -/
  rest : Bool
deriving DecidableEq

/-- A parameter list that was accepted. -/
structure Signature where
  /-- The parameters, in order. -/
  params : List Param
deriving DecidableEq

/-- Why a parameter list is refused. -/
inductive SignatureFault where
  /-- Two parameters share a name. -/
  | duplicate (name : String)
  /-- A collecting parameter is not the last one. -/
  | restNotLast (name : String)
  /-- A collecting parameter stands in a list with defaults. -/
  | restWithDefault (name : String)
  /-- A required parameter follows one with a default. -/
  | requiredAfterDefault (name previous : String)
deriving DecidableEq

namespace SignatureFault

/-- The wording of the refusal. -/
def message : SignatureFault → String
  | duplicate name => s!"duplicate parameter '{name}'"
  | restNotLast name => s!"rest parameter '{name}' must be the last parameter"
  | restWithDefault name => s!"rest parameter '{name}' cannot be combined with default values"
  | requiredAfterDefault name previous =>
    s!"parameter '{name}' without a default follows parameter '{previous}' with a default"

end SignatureFault

/-- Why arguments do not fit. -/
inductive Mismatch where
  /-- More arguments than parameters; bound arguments are not counted. -/
  | tooMany (expected actual : Nat)
  /-- No argument for a required parameter. -/
  | missing (param : String)
  /-- An argument that is not an instance of the declared Type. -/
  | wrongType (param : String) (expected value : Ref)
deriving DecidableEq

/-- Arguments in their places. -/
structure Matched where
  /-- One value for each parameter that does not collect, in order. -/
  fixed : List Ref
  /-- The collected arguments, if a parameter collects. -/
  rest : Option (List Ref)
deriving DecidableEq

namespace Matched

/-- All values in order. -/
def toList (m : Matched) : List Ref := m.fixed ++ m.rest.getD []

end Matched

namespace Signature

/-- The first fault of a list, given the names before it and the last of them with a default. -/
def faultFrom (seen : List String) (lastDefault : Option String) :
    List Param → Option SignatureFault
  | [] => none
  | p :: later =>
    if p.name ∈ seen then some (.duplicate p.name)
    else if p.rest then
      if !later.isEmpty then some (.restNotLast p.name)
      else if p.default.isSome || lastDefault.isSome then some (.restWithDefault p.name)
      else none
    else if p.default.isSome then faultFrom (p.name :: seen) (some p.name) later
    else
      match lastDefault with
      | some previous => some (.requiredAfterDefault p.name previous)
      | none => faultFrom (p.name :: seen) none later

/-- Accepts a parameter list without faults. -/
def ofParams (params : List Param) : Except SignatureFault Signature :=
  match faultFrom [] none params with
  | some fault => .error fault
  | none => .ok ⟨params⟩

/-- The parameter that collects all further arguments. -/
def restParam? (s : Signature) : Option Param :=
  match s.params.getLast? with
  | some p => if p.rest then some p else none
  | none => none

/-- Whether a parameter collects all further arguments. -/
def hasRest (s : Signature) : Bool := s.restParam?.isSome

/-- The parameters that do not collect. -/
def positional (s : Signature) : List Param :=
  if s.hasRest then s.params.dropLast else s.params

/-- How many parameters have to be given. -/
def requiredCount (s : Signature) : Nat :=
  s.params.countP fun p => !p.rest && p.default.isNone

/-- Whether a number of arguments fits. -/
def accepts (s : Signature) (count : Nat) : Bool :=
  s.requiredCount ≤ count && (s.hasRest || count ≤ s.positional.length)

/-- The parameters that are left once `bound` leading ones are filled. -/
def visible (s : Signature) (bound : Nat) : List Param :=
  s.params.drop (min bound s.positional.length)

/-- Checks a value against the declared Type of a parameter. -/
def checkType (isInstance : Ref → Ref → Bool) (p : Param) (value : Ref) : Except Mismatch Unit :=
  match p.type with
  | none => .ok ()
  | some type =>
    if isInstance value type then .ok () else .error (.wrongType p.name type value)

/-- Fills parameters that do not collect: their values, and the arguments left over. -/
def fill (isInstance : Ref → Ref → Bool) :
    List Param → List Ref → Except Mismatch (List Ref × List Ref)
  | [], args => .ok ([], args)
  | p :: later, args => do
    let (value, args) ←
      match args, p.default with
      | value :: args, _ => Except.ok (value, args)
      | [], some value => Except.ok (value, [])
      | [], none => Except.error (.missing p.name)
    checkType isInstance p value
    let (values, args) ← fill isInstance later args
    return (value :: values, args)

/-- Checks all values against the declared Type of one parameter. -/
def checkAll (isInstance : Ref → Ref → Bool) (p : Param) : List Ref → Except Mismatch Unit
  | [] => .ok ()
  | value :: later => do
    checkType isInstance p value
    checkAll isInstance p later

/-- Puts arguments in their places; the first `bound` of them were bound before the call. -/
def matchArgs (s : Signature) (isInstance : Ref → Ref → Bool) (args : List Ref) (bound : Nat) :
    Except Mismatch Matched := do
  let positional := s.positional
  if positional.length < args.length && !s.hasRest then
    throw (.tooMany (positional.length - bound) (args.length - bound))
  let (fixed, left) ← fill isInstance positional args
  match s.restParam? with
  | some p => do
    checkAll isInstance p left
    return { fixed, rest := some left }
  | none => return { fixed, rest := none }

end Signature

end ObjectMachine
