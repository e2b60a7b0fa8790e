import ObjectMachine.Heap
/-!
Variables. A name is looked up outward along the chain of scopes; a definition or removal touches
only the scope it is issued on. A name that consists of underscores is never bound.
-/
namespace ObjectMachine

/-- Whether a name is made of underscores only. -/
def isDiscardName (name : String) : Bool :=
  !name.isEmpty && name.toList.all fun c => c == '_'

namespace Heap

/-- The innermost scope of a chain of at most `n` scopes that defines the name, with the value. -/
def bindingWithin? (h : Heap) (name : String) : Nat → ScopeRef → Option (ScopeRef × Ref)
  | 0, _ => none
  | n + 1, s =>
    match h.scope? s with
    | none => none
    | some scope =>
      match scope.vars.get? name with
      | some value => some (s, value)
      | none =>
        match scope.outer with
        | some outer => bindingWithin? h name n outer
        | none => none

/-- The innermost scope that defines the name, with the value. A chain without repetition has no
more scopes than there are slots. -/
def binding? (h : Heap) (s : ScopeRef) (name : String) : Option (ScopeRef × Ref) :=
  h.bindingWithin? name h.scopes.size s

/-- The value of a variable as seen from a scope. -/
def resolve? (h : Heap) (s : ScopeRef) (name : String) : Option Ref :=
  if isDiscardName name then none else (h.binding? s name).map Prod.snd

/-- Defines a variable in a scope. -/
def define (h : Heap) (s : ScopeRef) (name : String) (value : Ref) : Heap :=
  if isDiscardName name then h
  else h.modifyScope s fun scope => { scope with vars := scope.vars.insert name value }

/-- Assigns to a variable as seen from a scope; `none` if nothing defines it. -/
def assign? (h : Heap) (s : ScopeRef) (name : String) (value : Ref) : Option Heap :=
  if isDiscardName name then some h
  else
    match h.binding? s name with
    | some (owner, _) =>
      some (h.modifyScope owner fun scope => { scope with vars := scope.vars.insert name value })
    | none => none

/-- Removes a variable from a scope; `none` if the scope does not define it. -/
def undefine? (h : Heap) (s : ScopeRef) (name : String) : Option Heap :=
  match h.scope? s with
  | none => none
  | some scope =>
    if scope.vars.contains name then
      some (h.modifyScope s fun scope => { scope with vars := scope.vars.erase name })
    else none

/-- Whether a chain of at most `n` scopes leads outward from a scope to another. -/
def leadsWithin (h : Heap) (outer : ScopeRef) : Nat → ScopeRef → Bool
  | 0, _ => false
  | n + 1, s =>
    if s = outer then true
    else
      match h.scope? s with
      | none => false
      | some scope =>
        match scope.outer with
        | some next => leadsWithin h outer n next
        | none => false

/-- Whether a scope is another one or is nested in it. -/
def isWithin (h : Heap) (inner outer : ScopeRef) : Bool := h.leadsWithin outer h.scopes.size inner

end Heap

end ObjectMachine
