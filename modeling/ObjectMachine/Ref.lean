/-!
Handles. A `Ref` names an object and a `ScopeRef` names a scope; both are slot numbers of an arena.
Three objects have fixed handles for as long as a machine lives.
-/
namespace ObjectMachine

/-- The handle of an object. Two values are the same object exactly when their handles agree. -/
structure Ref where
  /-- The slot that holds the object. -/
  slot : Nat
deriving DecidableEq

/-- The handle of a scope. -/
structure ScopeRef where
  /-- The slot that holds the scope. -/
  slot : Nat
deriving DecidableEq

namespace Ref

instance : Inhabited Ref := ⟨⟨0⟩⟩

/-- The object `null`. -/
def null : Ref := ⟨0⟩

/-- The object `true`. -/
def yes : Ref := ⟨1⟩

/-- The object `false`. -/
def no : Ref := ⟨2⟩

/-- The object of a truth value. -/
def ofBool (b : Bool) : Ref := if b then yes else no

/-- The three objects that are never released. -/
def singletons : List Ref := [null, yes, no]

end Ref

instance : Inhabited ScopeRef := ⟨⟨0⟩⟩

end ObjectMachine
