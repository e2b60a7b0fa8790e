import ObjectMachine.Heap.Scopes
import ObjectMachine.Native.Declarations
/-!
The heap at the start of a machine. The singletons and the built-in Types are stored first, in the
order of their fixed handles; the built-in functions follow, each after the objects of its default
values. The outermost scope names the Types and the global functions. Nothing of this is booked.
-/
namespace ObjectMachine

namespace ScopeRef

/-- The outermost scope, which holds what is built in. -/
def builtins : ScopeRef := ⟨0⟩

/-- The scope of the host and of top-level code. -/
def globals : ScopeRef := ⟨1⟩

end ScopeRef

namespace Kind

/-- The Type of a kind of data. -/
def typeObject (k : Kind) : Object :=
  .ofPayload
    (.type
      { name := k.name
        parents := (k.parent.map Kind.ref).toList
        mro := k.lineage.map Kind.ref })
    none

end Kind

namespace ErrorKind

/-- The Type of a kind of error; the root of all errors is an object. -/
def typeObject (k : ErrorKind) : Object :=
  .ofPayload
    (.type
      { name := k.name
        parents := [(k.parent.map ErrorKind.ref).getD Kind.object.ref]
        mro := k.lineage.map ErrorKind.ref ++ [Kind.object.ref] })
    none

end ErrorKind

namespace Heap

/-- A heap without objects and scopes. -/
def empty : Heap := ⟨.empty, .empty, .unlimited, 0⟩

/-- The objects with fixed handles, in the order of the handles. -/
def fixedObjects : List Object :=
  [.ofPayload .null none, .ofPayload (.bool true) none, .ofPayload (.bool false) none] ++
    Kind.all.map Kind.typeObject ++ ErrorKind.all.map ErrorKind.typeObject

/-- Stores several objects. -/
def placeAll (h : Heap) (objects : List Object) : Heap :=
  objects.foldl (fun h o => (h.place o).2) h

/-- The object of a declared default. -/
def placeDefault (h : Heap) : DeclaredDefault → Ref × Heap
  | .null => (.null, h)
  | .bool b => (.ofBool b, h)
  | .int i => h.place (.ofPayload (.int i) none)
  | .str s => h.place (.ofPayload (.str s) none)

/-- The parameter of a declaration. -/
def placeParam (h : Heap) (p : DeclaredParam) : Param × Heap :=
  let param (default : Option Ref) : Param :=
    { name := p.name, type := p.type.map Kind.ref, default, rest := p.rest }
  match p.default with
  | none => (param none, h)
  | some d =>
    let (value, h) := h.placeDefault d
    (param (some value), h)

/-- The parameters of a declaration, in order. -/
def placeParams (h : Heap) : List DeclaredParam → List Param × Heap
  | [] => ([], h)
  | p :: later =>
    let (param, h) := h.placeParam p
    let (params, h) := h.placeParams later
    (param :: params, h)

/-- The function of a declaration. -/
def placeNative (h : Heap) (d : Declaration) : Ref × Heap :=
  let (params, h) := h.placeParams d.params
  h.place
    (.ofPayload
      (.function { name := d.name, signature := ⟨params⟩, body := .native d.native, bound := [] })
      none)

/-- Makes functions members of a Type. -/
def installMembers (h : Heap) (type : Ref) (declarations : List Declaration) : Heap :=
  declarations.foldl
    (fun h d =>
      let (function, h) := h.placeNative d
      h.setMember type d.name function)
    h

/-- Defines functions in the outermost scope. -/
def installGlobals (h : Heap) (declarations : List Declaration) : Heap :=
  declarations.foldl
    (fun h d =>
      let (function, h) := h.placeNative d
      h.define .builtins d.name function)
    h

/-- The heap at the start. -/
def boot : Heap :=
  let h := empty.placeAll fixedObjects
  let h := Kind.all.foldl (fun h k => h.installMembers k.ref (Declaration.ofKind k)) h
  let h := h.installMembers ErrorKind.error.ref Declaration.ofError
  let h := (h.placeScope ⟨.empty, none⟩).2
  let h := Kind.all.foldl (fun h k => h.define .builtins k.name k.ref) h
  let h := ErrorKind.all.foldl (fun h k => h.define .builtins k.name k.ref) h
  let h := h.installGlobals Declaration.globals
  (h.placeScope ⟨.empty, some .builtins⟩).2

end Heap

end ObjectMachine
