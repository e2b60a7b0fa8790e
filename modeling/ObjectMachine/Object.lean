import ObjectMachine.Table
import ObjectMachine.Binary64
import ObjectMachine.Code
import ObjectMachine.Kind
import ObjectMachine.Signature
import ObjectMachine.Native
/-!
Objects. An object has its own members, possibly a Type of its own, and the payload of its kind.
Frames, suspended or running, are data too, because a generator holds one.
-/
namespace ObjectMachine

/-- Which Type an error has: a built-in one, or one that a program made. -/
inductive ErrorType where
  /-- A built-in kind of error. -/
  | builtin (kind : ErrorKind)
  /-- The handle of a Type. -/
  | custom (type : Ref)
deriving DecidableEq

/-- A call through which an error passed. -/
structure Layer where
  /-- The name of the function. -/
  function : String
  /-- The arguments it received. -/
  args : List Ref
deriving DecidableEq

/-- An error without its causes. -/
structure ErrorBody where
  /-- The Type of the error. -/
  type : ErrorType
  /-- The wording. -/
  message : String
  /-- The error object, once there is one. -/
  value : Option Ref
  /-- The calls through which the error passed, innermost first. -/
  trace : List Layer
  /-- Further values that an error object shows as members. -/
  payload : List (String × Ref)
deriving DecidableEq

/-- An error in flight. A cause has no causes of its own. -/
structure Raised extends ErrorBody where
  /-- The errors that led to this one. -/
  causes : List ErrorBody
deriving DecidableEq

/-- A range of integers that is not empty by mistake: the step is never zero. -/
structure Range where
  /-- The first integer. -/
  start : Int64
  /-- The bound that is not reached. -/
  stop : Int64
  /-- The distance between neighbours. -/
  step : Int64
  /-- A range advances. -/
  step_ne_zero : step ≠ 0
deriving DecidableEq

/-- What a Type is made of. -/
structure TypeInfo where
  /-- Its name. -/
  name : String
  /-- The Types it extends directly. -/
  parents : List Ref
  /-- Its ancestors in the order in which members are looked up, itself first. -/
  mro : List Ref
deriving DecidableEq

/-- What a function does when it is called. -/
inductive FunctionBody where
  /-- A built-in function. -/
  | native (native : Native)
  /-- Code, and the scope in which it was defined; a generator runs it piecemeal. -/
  | code (code : Code) (scope : ScopeRef) (generator : Bool)
deriving DecidableEq

/-- A function. -/
structure Function where
  /-- Its name. -/
  name : String
  /-- Its parameters. -/
  signature : Signature
  /-- What it does. -/
  body : FunctionBody
  /-- The leading arguments that are bound already. -/
  bound : List Ref
deriving DecidableEq

/-- The state of a built-in iterator. -/
inductive Cursor where
  /-- The next position of a list. -/
  | list (list : Ref) (index : Nat)
  /-- The byte of a text at which its next character starts. -/
  | text (text : Ref) (offset : Nat)
  /-- The next integer of a range. -/
  | range (next stop step : Int64)
  /-- The next position among the keys of a map. -/
  | keys (map : Ref) (index : Nat)
deriving DecidableEq

/-- The state of one run of code. -/
structure Activation where
  /-- The code. -/
  code : Code
  /-- The position of the next instruction. -/
  ip : Nat
  /-- The operands, top first. -/
  stack : List Ref
  /-- The current scope. -/
  scope : ScopeRef
  /-- The scope in which the run started. -/
  baseScope : ScopeRef
  /-- The value with which the run ends. -/
  returned : Option Ref
deriving DecidableEq

/-- The sections of a protected block. -/
inductive Phase where
  /-- The code that is protected. -/
  | guarded
  /-- The code that handles an error. -/
  | handler
  /-- The code that runs in any case. -/
  | cleanup
deriving DecidableEq

/-- What happens after the cleanup. -/
inductive Pending where
  /-- The code after the block. -/
  | proceed
  /-- The frame ends with a value. -/
  | leave (value : Ref)
  /-- The error continues. -/
  | rethrow (error : Raised)
deriving DecidableEq

/-- A section of a protected block that waits for its generator to be resumed. -/
structure Parked where
  /-- Which section it is. -/
  phase : Phase
  /-- What happens after the cleanup. -/
  pending : Pending
  /-- The state of the section. -/
  body : Activation
deriving DecidableEq

/-- A run of code together with the sections that wait inside it, outermost first. -/
structure Frame extends Activation where
  /-- The sections that wait: each is the current instruction of the one before. -/
  parked : List Parked
deriving DecidableEq

/-- The state of a generator; only one that can be resumed holds a frame. -/
inductive GeneratorState where
  /-- Not started. -/
  | fresh (frame : Frame)
  /-- Between two items. -/
  | suspended (frame : Frame)
  /-- Being resumed. -/
  | running
  /-- Ended. -/
  | finished
deriving DecidableEq

/-- The identity of a map key. Numbers that are integers are the same key as that integer, texts
are compared by their characters, and all other objects by their handles. -/
inductive Key where
  | null
  | bool (b : Bool)
  | int (i : Int64)
  | num (x : Binary64)
  | str (s : String)
  | object (r : Ref)
deriving DecidableEq

/-- The entries of a map: the key objects and the values, by the identity of the keys. -/
abbrev Entries := Table Key (Ref × Ref)

namespace Entries

/-- Writes an entry; a key that is present keeps its place and its object. -/
def put (entries : Entries) (key : Key) (keyObject value : Ref) : Entries :=
  entries.update key fun
    | some (first, _) => (first, value)
    | none => (keyObject, value)

end Entries

/-- The payload of an object. -/
inductive Payload where
  /-- Nothing but members. -/
  | plain
  | null
  | bool (b : Bool)
  | int (i : Int64)
  | num (x : Binary64)
  | str (s : String)
  | list (items : Array Ref)
  | map (entries : Entries)
  | range (range : Range)
  | type (info : TypeInfo)
  | function (function : Function)
  /-- A view of `target` that looks up members after `cls` among its ancestors. -/
  | baseView (target cls : Ref)
  | iterator (cursor : Cursor)
  | generator (name : String) (state : GeneratorState)
  /-- What an error object remembers of its flight. -/
  | error (trace : List Layer) (causes : List ErrorBody)
deriving DecidableEq

namespace Payload

/-- The name of the payload in counts and internal messages. -/
def label : Payload → String
  | plain => "Plain"
  | null => "Null"
  | bool _ => "Bool"
  | int _ => "Int"
  | num _ => "Num"
  | str _ => "Str"
  | list _ => "List"
  | map _ => "Map"
  | range _ => "Range"
  | type _ => "Type"
  | function _ => "Function"
  | baseView .. => "BaseView"
  | iterator _ => "Iterator"
  | generator .. => "Generator"
  | error .. => "Error"

/-- The handle of the Type of an object that has none of its own. -/
def typeRef : Payload → Ref
  | plain => Kind.object.ref
  | null => Kind.null.ref
  | bool _ => Kind.bool.ref
  | int _ => Kind.int.ref
  | num _ => Kind.num.ref
  | str _ => Kind.string.ref
  | list _ => Kind.list.ref
  | map _ => Kind.map.ref
  | range _ => Kind.range.ref
  | type _ => Kind.type.ref
  | function _ => Kind.function.ref
  | baseView .. => Kind.baseView.ref
  | iterator _ => Kind.iterator.ref
  | generator .. => Kind.generator.ref
  | error .. => ErrorKind.error.ref

end Payload

/-- An object. -/
structure Object where
  /-- The Type, if it is not the one of the payload. -/
  type : Option Ref
  /-- Its own members. -/
  members : Table String Ref
  /-- Its payload. -/
  payload : Payload
deriving DecidableEq

namespace Object

/-- An object without members. -/
def ofPayload (payload : Payload) (type : Option Ref) : Object := ⟨type, .empty, payload⟩

/-- The handle of its Type. -/
def typeRef (o : Object) : Ref := o.type.getD o.payload.typeRef

end Object

/-- A table of variables with the scope around it. -/
structure Scope where
  /-- The variables. -/
  vars : Table String Ref
  /-- The scope around it. -/
  outer : Option ScopeRef
deriving DecidableEq

namespace Frame

/-- A frame about to run code in a scope. -/
def start (code : Code) (scope : ScopeRef) : Frame :=
  { code, ip := 0, stack := [], scope, baseScope := scope, returned := none, parked := [] }

end Frame

end ObjectMachine
