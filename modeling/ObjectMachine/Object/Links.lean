import ObjectMachine.Object
/-!
What an object refers to. A `Node` is an object or a scope; `links` lists the nodes to which
something holds a handle.
-/
namespace ObjectMachine

/-- An object or a scope. -/
inductive Node where
  /-- An object. -/
  | object (r : Ref)
  /-- A scope. -/
  | scope (s : ScopeRef)
deriving DecidableEq

/-- The nodes of several objects. -/
def objectNodes (l : List Ref) : List Node := l.map Node.object

namespace ErrorType

/-- A Type that a program made is an object. -/
def links : ErrorType → List Node
  | builtin _ => []
  | custom type => [.object type]

end ErrorType

/-- The arguments in a trace. -/
def traceLinks (trace : List Layer) : List Node := trace.flatMap fun layer => objectNodes layer.args

namespace ErrorBody

/-- Everything an error without its causes holds. -/
def links (e : ErrorBody) : List Node :=
  e.type.links ++ objectNodes e.value.toList ++ objectNodes (e.payload.map Prod.snd) ++
    traceLinks e.trace

end ErrorBody

namespace Raised

/-- Everything an error holds. -/
def links (e : Raised) : List Node := e.toErrorBody.links ++ e.causes.flatMap ErrorBody.links

end Raised

namespace Pending

/-- What a pending outcome holds. -/
def links : Pending → List Node
  | proceed => []
  | leave value => [.object value]
  | rethrow error => error.links

end Pending

namespace Activation

/-- The operands, the value to return and the scopes of a run. -/
def links (a : Activation) : List Node :=
  objectNodes a.stack ++ objectNodes a.returned.toList ++ [.scope a.scope, .scope a.baseScope]

end Activation

namespace Frame

/-- What a frame holds, its waiting sections included. -/
def links (f : Frame) : List Node :=
  f.toActivation.links ++ f.parked.flatMap fun p => p.body.links ++ p.pending.links

end Frame

namespace GeneratorState

/-- What a generator holds. -/
def links : GeneratorState → List Node
  | fresh frame | suspended frame => frame.links
  | running | finished => []

end GeneratorState

namespace Param

/-- The declared Type and the default of a parameter. -/
def links (p : Param) : List Node := objectNodes p.type.toList ++ objectNodes p.default.toList

end Param

namespace Function

/-- The bound arguments, the parameters and the scope of a function. -/
def links (f : Function) : List Node :=
  objectNodes f.bound ++ f.signature.params.flatMap Param.links ++
    match f.body with
    | .native _ => []
    | .code _ scope _ => [.scope scope]

end Function

namespace Cursor

/-- What an iterator runs over. -/
def links : Cursor → List Node
  | list r _ | text r _ | keys r _ => [.object r]
  | range .. => []

end Cursor

namespace Payload

/-- What a payload holds. -/
def links : Payload → List Node
  | plain | null | bool _ | int _ | num _ | str _ | range _ => []
  | list items => objectNodes items.toList
  | map entries => entries.values.flatMap fun e => [.object e.1, .object e.2]
  | type info => objectNodes info.parents ++ objectNodes info.mro
  | function f => f.links
  | baseView target cls => [.object target, .object cls]
  | iterator cursor => cursor.links
  | generator _ state => state.links
  | error trace causes => traceLinks trace ++ causes.flatMap ErrorBody.links

end Payload

namespace Object

/-- What an object holds: its Type, its members and its payload. -/
def links (o : Object) : List Node :=
  objectNodes o.type.toList ++ objectNodes o.members.values ++ o.payload.links

end Object

namespace Scope

/-- What a scope holds: its variables and the scope around it. -/
def links (s : Scope) : List Node :=
  objectNodes s.vars.values ++ (s.outer.map Node.scope).toList

end Scope

end ObjectMachine
