import ObjectMachine.Native
import ObjectMachine.Kind
/-!
The declarations of the built-in functions: under which name, with which parameters, and as members
of which Type they are found.
-/
namespace ObjectMachine

/-- A default value of a built-in function. -/
inductive DeclaredDefault where
  | null
  | bool (b : Bool)
  | int (i : Int64)
  | str (s : String)
deriving DecidableEq

/-- A parameter of a built-in function. -/
structure DeclaredParam where
  /-- The name of the parameter. -/
  name : String
  /-- The kind of data it accepts. -/
  type : Option Kind := none
  /-- The value of an omitted argument. -/
  default : Option DeclaredDefault := none
  /-- Whether it collects all further arguments. -/
  rest : Bool := false
deriving DecidableEq

/-- A built-in function with its name and parameters. -/
structure Declaration where
  /-- The name of the function. -/
  name : String
  /-- Its parameters. -/
  params : List DeclaredParam
  /-- What it does. -/
  native : Native
deriving DecidableEq

namespace Declaration

/-- A parameter without declared kind. -/
def any (name : String) : DeclaredParam := { name }

/-- A parameter of a kind. -/
def typed (name : String) (kind : Kind) : DeclaredParam := { name, type := some kind }

/-- A parameter that collects. -/
def rest (name : String) : DeclaredParam := { name, rest := true }

/-- A parameter with a default. -/
def withDefault (p : DeclaredParam) (d : DeclaredDefault) : DeclaredParam :=
  { p with default := some d }

/-- The Type that a constructor is asked for. -/
def cls : DeclaredParam := typed "cls" .type

/-- Members of `num`. -/
def ofNum : List Declaration :=
  let self := typed "self" .num
  let other := typed "other" .num
  [⟨"op_add", [self, other], .number .add⟩,
    ⟨"op_sub", [self, other], .number .sub⟩,
    ⟨"op_mul", [self, other], .number .mul⟩,
    ⟨"op_div", [self, other], .number .div⟩,
    ⟨"op_mod", [self, other], .number .mod⟩,
    ⟨"op_pow", [self, other], .number .pow⟩,
    ⟨"op_neg", [self], .number .neg⟩,
    ⟨"op_eq", [self, any "other"], .number .eq⟩,
    ⟨"op_lt", [self, other], .number .lt⟩,
    ⟨"op_le", [self, other], .number .le⟩,
    ⟨"op_gt", [self, other], .number .gt⟩,
    ⟨"op_ge", [self, other], .number .ge⟩,
    ⟨"op_bool", [self], .number .bool⟩,
    ⟨"op_str", [self], .number .str⟩,
    ⟨"create", [cls, withDefault (any "value") (.int 0)], .number .createNum⟩]

/-- Members of `int`; division and powers are those of `num`. -/
def ofInt : List Declaration :=
  let self := typed "self" .int
  let other := typed "other" .num
  [⟨"op_add", [self, other], .number .add⟩,
    ⟨"op_sub", [self, other], .number .sub⟩,
    ⟨"op_mul", [self, other], .number .mul⟩,
    ⟨"op_mod", [self, other], .number .mod⟩,
    ⟨"op_neg", [self], .number .neg⟩,
    ⟨"op_eq", [self, any "other"], .number .eq⟩,
    ⟨"op_lt", [self, other], .number .lt⟩,
    ⟨"op_le", [self, other], .number .le⟩,
    ⟨"op_gt", [self, other], .number .gt⟩,
    ⟨"op_ge", [self, other], .number .ge⟩,
    ⟨"op_bool", [self], .number .bool⟩,
    ⟨"op_str", [self], .number .str⟩,
    ⟨"create", [cls, withDefault (any "value") (.int 0)], .number .createInt⟩]

/-- Members of `bool`. -/
def ofBool : List Declaration :=
  [⟨"op_bool", [typed "self" .bool], .truth .bool⟩,
    ⟨"op_str", [typed "self" .bool], .truth .str⟩,
    ⟨"create", [cls, withDefault (any "value") (.bool false)], .truth .create⟩]

/-- Members of `null`. -/
def ofNull : List Declaration :=
  [⟨"op_bool", [typed "self" .null], .truth .nullBool⟩,
    ⟨"op_str", [typed "self" .null], .truth .nullStr⟩]

/-- Members of `type`. -/
def ofType : List Declaration :=
  [⟨"op_call", [cls, rest "args"], .object .typeCall⟩,
    ⟨"op_str", [typed "self" .type], .object .typeStr⟩]

/-- Members of `string`. -/
def ofString : List Declaration :=
  let self := typed "self" .string
  let other := typed "other" .string
  [⟨"op_add", [self, other], .text .add⟩,
    ⟨"op_mul", [self, typed "count" .int], .text .mul⟩,
    ⟨"op_get_item", [self, typed "index" .int], .text .getItem⟩,
    ⟨"op_len", [self], .text .len⟩,
    ⟨"op_contains", [self, other], .text .contains⟩,
    ⟨"op_eq", [self, any "other"], .text .eq⟩,
    ⟨"op_lt", [self, other], .text .lt⟩,
    ⟨"op_le", [self, other], .text .le⟩,
    ⟨"op_gt", [self, other], .text .gt⟩,
    ⟨"op_ge", [self, other], .text .ge⟩,
    ⟨"op_bool", [self], .text .bool⟩,
    ⟨"op_str", [self], .text .str⟩,
    ⟨"op_iter", [self], .text .iter⟩,
    ⟨"upper", [self], .text .upper⟩,
    ⟨"lower", [self], .text .lower⟩,
    ⟨"split", [self, withDefault (any "sep") .null], .text .split⟩,
    ⟨"join", [self, typed "items" .list], .text .join⟩,
    ⟨"create", [cls, withDefault (any "value") (.str "")], .text .create⟩]

/-- Members of `list`. -/
def ofList : List Declaration :=
  let self := typed "self" .list
  let index := typed "index" .int
  [⟨"append", [self, any "item"], .list .append⟩,
    ⟨"pop", [self], .list .pop⟩,
    ⟨"op_get_item", [self, index], .list .getItem⟩,
    ⟨"op_set_item", [self, index, any "value"], .list .setItem⟩,
    ⟨"op_del_item", [self, index], .list .delItem⟩,
    ⟨"op_len", [self], .list .len⟩,
    ⟨"op_contains", [self, any "item"], .list .contains⟩,
    ⟨"op_add", [self, typed "other" .list], .list .add⟩,
    ⟨"op_eq", [self, any "other"], .list .eq⟩,
    ⟨"op_iter", [self], .list .iter⟩,
    ⟨"op_bool", [self], .list .bool⟩,
    ⟨"op_str", [self], .list .str⟩,
    ⟨"create", [cls, withDefault (any "iterable") .null], .list .create⟩]

/-- Members of `map`. -/
def ofMap : List Declaration :=
  let self := typed "self" .map
  let key := any "key"
  [⟨"op_get_item", [self, key], .map .getItem⟩,
    ⟨"op_set_item", [self, key, any "value"], .map .setItem⟩,
    ⟨"op_del_item", [self, key], .map .delItem⟩,
    ⟨"get", [self, key, withDefault (any "default") .null], .map .get⟩,
    ⟨"keys", [self], .map .keys⟩,
    ⟨"values", [self], .map .values⟩,
    ⟨"op_len", [self], .map .len⟩,
    ⟨"op_contains", [self, key], .map .contains⟩,
    ⟨"op_iter", [self], .map .iter⟩,
    ⟨"op_bool", [self], .map .bool⟩,
    ⟨"op_str", [self], .map .str⟩,
    ⟨"create", [cls], .map .create⟩]

/-- Members of `range`. -/
def ofRange : List Declaration :=
  let self := typed "self" .range
  [⟨"create", [cls, typed "start" .int, withDefault (any "stop") .null,
      withDefault (typed "step" .int) (.int 1)], .range .create⟩,
    ⟨"op_iter", [self], .range .iter⟩,
    ⟨"op_len", [self], .range .len⟩,
    ⟨"op_contains", [self, any "value"], .range .contains⟩,
    ⟨"op_get_item", [self, typed "index" .int], .range .getItem⟩,
    ⟨"op_str", [self], .range .str⟩]

/-- Members of `function`. -/
def ofFunction : List Declaration :=
  let self := typed "self" .function
  [⟨"bind", [self, any "this"], .object .bind⟩,
    ⟨"op_str", [self], .object .functionStr⟩]

/-- Members of `iterator`. -/
def ofIterator : List Declaration :=
  let self := typed "self" .iterator
  [⟨"next", [self], .object .iteratorNext⟩,
    ⟨"op_iter", [self], .object .iteratorSelf⟩]

/-- Members of `generator`. -/
def ofGenerator : List Declaration :=
  let self := typed "self" .generator
  [⟨"next", [self], .object .generatorNext⟩,
    ⟨"op_iter", [self], .object .iteratorSelf⟩]

/-- The members of the Type of a kind of data. -/
def ofKind : Kind → List Declaration
  | .object | .baseView => []
  | .type => ofType
  | .null => ofNull
  | .bool => ofBool
  | .num => ofNum
  | .int => ofInt
  | .string => ofString
  | .list => ofList
  | .map => ofMap
  | .range => ofRange
  | .function => ofFunction
  | .iterator => ofIterator
  | .generator => ofGenerator

/-- The members of the root of all errors. -/
def ofError : List Declaration :=
  [⟨"create", [cls, rest "args"], .object .errorCreate⟩,
    ⟨"op_str", [any "self"], .object .errorStr⟩]

/-- The global functions. -/
def globals : List Declaration :=
  [⟨"print", [rest "values"], .global .print⟩,
    ⟨"typeof", [any "value"], .global .typeOf⟩,
    ⟨"nameof", [any "value"], .global .nameOf⟩,
    ⟨"mro", [typed "type" .type], .global .mro⟩,
    ⟨"isinstance", [any "value", typed "type" .type], .global .isInstance⟩,
    ⟨"len", [any "value"], .global .len⟩,
    ⟨"iter", [any "value"], .global .iter⟩,
    ⟨"next", [any "iterator"], .global .next⟩,
    ⟨"base", [typed "type" .type, any "value"], .global .base⟩,
    ⟨"rawget", [any "value", typed "name" .string], .global .rawGet⟩,
    ⟨"rawset", [any "value", typed "name" .string, any "member"], .global .rawSet⟩,
    ⟨"hasmember", [any "value", typed "name" .string], .global .hasMember⟩]

end Declaration

end ObjectMachine
