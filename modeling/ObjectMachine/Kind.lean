import ObjectMachine.Ref
/-!
The kinds of built-in data and the built-in kinds of error. Each is a Type object at a fixed
handle: the singletons come first, then the kinds of data, then the kinds of error, in the order in
which they are listed here.
-/
namespace ObjectMachine

/-- The kinds of built-in data. -/
inductive Kind where
  /-- Plain objects, and the root of every hierarchy. -/
  | object
  /-- Types. -/
  | type
  /-- The single value `null`. -/
  | null
  /-- Truth values. -/
  | bool
  /-- Floating-point numbers. -/
  | num
  /-- 64-bit integers. -/
  | int
  /-- Text. -/
  | string
  /-- Lists. -/
  | list
  /-- Maps. -/
  | map
  /-- Ranges of integers. -/
  | range
  /-- Functions. -/
  | function
  /-- Built-in iterators. -/
  | iterator
  /-- Generators. -/
  | generator
  /-- Views of an object from the middle of its ancestry. -/
  | baseView
deriving DecidableEq

namespace Kind

/-- All kinds, in the order of their handles. -/
def all : List Kind :=
  [object, type, null, bool, num, int, string, list, map, range, function, iterator, generator,
    baseView]

/-- The name under which programs know the kind. -/
def name : Kind → String
  | object => "object"
  | type => "type"
  | null => "null"
  | bool => "bool"
  | num => "num"
  | int => "int"
  | string => "string"
  | list => "list"
  | map => "map"
  | range => "range"
  | function => "function"
  | iterator => "iterator"
  | generator => "generator"
  | baseView => "baseview"

/-- The kind it extends: integers are numbers, all else is an object. -/
def parent : Kind → Option Kind
  | object => none
  | int => some num
  | _ => some object

/-- The position in `all`. -/
def index : Kind → Nat
  | object => 0
  | type => 1
  | null => 2
  | bool => 3
  | num => 4
  | int => 5
  | string => 6
  | list => 7
  | map => 8
  | range => 9
  | function => 10
  | iterator => 11
  | generator => 12
  | baseView => 13

/-- The handle of the kind's Type. -/
def ref (k : Kind) : Ref := ⟨3 + k.index⟩

/-- The kind itself and the kinds it extends, nearest first. -/
def lineage : Kind → List Kind
  | object => [object]
  | int => [int, num, object]
  | k => [k, object]

end Kind

/-- The built-in kinds of error. -/
inductive ErrorKind where
  /-- The root of all errors. -/
  | error
  /-- An object has no such member. -/
  | attributeError
  /-- A member of `null` was asked for. -/
  | nullError
  /-- Arguments that do not fit. -/
  | argumentError
  /-- Too many or too few arguments. -/
  | argumentCountError
  /-- Parents that admit no common order of ancestors. -/
  | mroError
  /-- A value of the wrong Type. -/
  | typeError
  /-- A name that no scope defines. -/
  | nameError
  /-- Division by zero. -/
  | zeroDivisionError
  /-- A position outside a sequence. -/
  | indexError
  /-- A key that a map does not hold. -/
  | keyError
  /-- A value of the right Type that cannot be used. -/
  | valueError
  /-- The end of an iteration. -/
  | iteratorStopped
  /-- A yield outside a generator. -/
  | yieldSignal
  /-- Calls nested too deeply. -/
  | recursionError
  /-- Too many objects. -/
  | memoryError
  /-- Too many instructions. -/
  | timeoutError
deriving DecidableEq

namespace ErrorKind

/-- All kinds of error, in the order of their handles. -/
def all : List ErrorKind :=
  [error, attributeError, nullError, argumentError, argumentCountError, mroError, typeError,
    nameError, zeroDivisionError, indexError, keyError, valueError, iteratorStopped, yieldSignal,
    recursionError, memoryError, timeoutError]

/-- The name under which programs and hosts know the kind of error. -/
def name : ErrorKind → String
  | error => "Error"
  | attributeError => "AttributeError"
  | nullError => "NullError"
  | argumentError => "ArgumentError"
  | argumentCountError => "ArgumentCountError"
  | mroError => "MroError"
  | typeError => "TypeError"
  | nameError => "NameError"
  | zeroDivisionError => "ZeroDivisionError"
  | indexError => "IndexError"
  | keyError => "KeyError"
  | valueError => "ValueError"
  | iteratorStopped => "IteratorStopped"
  | yieldSignal => "YieldSignal"
  | recursionError => "RecursionError"
  | memoryError => "MemoryError"
  | timeoutError => "TimeoutError"

/-- The kind of error with a given name. -/
def ofName? (s : String) : Option ErrorKind := all.find? fun k => k.name == s

/-- The kind of error it refines. -/
def parent : ErrorKind → Option ErrorKind
  | error => none
  | nullError => some attributeError
  | argumentCountError | mroError => some argumentError
  | _ => some error

/-- The kind itself and the kinds it refines, nearest first. -/
def lineage : ErrorKind → List ErrorKind
  | error => [error]
  | nullError => [nullError, attributeError, error]
  | argumentCountError => [argumentCountError, argumentError, error]
  | mroError => [mroError, argumentError, error]
  | k => [k, error]

/-- Whether one kind of error is, or refines, another. -/
def isSubkindOf (k other : ErrorKind) : Bool := k.lineage.contains other

/-- The position in `all`. -/
def index : ErrorKind → Nat
  | error => 0
  | attributeError => 1
  | nullError => 2
  | argumentError => 3
  | argumentCountError => 4
  | mroError => 5
  | typeError => 6
  | nameError => 7
  | zeroDivisionError => 8
  | indexError => 9
  | keyError => 10
  | valueError => 11
  | iteratorStopped => 12
  | yieldSignal => 13
  | recursionError => 14
  | memoryError => 15
  | timeoutError => 16

/-- The handle of the Type of errors of this kind. -/
def ref (k : ErrorKind) : Ref := ⟨3 + Kind.all.length + k.index⟩

/-- The kind of error whose Type has the handle. -/
def ofRef? (r : Ref) : Option ErrorKind := all.find? fun k => k.ref == r

end ErrorKind

/-- The handles of all built-in Types. -/
def builtinTypeRefs : List Ref := Kind.all.map Kind.ref ++ ErrorKind.all.map ErrorKind.ref

end ObjectMachine
