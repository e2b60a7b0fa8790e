import ObjectMachine.Kind
import ObjectMachine.Signature
/-!
Why a built-in error arises. A cause says what went wrong in terms of names and Types; `kind` gives
the Type of the error and `message` its wording.
-/
namespace ObjectMachine

/-- Why a built-in error arises. -/
inductive Cause where
  /-- A parameter list that is refused. -/
  | badParameters (fault : SignatureFault)
  /-- A function without free parameters cannot be bound. -/
  | unbindable (function : String)
  /-- A special method that does not take the required number of arguments. -/
  | specialArity (cls method : String) (count : Nat)
  /-- An operator applied to the wrong number of operands. -/
  | operandCount (operator : String) (expected given : Nat)
  /-- An operator that none of the Types implements for these operands. -/
  | noImplementation (operator : String) (types : List String)
  /-- More arguments than parameters. -/
  | tooManyArguments (function : String) (expected actual : Nat)
  /-- No argument for a required parameter. -/
  | missingArgument (function param : String)
  /-- Arguments for a Type whose instances take none. -/
  | noArguments (type : String)
  /-- An argument that is not an instance of the declared Type. -/
  | argumentType (function param expected actual : String)
  /-- A value that cannot be called. -/
  | notCallable (type : String)
  /-- Arguments spread from something that is no list. -/
  | spreadArguments (type : String)
  /-- A Type test against something that is no Type. -/
  | testedType (type : String)
  /-- A declared Type that is none. -/
  | notDeclarable (name param : String)
  /-- A parent that is no Type. -/
  | parentType (cls type : String)
  /-- A parent named twice. -/
  | duplicateParent (parent cls : String)
  /-- A Type among its own parents. -/
  | selfParent
  /-- Parents without a common order of ancestors. -/
  | inconsistentParents (names : List String)
  /-- More ancestors than allowed. -/
  | lineageTooLong
  /-- Something thrown that is no error. -/
  | thrownType (type : String)
  /-- A truth test that gives no truth value. -/
  | boolResult (type : String)
  /-- A conversion to text that gives no text. -/
  | strResult (type : String)
  /-- A length that is no natural number. -/
  | lenResult (type : String)
  /-- A member written or removed through a view. -/
  | throughView (name : String)
  /-- A view of an object that is no instance of the Type. -/
  | viewOf (type actual : String)
  /-- An object without a name. -/
  | nameless (type : String)
  /-- A value that converts to no number of the target kind. -/
  | noConversion (type : String) (target : Kind)
  /-- An object without numeric value. -/
  | noNumber (type : String)
  /-- The end of a range is no integer. -/
  | rangeStop (type : String)
  /-- A separator that is no text. -/
  | separatorType (type : String)
  /-- An item that cannot be joined. -/
  | joinItem (index : Nat) (type : String)
  /-- An object without such a member. -/
  | noMember (type name : String)
  /-- A Type without such a member. -/
  | noTypeMember (type name : String)
  /-- A member of `null`. -/
  | nullMember (name : String)
  /-- A name that no scope defines. -/
  | undefinedName (name : String)
  /-- Division by zero. -/
  | divisionByZero
  /-- Remainder by zero. -/
  | moduloByZero
  /-- Zero to a negative power. -/
  | zeroPower
  /-- A position outside a sequence. -/
  | indexOut (kind : Kind) (index : Int64)
  /-- The last item of an empty list. -/
  | popEmpty
  /-- A key that a map does not hold. -/
  | missingKey (shown : String)
  /-- A number that is no integer. -/
  | notFinite (shown : String)
  /-- A text that is no number of the target kind. -/
  | badLiteral (target : Kind) (text : String)
  /-- A range that does not advance. -/
  | zeroStep
  /-- A separator without characters. -/
  | emptySeparator
  /-- A generator advanced while it runs. -/
  | alreadyRunning (name : String)
  /-- The printer refused the text. -/
  | printFailed (reason : String)
  /-- The end of an iteration. -/
  | stopped
  /-- A yield in a function that is no generator. -/
  | functionYielded (name : String)
  /-- A yield in the body of a Type. -/
  | classYielded (name : String)
  /-- A yield outside all functions. -/
  | programYielded
deriving DecidableEq

namespace Cause

/-- The kind of error that arises. -/
def kind : Cause → ErrorKind
  | badParameters _ | unbindable _ | specialArity .. | operandCount .. | noImplementation .. =>
    .argumentError
  | tooManyArguments .. | missingArgument .. | noArguments _ => .argumentCountError
  | argumentType .. | notCallable _ | spreadArguments _ | testedType _ | notDeclarable ..
  | parentType .. | thrownType _ | boolResult _ | strResult _ | lenResult _ | throughView _
  | viewOf .. | nameless _ | noConversion .. | noNumber _ | rangeStop _ | separatorType _
  | joinItem .. => .typeError
  | duplicateParent .. | selfParent | inconsistentParents _ | lineageTooLong => .mroError
  | noMember .. | noTypeMember .. => .attributeError
  | nullMember _ => .nullError
  | undefinedName _ => .nameError
  | divisionByZero | moduloByZero | zeroPower => .zeroDivisionError
  | indexOut .. | popEmpty => .indexError
  | missingKey _ => .keyError
  | notFinite _ | badLiteral .. | zeroStep | emptySeparator | alreadyRunning _ | printFailed _ =>
    .valueError
  | stopped => .iteratorStopped
  | functionYielded _ | classYielded _ | programYielded => .yieldSignal

/-- The ending of a counted noun. -/
def plural (count : Nat) : String := if count = 1 then "" else "s"

/-- The wording of the error. -/
def message : Cause → String
  | badParameters fault => fault.message
  | unbindable function => s!"cannot bind '{function}': it takes no parameters"
  | specialArity cls method count =>
    let s := plural count
    s!"in class '{cls}': special method '{method}' must accept {count} argument{s} " ++
      "including the receiver"
  | operandCount operator expected given =>
    let s := plural expected
    s!"operator '{operator}' takes {expected} operand{s} but {given} were given"
  | noImplementation operator types =>
    s!"no implementation of '{operator}' for " ++ ", ".intercalate types
  | tooManyArguments function expected actual =>
    let s := plural expected
    s!"{function}() takes {expected} positional argument{s} but {actual} were given"
  | missingArgument function param => s!"{function}() missing required argument '{param}'"
  | noArguments type => s!"{type}() takes no arguments"
  | argumentType function param expected actual =>
    s!"{function}() argument '{param}' must be {expected}, not {actual}"
  | notCallable type => s!"'{type}' object is not callable"
  | spreadArguments type => s!"spread arguments must be a list, not '{type}'"
  | testedType type => s!"type test requires a type, not '{type}'"
  | notDeclarable name param => s!"annotation '{name}' of parameter '{param}' is not a type"
  | parentType cls type => s!"parents of '{cls}' must be types, not '{type}'"
  | duplicateParent parent cls => s!"duplicate parent '{parent}' of '{cls}'"
  | selfParent => "a type cannot inherit from itself"
  | inconsistentParents names =>
    "cannot create a consistent method resolution order for parents " ++ ", ".intercalate names
  | lineageTooLong => "method resolution order exceeds maximum length"
  | thrownType type => s!"can only throw Error instances, not '{type}'"
  | boolResult type => s!"op_bool must return bool, not '{type}'"
  | strResult type => s!"op_str must return string, not '{type}'"
  | lenResult type => s!"op_len must return a non-negative int, got '{type}'"
  | throughView name => s!"cannot modify member '{name}' through a base view"
  | viewOf type actual =>
    s!"base({type}, obj): obj must be an instance of {type}, not '{actual}'"
  | nameless type => s!"'{type}' object has no name"
  | noConversion type target => s!"cannot convert '{type}' to " ++ target.name
  | noNumber type => s!"'{type}' object has no numeric value"
  | rangeStop type => s!"range stop must be an int, not '{type}'"
  | separatorType type => s!"separator must be a string, not '{type}'"
  | joinItem index type => s!"join item {index} must be a string, not '{type}'"
  | noMember type name => s!"'{type}' object has no member '{name}'"
  | noTypeMember type name => s!"'{type}' has no member '{name}'"
  | nullMember name => s!"cannot access member '{name}' of null"
  | undefinedName name => s!"name '{name}' is not defined"
  | divisionByZero => "division by zero"
  | moduloByZero => "modulo by zero"
  | zeroPower => "zero cannot be raised to a negative power"
  | indexOut kind index => kind.name ++ s!" index {index} out of range"
  | popEmpty => "pop from empty list"
  | missingKey shown => shown
  | notFinite shown => s!"cannot convert {shown} to int"
  | badLiteral target text => "invalid literal for " ++ target.name ++ s!": '{text}'"
  | zeroStep => "range step must not be zero"
  | emptySeparator => "empty separator"
  | alreadyRunning name => s!"generator '{name}' is already running"
  | printFailed reason => s!"print failed: {reason}"
  | stopped => "iteration stopped"
  | functionYielded name => s!"'{name}' yielded but is not a generator function"
  | classYielded name => s!"class body of '{name}' cannot yield"
  | programYielded => "yield outside a generator function"

end Cause

end ObjectMachine
