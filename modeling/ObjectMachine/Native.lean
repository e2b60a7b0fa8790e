/-!
The built-in functions, by the kind of data they work on. Only their names live here: what they do
is defined in the modules of the engine, so that functions can be stored as data.
-/
namespace ObjectMachine

/-- Functions on numbers. -/
inductive NumberFunction where
  | add | sub | mul | div | mod | pow | neg | eq | lt | le | gt | ge | bool | str
  /-- Makes a number. -/
  | createNum
  /-- Makes an integer. -/
  | createInt
deriving DecidableEq

/-- Functions on truth values and on `null`. -/
inductive TruthFunction where
  | bool | str
  /-- Makes a truth value. -/
  | create
  /-- The truth of `null`. -/
  | nullBool
  /-- The text of `null`. -/
  | nullStr
deriving DecidableEq

/-- Functions on texts. -/
inductive TextFunction where
  | add | mul | getItem | len | contains | eq | lt | le | gt | ge | bool | str | iter | upper
  | lower | split | join | create
deriving DecidableEq

/-- Functions on lists. -/
inductive ListFunction where
  | append | pop | getItem | setItem | delItem | len | contains | add | eq | iter | bool | str
  | create
deriving DecidableEq

/-- Functions on maps. -/
inductive MapFunction where
  | getItem | setItem | delItem | get | keys | values | len | contains | iter | bool | str | create
deriving DecidableEq

/-- Functions on ranges. -/
inductive RangeFunction where
  | create | iter | len | contains | getItem | str
deriving DecidableEq

/-- Functions on Types, functions, iterators, generators and errors. -/
inductive ObjectFunction where
  /-- Makes an instance of a Type. -/
  | typeCall
  /-- The text of a Type. -/
  | typeStr
  /-- Binds the first argument of a function. -/
  | bind
  /-- The text of a function. -/
  | functionStr
  /-- The next item of an iterator. -/
  | iteratorNext
  /-- An iterator is its own iterator. -/
  | iteratorSelf
  /-- The next item of a generator. -/
  | generatorNext
  /-- Makes an error. -/
  | errorCreate
  /-- The text of an error. -/
  | errorStr
deriving DecidableEq

/-- Functions that programs find in their outermost scope. -/
inductive GlobalFunction where
  | print | typeOf | nameOf | mro | isInstance | len | iter | next | base | rawGet | rawSet
  | hasMember
deriving DecidableEq

/-- A built-in function. -/
inductive Native where
  /-- A function on numbers. -/
  | number (f : NumberFunction)
  /-- A function on truth values. -/
  | truth (f : TruthFunction)
  /-- A function on texts. -/
  | text (f : TextFunction)
  /-- A function on lists. -/
  | list (f : ListFunction)
  /-- A function on maps. -/
  | map (f : MapFunction)
  /-- A function on ranges. -/
  | range (f : RangeFunction)
  /-- A function on other objects. -/
  | object (f : ObjectFunction)
  /-- A global function. -/
  | global (f : GlobalFunction)
deriving DecidableEq

end ObjectMachine
