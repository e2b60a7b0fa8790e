import ObjectMachine.Decimal
import ObjectMachine.Kind
/-!
Snapshots: what the host sees of a value. A snapshot owns its data, so that it outlives the heap it
was taken from; where the value contains itself, a snapshot has a placeholder.
-/
namespace ObjectMachine

/-- A value as the host sees it. -/
inductive Snapshot where
  /-- The value `null`. -/
  | null
  /-- A truth value. -/
  | bool (b : Bool)
  /-- An integer. -/
  | int (i : Int64)
  /-- A number. -/
  | num (x : Binary64)
  /-- A text. -/
  | str (s : String)
  /-- A list. -/
  | list (items : List Snapshot)
  /-- A map, its entries in order. -/
  | map (entries : List (Snapshot × Snapshot))
  /-- A range. -/
  | range (start stop step : Int64)
  /-- A Type. -/
  | type (name : String)
  /-- A function. -/
  | function (name : String)
  /-- An error object. -/
  | error (typeName message : String)
  /-- A plain object with its own members, in order. -/
  | plain (typeName : String) (members : List (String × Snapshot))
  /-- A built-in iterator. -/
  | iterator
  /-- A generator. -/
  | generator (name : String)
  /-- Stands for a container that is not taken apart again. -/
  | cycle (placeholder : String)

namespace Snapshot

instance : Inhabited Snapshot := ⟨null⟩

/-- The name of the kind of a snapshot. -/
def kindName : Snapshot → String
  | null => "null"
  | bool _ => "bool"
  | int _ => "int"
  | num _ => "num"
  | str _ => "string"
  | list _ => "list"
  | map _ => "map"
  | range .. => "range"
  | type _ => "type"
  | function _ => "function"
  | error .. => "Error"
  | plain .. => "instance"
  | iterator => "iterator"
  | generator _ => "generator"
  | cycle _ => "cycle"

/-- The text of a range. -/
def rangeText (start stop step : Int64) : String :=
  let start := toString start.toInt
  let stop := toString stop.toInt
  let step := toString step.toInt
  if step == "1" then s!"range({start}, {stop})" else s!"range({start}, {stop}, {step})"

/-- The text of an error: its Type, and its message if there is one. -/
def errorText (typeName message : String) : String :=
  if message.isEmpty then typeName else s!"{typeName}: {message}"

mutual

/-- The text of a value as it stands inside the text of another: a text is quoted. -/
def repr : Snapshot → String
  | null => "null"
  | bool b => if b then "true" else "false"
  | int i => toString i.toInt
  | num x => numText x
  | str s => s!"'{s}'"
  | list items => "[" ++ ", ".intercalate (reprItems items) ++ "]"
  | map entries => "\x7b" ++ ", ".intercalate (reprEntries entries) ++ "\x7d"
  | range start stop step => rangeText start stop step
  | type name => s!"<type {name}>"
  | function name => s!"<function {name}>"
  | error typeName message => errorText typeName message
  | plain typeName _ => s!"<{typeName} object>"
  | iterator => "<iterator>"
  | generator name => s!"<generator {name}>"
  | cycle placeholder => placeholder

/-- The texts of the items of a list. -/
def reprItems : List Snapshot → List String
  | [] => []
  | v :: later => repr v :: reprItems later

/-- The texts of the entries of a map. -/
def reprEntries : List (Snapshot × Snapshot) → List String
  | [] => []
  | (key, v) :: later => (repr key ++ ": " ++ repr v) :: reprEntries later

end

/-- The text of a value. -/
def display : Snapshot → String
  | str s => s
  | v => repr v

/-- The truth of a value: empty texts and containers, zero, `false` and `null` are false. -/
def isTruthy : Snapshot → Bool
  | null => false
  | bool b => b
  | int i => i != 0
  | num x => !x.isZero
  | str s => !s.isEmpty
  | list items => !items.isEmpty
  | map entries => !entries.isEmpty
  | _ => true

/-! ### Extraction -/

/-- A value of another kind than the one asked for. -/
structure KindMismatch where
  /-- The kind asked for. -/
  expected : Kind
  /-- The kind of the value. -/
  actual : String
deriving DecidableEq

/-- The wording of a mismatch. -/
def KindMismatch.message (m : KindMismatch) : String :=
  "expected " ++ m.expected.name ++ s!", got {m.actual}"

/-- The integer. -/
def asInt : Snapshot → Except KindMismatch Int64
  | int i => .ok i
  | v => .error ⟨.int, v.kindName⟩

/-- The number; an integer is converted. -/
def asNum : Snapshot → Except KindMismatch Binary64
  | num x => .ok x
  | int i => .ok (.ofInt i.toInt)
  | v => .error ⟨.num, v.kindName⟩

/-- The text. -/
def asString : Snapshot → Except KindMismatch String
  | str s => .ok s
  | v => .error ⟨.string, v.kindName⟩

/-- The truth value; no other value is converted. -/
def asBool : Snapshot → Except KindMismatch Bool
  | bool b => .ok b
  | v => .error ⟨.bool, v.kindName⟩

end Snapshot

end ObjectMachine
