import ObjectMachine.Engine.Natives.Numbers
import ObjectMachine.Text.Case
import ObjectMachine.Text.Search
/-!
Texts. Lengths and positions count characters.
-/
namespace ObjectMachine.Engine

/-- The text of an object. -/
def textOf (r : Ref) : Engine String := do
  match ← payload r with
  | .str s => return s
  | _ => unexpected "string" r

/-- The integer of an object, or zero if it holds none. -/
def indexOf (r : Ref) : Engine Int64 := do
  match ← payload r with
  | .int i => return i
  | _ => return 0

/-- The position that an index means in a sequence: from the end if it is negative. -/
def position? (index : Int64) (length : Nat) : Option Nat :=
  let i := if index < 0 then index.toInt + length else index.toInt
  if 0 ≤ i ∧ i < length then some i.toNat else none

/-- Applies a function to the texts of two objects. -/
def onTexts {α : Type} (a b : Ref) (f : String → String → α) : Engine α := do
  let s ← textOf a
  let t ← textOf b
  return f s t

/-- Whether two objects hold the same text. -/
def sameText (a b : Ref) : Engine Bool := do
  match ← payload a, ← payload b with
  | .str s, .str t => return s == t
  | _, _ => return false

/-- Stores several texts. -/
def newStrs : List String → Engine (List Ref)
  | [] => return []
  | s :: later => do
    let r ← newStr s
    return r :: (← newStrs later)

/-- The texts of items to be joined, the first of which has the given number. -/
def joinParts : Nat → List Ref → Engine (List String)
  | _, [] => return []
  | i, item :: later => do
    match ← payload item with
    | .str s => return s :: (← joinParts (i + 1) later)
    | _ => raise (.joinItem i (← ask fun h => h.typeName item))

/-- The pieces of a text: between separators, or between runs of white space if none is given. -/
def split (s : String) (separator : Ref) : Engine (List String) := do
  if separator = .null then return (Text.words s.toList).map String.ofList
  else
    match ← payload separator with
    | .str sep =>
      if sep.isEmpty then raise .emptySeparator
      else return (Text.splitAt sep.toList s.toList).map String.ofList
    | _ => raise (.separatorType (← ask fun h => h.typeName separator))

/-- Runs a function on texts. -/
def runText (k : Reentry) (f : TextFunction) (args : List Ref) : Engine Ref := do
  match f, args with
  | .add, [a, b] => newStr (← onTexts a b (· ++ ·))
  | .mul, [a, b] =>
    let s ← textOf a
    let count := (← indexOf b).toInt.toNat
    newStr (if s.isEmpty then s else String.join (List.replicate count s))
  | .getItem, [a, b] =>
    let cs := (← textOf a).toList
    let index ← indexOf b
    match (position? index cs.length).bind fun i => cs[i]? with
    | some c => newStr (String.singleton c)
    | none => raise (.indexOut .string index)
  | .len, [a] => newInt (Int64.ofNat (← textOf a).length)
  | .contains, [a, b] => return .ofBool (← onTexts a b fun s t => Text.occurs t.toList s.toList)
  | .eq, [a, b] => return .ofBool (← sameText a b)
  | .lt, [a, b] => return .ofBool (← onTexts a b fun s t => decide (s < t))
  | .le, [a, b] => return .ofBool (← onTexts a b fun s t => !decide (t < s))
  | .gt, [a, b] => return .ofBool (← onTexts a b fun s t => decide (t < s))
  | .ge, [a, b] => return .ofBool (← onTexts a b fun s t => !decide (s < t))
  | .bool, [a] => return .ofBool (!(← textOf a).isEmpty)
  | .str, [a] => if (← load a).type.isNone then return a else newStr (← textOf a)
  | .iter, [a] => new (.iterator (.text a 0))
  | .upper, [a] => newStr (Text.upper (← textOf a))
  | .lower, [a] => newStr (Text.lower (← textOf a))
  | .split, [a, separator] =>
    let s ← textOf a
    newList (← newStrs (← split s separator))
  | .join, [a, items] =>
    let s ← textOf a
    match ← payload items with
    | .list items => newStr (s.intercalate (← joinParts 0 items.toList))
    | _ => unexpected "list" items
  | .create, [cls, value] => newFor cls (.str (← display k value))
  | _, _ => throw .dangling

end ObjectMachine.Engine
