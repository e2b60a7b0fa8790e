import ObjectMachine.Binary64
/-!
JSON documents as trees. Numbers without fraction and exponent stay integers, and an object keeps
its members in the order in which they were written.
-/
namespace ObjectMachine

/-- A JSON document. -/
inductive Json where
  /-- The document `null`. -/
  | null
  /-- A truth value. -/
  | bool (b : Bool)
  /-- A number without fraction. -/
  | int (i : Int)
  /-- Any other number. -/
  | num (x : Binary64)
  /-- A text. -/
  | str (s : String)
  /-- A list of documents. -/
  | arr (items : List Json)
  /-- Named documents, in the order in which they were written. -/
  | obj (members : List (String × Json))

namespace Json

instance : Inhabited Json := ⟨null⟩

/-- The member of an object; other documents have none. -/
def member? (name : String) : Json → Option Json
  | obj members => members.lookup name
  | _ => none

/-- The text of a text document. -/
def text? : Json → Option String
  | str s => some s
  | _ => none

/-- The value of a truth document. -/
def bool? : Json → Option Bool
  | bool b => some b
  | _ => none

/-- The items of a list document. -/
def items? : Json → Option (List Json)
  | arr items => some items
  | _ => none

/-- A natural number that fits an unsigned 64-bit word. -/
def nat64? : Json → Option Nat
  | int i => if 0 ≤ i ∧ i.toNat < UInt64.size then some i.toNat else none
  | _ => none

/-- An integer that fits a signed 64-bit word. -/
def int64? : Json → Option Int64
  | int i => Integer.ofInt? i
  | _ => none

/-- A number, rounded if it is an integer that is not representable. -/
def binary64? : Json → Option Binary64
  | int i => some (.ofInt i)
  | num x => some x
  | _ => none

/-- A list of texts. -/
def ofTexts (l : List String) : Json := arr (l.map str)

/-- A natural number. -/
def ofNat (n : Nat) : Json := int n

/-- The document of an optional value; `null` if there is none. -/
def ofOption {α : Type} (f : α → Json) : Option α → Json
  | some a => f a
  | none => null

end Json

end ObjectMachine
