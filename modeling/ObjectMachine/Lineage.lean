/-!
Ancestor orders. The order of a Type starts with the Type itself and continues with a merge of the
orders of its parents and of the list of parents: each round takes the first head that stands in no
tail. The merge keeps every given order, and fails when no head qualifies.
-/
namespace ObjectMachine.Lineage

/-- The largest number of Types in one ancestor order. -/
def maxLength : Nat := 2600

/-- Why there is no ancestor order. -/
inductive Fault where
  /-- A Type is among its own parents. -/
  | selfParent
  /-- The given orders contradict one another. -/
  | inconsistent
  /-- The order has too many Types. -/
  | tooLong
deriving DecidableEq

variable {α : Type} [DecidableEq α]

/-- Whether some order has the candidate behind its head. -/
def blocked (orders : List (List α)) (candidate : α) : Bool :=
  orders.any fun order => order.tail.contains candidate

/-- The first head that stands in no tail. -/
def nextHead? (orders : List (List α)) : Option α :=
  (orders.filterMap List.head?).find? fun candidate => !blocked orders candidate

/-- Removes a Type from the front of an order. -/
def dropHead (taken : α) (order : List α) : List α :=
  match order with
  | [] => []
  | head :: tail => if head = taken then tail else head :: tail

/-- Merges orders into one, `taken` Types being placed already. Every round removes a Type, so as
many rounds as there are Types suffice. -/
def merge (taken : Nat) (orders : List (List α)) : Nat → Except Fault (List α)
  | 0 => .ok []
  | rounds + 1 =>
    let orders := orders.filter fun order => !order.isEmpty
    if orders.isEmpty then .ok []
    else
      match nextHead? orders with
      | none => .error .inconsistent
      | some next =>
        if maxLength < taken + 1 then .error .tooLong
        else (merge (taken + 1) (orders.map (dropHead next)) rounds).map (next :: ·)

/-- The ancestor order of a Type with the given parents, whose own orders are given. -/
def linearize (self : α) (parents : List α) (orderOf : α → List α) : Except Fault (List α) :=
  if parents.isEmpty then .ok [self]
  else if parents.contains self then .error .selfParent
  else
    let orders := parents.map orderOf ++ [parents]
    (merge 1 orders (orders.flatten.length + 1)).map (self :: ·)

/-- What follows the first occurrence of an ancestor; nothing if it does not occur. -/
def after (ancestor : α) : List α → List α
  | [] => []
  | head :: tail => if head = ancestor then tail else after ancestor tail

end ObjectMachine.Lineage
