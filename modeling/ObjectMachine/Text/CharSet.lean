/-!
Sets of characters given by their boundaries: the code points at which membership changes, lowest
first, starting outside the set.
-/
namespace ObjectMachine

/-- A set of characters. -/
structure CharSet where
  /-- The code points at which membership changes, lowest first. -/
  bounds : List Nat

namespace CharSet

/-- A character is a member when an odd number of boundaries lie at or below it. -/
def contains (s : CharSet) (c : Char) : Bool :=
  s.bounds.countP (fun b => decide (b ≤ c.toNat)) % 2 == 1

end CharSet

end ObjectMachine
