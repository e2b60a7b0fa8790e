import ObjectMachine.Kind
/-!
Limits on what a program may consume, and the account that is kept of it. The nesting of calls is
always limited unless the limits say otherwise; allocations and instructions only on request.
-/
namespace ObjectMachine

/-- A span of time. -/
structure Span where
  /-- Whole seconds. -/
  seconds : Nat
  /-- The rest, in thousand-millionths of a second. -/
  nanos : Nat
deriving DecidableEq

/-- The limits of a budget; a missing limit does not bind. -/
structure Limits where
  /-- Instructions in one request. -/
  maxOperations : Option Nat
  /-- Objects and scopes alive at one time. -/
  maxAllocations : Option Nat
  /-- Time for one request. -/
  maxDuration : Option Span
  /-- Calls nested in one another. -/
  maxRecursionDepth : Option Nat
  /-- Allocations between two collections. -/
  gcInterval : Option Nat
deriving DecidableEq

namespace Limits

/-- The nesting of calls that is allowed when nothing else is said. -/
def defaultRecursionDepth : Nat := 200

/-- The allocations between two collections when nothing else is said. -/
def defaultGcInterval : Nat := 100000

/-- Only the nesting of calls is limited. -/
def standard : Limits := ⟨none, none, none, some defaultRecursionDepth, none⟩

end Limits

/-- A limit that was reached. -/
inductive Exhaustion where
  /-- One allocation too many. -/
  | allocation (limit count : Nat)
  /-- One instruction too many. -/
  | operation (limit count : Nat)
  /-- Calls nested too deeply. -/
  | recursion (limit : Nat)
deriving DecidableEq

namespace Exhaustion

/-- The kind of error that reports it. -/
def kind : Exhaustion → ErrorKind
  | allocation .. => .memoryError
  | operation .. => .timeoutError
  | recursion _ => .recursionError

/-- The wording of the report. -/
def message : Exhaustion → String
  | allocation limit count => s!"allocation limit exceeded: {count} > {limit}"
  | operation limit count => s!"operation limit exceeded: {count} > {limit}"
  | recursion limit => s!"maximum recursion depth exceeded ({limit})"

end Exhaustion

/-- What was consumed under limits. -/
structure Account where
  /-- The limits. -/
  limits : Limits
  /-- All allocations so far. -/
  allocations : Nat
  /-- Allocations that were not released. Objects that were allocated before the account was opened
  may be released too, so this is a lower estimate. -/
  live : Nat
  /-- Instructions of the current request. -/
  operations : Nat
deriving DecidableEq

/-- A budget: without account, or with one. -/
inductive Budget where
  /-- Only the nesting of calls is limited, by the default. -/
  | unlimited
  /-- Limits and an account. -/
  | limited (account : Account)
deriving DecidableEq

namespace Budget

/-- A budget with an account that starts at zero. -/
def ofLimits (limits : Limits) : Budget := .limited ⟨limits, 0, 0, 0⟩

/-- Books one allocation. -/
def allocate : Budget → Except Exhaustion Budget
  | unlimited => .ok unlimited
  | limited a =>
    match a.limits.maxAllocations with
    | some limit =>
      if limit ≤ a.live then .error (.allocation limit (a.live + 1))
      else .ok (limited { a with allocations := a.allocations + 1, live := a.live + 1 })
    | none => .ok (limited { a with allocations := a.allocations + 1, live := a.live + 1 })

/-- Books the release of allocations. -/
def free (count : Nat) : Budget → Budget
  | unlimited => unlimited
  | limited a => limited { a with live := a.live - count }

/-- Books one instruction. The instruction over the limit is booked too. -/
def tick : Budget → Except Exhaustion Unit × Budget
  | unlimited => (.ok (), unlimited)
  | limited a =>
    match a.limits.maxOperations with
    | none => (.ok (), limited a)
    | some limit =>
      let count := a.operations + 1
      (if limit < count then .error (.operation limit count) else .ok (),
        limited { a with operations := count })

/-- Whether a call may be nested below `depth` others. -/
def checkDepth (depth : Nat) : Budget → Except Exhaustion Unit
  | unlimited =>
    if Limits.defaultRecursionDepth ≤ depth then .error (.recursion Limits.defaultRecursionDepth)
    else .ok ()
  | limited a =>
    match a.limits.maxRecursionDepth with
    | none => .ok ()
    | some limit => if limit ≤ depth then .error (.recursion limit) else .ok ()

/-- Starts counting the instructions of a new request. -/
def beginRequest : Budget → Budget
  | unlimited => unlimited
  | limited a => limited { a with operations := 0 }

/-- All allocations so far, if there is an account. -/
def allocations? : Budget → Option Nat
  | unlimited => none
  | limited a => some a.allocations

/-- Allocations that were not released, if there is an account. -/
def live? : Budget → Option Nat
  | unlimited => none
  | limited a => some a.live

/-- The allocations after which a collection is due: a limit on allocations makes it due no later
than half way to the limit. -/
def gcInterval : Budget → Nat
  | unlimited => Limits.defaultGcInterval
  | limited a =>
    let interval := a.limits.gcInterval.getD Limits.defaultGcInterval
    match a.limits.maxAllocations with
    | some limit => min interval (max (limit / 2) 1)
    | none => interval

/-- Whether a collection is due. -/
def collectionDue (b : Budget) (allocationsSince : Nat) : Bool := b.gcInterval ≤ allocationsSince

end Budget

end ObjectMachine
