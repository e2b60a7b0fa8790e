import ObjectMachine.Budget
import ObjectMachine.Json
/-!
Limits as JSON documents. A limit that is missing or `null` does not bind.
-/
namespace ObjectMachine

namespace Span

/-- The document of a span. -/
def toJson (s : Span) : Json := .obj [("secs", .ofNat s.seconds), ("nanos", .ofNat s.nanos)]

/-- Reads a span; whole seconds among the smaller units are carried, and the seconds have to fit 64
bits. -/
def ofJson? : Json → Option Span
  | .obj members => do
    let names := members.map Prod.fst
    if !names.all (fun n => n == "secs" || n == "nanos") then none
    let seconds ← (members.lookup "secs").bind Json.nat64?
    let nanos ← (members.lookup "nanos").bind Json.nat64?
    let total := seconds + nanos / 1000000000
    if UInt32.size ≤ nanos ∨ UInt64.size ≤ total then none
    return ⟨total, nanos % 1000000000⟩
  | _ => none

/-- The span of a number of milliseconds. -/
def ofMillis (n : Nat) : Span := ⟨n / 1000, n % 1000 * 1000000⟩

end Span

namespace Limits

/-- Reads a member that may be missing or `null`. -/
def readLimit? {α : Type} (doc : Json) (name : String) (read : Json → Option α) :
    Option (Option α) :=
  match doc.member? name with
  | none | some .null => some none
  | some v => (read v).map some

/-- Reads limits. -/
def ofJson? : Json → Option Limits
  | .obj members => do
    let doc := Json.obj members
    let maxOperations ← readLimit? doc "max_operations" Json.nat64?
    let maxAllocations ← readLimit? doc "max_allocations" Json.nat64?
    let maxDuration ← readLimit? doc "max_duration" Span.ofJson?
    let maxRecursionDepth ← readLimit? doc "max_recursion_depth" Json.nat64?
    let gcInterval ← readLimit? doc "gc_interval" Json.nat64?
    return { maxOperations, maxAllocations, maxDuration, maxRecursionDepth, gcInterval }
  | _ => none

/-- The document of limits. -/
def toJson (l : Limits) : Json :=
  .obj
    [("max_operations", .ofOption .ofNat l.maxOperations),
      ("max_allocations", .ofOption .ofNat l.maxAllocations),
      ("max_duration", .ofOption Span.toJson l.maxDuration),
      ("max_recursion_depth", .ofOption .ofNat l.maxRecursionDepth),
      ("gc_interval", .ofOption .ofNat l.gcInterval)]

end Limits

end ObjectMachine
