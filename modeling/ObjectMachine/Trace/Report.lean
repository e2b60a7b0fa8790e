import ObjectMachine.Trace
import ObjectMachine.Decimal
/-!
The report of a profile as text.
-/
namespace ObjectMachine.Profile

/-- The share of an opcode among all instructions, in percent. -/
def share (p : Profile) (count : Nat) : Binary64 :=
  ((Binary64.ofInt count).div (.ofInt p.instructions)).mul (.ofInt 100)

/-- The line of an opcode. -/
def opcodeLine (p : Profile) (e : String × Nat) : String :=
  "  " ++ padRight 20 e.1 ++ " " ++ padLeft 10 (toString e.2) ++ "  (" ++
    percentText (p.share e.2) ++ "%)"

/-- The lines of the report. -/
def reportLines (p : Profile) : List String :=
  ["=== Profiling Report ===",
    "Total instructions: " ++ toString p.instructions,
    "Total calls:        " ++ toString p.calls,
    "Classes created:    " ++ toString p.classes,
    "Max frame depth:    " ++ toString p.maxDepth,
    "",
    "--- Opcode Frequency ---"] ++ p.ranking.map p.opcodeLine

/-- The report, each line ended. -/
def report (p : Profile) : String := String.join (p.reportLines.map (· ++ "\n"))

end ObjectMachine.Profile
