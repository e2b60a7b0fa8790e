import ObjectMachine.Machine
import ObjectMachine.Engine.Binding
import ObjectMachine.Opcode.Written
import ObjectMachine.Snapshot.Transfer
/-!
Reports: what the host sees of an error that ended a request. A report owns its data. A defect of
the program is reported as an internal error with the instructions that were under way.
-/
namespace ObjectMachine

/-- A call in a report. -/
structure ReportLayer where
  /-- The name of the function. -/
  function : String
  /-- The arguments it received. -/
  args : List Snapshot

/-- A report without causes. -/
structure ReportBody where
  /-- The name of the Type of the error. -/
  typeName : String
  /-- The kind of error, for a Type that a program made the nearest one it refines; none for an
  internal error. -/
  kind : Option ErrorKind
  /-- The wording. -/
  message : String
  /-- The calls through which the error passed, innermost first. -/
  trace : List ReportLayer

/-- What the host sees of an error. -/
structure Report extends ReportBody where
  /-- The errors that led to this one. -/
  causes : List ReportBody

namespace ErrorType

/-- The kind of error of a Type: itself if it is built in, or else the nearest ancestor that is. -/
def nearestKind? (h : Heap) : ErrorType → Option ErrorKind
  | builtin kind => some kind
  | custom type => (h.mro type).findSome? ErrorKind.ofRef?

/-- The name of a Type of errors. -/
def name (h : Heap) : ErrorType → String
  | builtin kind => kind.name
  | custom type => h.nameOfType type

end ErrorType

namespace Layer

/-- The report of a call; `none` if an argument has vanished. -/
def report? (h : Heap) (layer : Layer) : Option ReportLayer := do
  let args ← layer.args.mapM h.snapshot?
  return ⟨layer.function, args⟩

end Layer

namespace ErrorBody

/-- The report of an error without its causes. -/
def report? (h : Heap) (e : ErrorBody) : Option ReportBody := do
  let trace ← e.trace.mapM (Layer.report? h)
  return { typeName := e.type.name h, kind := e.type.nearestKind? h, message := e.message, trace }

end ErrorBody

namespace Raised

/-- The report of an error. -/
def report? (h : Heap) (e : Raised) : Option Report := do
  let body ← e.toErrorBody.report? h
  let causes ← e.causes.mapM (ErrorBody.report? h)
  return { body with causes }

end Raised

namespace Site

/-- The wording that names an instruction under way. -/
def text (s : Site) : String := " (while executing " ++ s.op.written ++ s!" at index {s.ip})"

end Site

namespace Report

/-- The report of an error of a built-in kind that passed through no call. -/
def ofKind (kind : ErrorKind) (message : String) : Report :=
  { typeName := kind.name, kind := some kind, message, trace := [], causes := [] }

/-- The report of a defect. -/
def ofDefect (defect : Defect) (sites : List Site) : Report :=
  { typeName := "InternalError", kind := none
    message := defect.message ++ String.join (sites.map Site.text), trace := [], causes := [] }

/-- The report of an interruption; `none` if the machine itself could not go on. -/
def ofInterrupt? (h : Heap) : Interrupt → Option Report
  | .raised e | .exhausted e => e.report? h
  | .defect defect sites => some (ofDefect defect sites)
  | .dangling | .overflow | .outOfFuel => none

/-- Whether the error is of a kind. -/
def isKind (r : Report) (kind : ErrorKind) : Bool :=
  match r.kind with
  | some own => own.isSubkindOf kind
  | none => false

/-- All kinds that the error is of. -/
def kinds (r : Report) : List ErrorKind := ErrorKind.all.filter r.isKind

end Report

/-! ### Text -/

namespace ReportLayer

/-- A call with its arguments. -/
def text (l : ReportLayer) : String :=
  l.function ++ "(" ++ ", ".intercalate (l.args.map Snapshot.repr) ++ ")"

end ReportLayer

namespace ReportBody

/-- The lines of a report without causes, indented. -/
def lines (indent : String) (r : ReportBody) : List String :=
  (indent ++ Snapshot.errorText r.typeName r.message) ::
    r.trace.map fun l => indent ++ "  at " ++ l.text

end ReportBody

namespace Report

/-- The lines of a report. -/
def lines (r : Report) : List String :=
  r.toReportBody.lines "" ++
    if r.causes.isEmpty then []
    else "caused by:" :: r.causes.flatMap (ReportBody.lines "  ")

/-- The text of a report, each line ended. -/
def text (r : Report) : String := String.join (r.lines.map (· ++ "\n"))

end Report

end ObjectMachine
