import ObjectMachine.Table
/-!
Observation of runs. The engine reports events; a tracer keeps of them what it is made for: nothing,
a recording, counts, a readable transcript, or log entries.
-/
namespace ObjectMachine

/-- Something that happens during a run. -/
inductive Event where
  /-- An instruction is about to be executed. -/
  | instruction (ip : Nat) (opcode : String) (stackDepth frameDepth : Nat)
  /-- A function is entered. -/
  | call (name : String) (depth : Nat)
  /-- A function is left. -/
  | leave (depth : Nat)
  /-- A function is made. -/
  | makeFunction (name : String) (defaults : Nat)
  /-- A Type is made. -/
  | makeClass (name : String) (mroLength : Nat)
  /-- A protected block is entered. -/
  | tryEnter (depth : Nat)
  /-- A protected block is left. -/
  | tryExit (depth : Nat)
  /-- A generator is resumed. -/
  | resume (depth : Nat)
  /-- A generator hands out an item. -/
  | suspend (depth : Nat)
deriving DecidableEq

/-- Something that the machine tells about itself. -/
inductive Notice where
  /-- The machine is ready. -/
  | bootstrapped (liveObjects : Nat)
  /-- Code is about to run. -/
  | executing (instructions : Nat)
  /-- A collection took place during a run. -/
  | collectedDuringRun (freed depth : Nat)
  /-- A collection was requested. -/
  | collected (freed : Nat)
  /-- A request ended with an error. -/
  | failed (error message : String)
deriving DecidableEq

/-- A log entry: its level and its fields. -/
structure LogEntry where
  /-- How important it is. -/
  level : String
  /-- Named texts, the wording first. -/
  fields : List (String × String)
deriving DecidableEq

namespace LogEntry

/-- An entry about the run of a program. -/
def trace (message : String) (fields : List (String × String)) : LogEntry :=
  ⟨"TRACE", ("message", message) :: fields⟩

/-- An entry about the machine. -/
def debug (message : String) (fields : List (String × String)) : LogEntry :=
  ⟨"DEBUG", ("message", message) :: fields⟩

/-- The entry of an event. -/
def ofEvent : Event → LogEntry
  | .instruction ip opcode stackDepth frameDepth =>
    trace "instruction"
      [("ip", toString ip), ("opcode", opcode), ("stack_depth", toString stackDepth),
        ("frame_depth", toString frameDepth)]
  | .call name depth => trace "call" [("func_name", name), ("depth", toString depth)]
  | .leave depth => trace "return" [("depth", toString depth)]
  | .makeFunction name defaults =>
    trace "make function" [("name", name), ("defaults_count", toString defaults)]
  | .makeClass name mroLength =>
    trace "make class" [("name", name), ("mro_len", toString mroLength)]
  | .tryEnter depth => trace "try enter" [("depth", toString depth)]
  | .tryExit depth => trace "try exit" [("depth", toString depth)]
  | .resume depth => trace "generator resume" [("depth", toString depth)]
  | .suspend depth => trace "generator suspend" [("depth", toString depth)]

/-- The entry of a notice. -/
def ofNotice : Notice → LogEntry
  | .bootstrapped live => debug "runtime bootstrapped" [("live_objects", toString live)]
  | .executing n => debug "executing code block" [("instructions", toString n)]
  | .collectedDuringRun freed depth =>
    debug "collected garbage" [("freed", toString freed), ("depth", toString depth)]
  | .collected freed => debug "garbage collected" [("freed", toString freed)]
  | .failed error message => debug "execution failed" [("error", error), ("message", message)]

end LogEntry

/-- Counts of events. -/
structure Profile where
  /-- How often each opcode was executed. -/
  opcodes : Table String Nat
  /-- All executed instructions. -/
  instructions : Nat
  /-- The greatest depth at which an instruction was executed or a function entered. -/
  maxDepth : Nat
  /-- Entered functions. -/
  calls : Nat
  /-- Types made. -/
  classes : Nat
deriving DecidableEq

namespace Profile

/-- Nothing was counted. -/
def empty : Profile := ⟨.empty, 0, 0, 0, 0⟩

/-- Counts an event. -/
def count (p : Profile) : Event → Profile
  | .instruction _ opcode _ depth =>
    { p with
      opcodes := p.opcodes.insert opcode ((p.opcodes.get? opcode).getD 0 + 1)
      instructions := p.instructions + 1
      maxDepth := max p.maxDepth depth }
  | .call _ depth => { p with calls := p.calls + 1, maxDepth := max p.maxDepth depth }
  | .makeClass .. => { p with classes := p.classes + 1 }
  | _ => p

/-- Whether an opcode is listed before another: the more frequent first, then by name. -/
def listedBefore (a b : String × Nat) : Bool :=
  b.2 < a.2 || (a.2 == b.2 && decide (a.1 ≤ b.1))

/-- The opcodes with their counts, the most frequent first. -/
def ranking (p : Profile) : List (String × Nat) := p.opcodes.entries.mergeSort listedBefore

end Profile

/-- A readable transcript of a run. -/
structure Transcript where
  /-- The number of instructions after which it ends. -/
  limit : Option Nat
  /-- The instructions in it. -/
  count : Nat
  /-- Whether it has ended. -/
  stopped : Bool
  /-- Its lines. -/
  lines : Array String
deriving DecidableEq

/-- An observer of runs. -/
inductive Tracer where
  /-- Keeps nothing. -/
  | silent
  /-- Keeps the first events, all of them without a limit. -/
  | recording (limit : Option Nat) (events : Array Event)
  /-- Keeps counts. -/
  | profiling (profile : Profile)
  /-- Keeps a transcript. -/
  | transcript (transcript : Transcript)
  /-- Keeps log entries. -/
  | log (entries : Array LogEntry)
deriving DecidableEq

/-- The text with blanks before it up to a width. -/
def padLeft (width : Nat) (s : String) : String :=
  String.ofList (List.replicate (width - s.length) ' ') ++ s

/-- The text with blanks after it up to a width. -/
def padRight (width : Nat) (s : String) : String :=
  s ++ String.ofList (List.replicate (width - s.length) ' ')

namespace Transcript

/-- The line of an event, if it has one. -/
def lineOf? : Event → Option String
  | .instruction ip opcode stackDepth frameDepth =>
    some ("[" ++ padLeft 5 (toString ip) ++ "] " ++ padRight 17 opcode ++
      s!" stack={stackDepth}  frames={frameDepth}")
  | .call name depth => some ("  >>> CALL " ++ padRight 20 name ++ s!" depth={depth}")
  | .leave depth => some s!"  <<< RETURN              depth={depth}"
  | .makeFunction name defaults => some s!"  +++ MAKE FUNCTION {name} defaults={defaults}"
  | .makeClass name mroLength => some s!"  +++ MAKE CLASS {name} mro={mroLength}"
  | .suspend depth => some s!"  ... YIELD               depth={depth}"
  | .tryEnter _ | .tryExit _ | .resume _ => none

/-- Counts an instruction, and ends the transcript when the limit is reached. -/
def countInstruction (t : Transcript) : Transcript :=
  let count := t.count + 1
  match t.limit with
  | some limit =>
    if limit ≤ count then
      { t with
        count, stopped := true
        lines := t.lines.push s!"--- trace limit reached ({limit} instructions) ---" }
    else { t with count }
  | none => { t with count }

/-- Adds an event. -/
def add (t : Transcript) (e : Event) : Transcript :=
  if t.stopped then t
  else
    let t :=
      match lineOf? e with
      | some line => { t with lines := t.lines.push line }
      | none => t
    match e with
    | .instruction .. => t.countInstruction
    | _ => t

end Transcript

namespace Tracer

/-- Observes an event. -/
def observe (t : Tracer) (e : Event) : Tracer :=
  match t with
  | silent => silent
  | recording limit events =>
    match limit with
    | some n => if events.size < n then recording limit (events.push e) else recording limit events
    | none => recording limit (events.push e)
  | profiling p => profiling (p.count e)
  | transcript s => transcript (s.add e)
  | log entries => log (entries.push (LogEntry.ofEvent e))

/-- Observes a notice, which only a log keeps. -/
def note (t : Tracer) (n : Notice) : Tracer :=
  match t with
  | log entries => log (entries.push (LogEntry.ofNotice n))
  | t => t

end Tracer

end ObjectMachine
