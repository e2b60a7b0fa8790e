/-!
Printers: where printed text goes.
-/
namespace ObjectMachine

/-- A receiver of printed text. -/
inductive Printer where
  /-- Keeps all text. -/
  | collecting (text : String)
  /-- Drops all text. -/
  | discarding
  /-- Keeps text until it was written to so many times more. -/
  | bounded (writesLeft : Nat) (text : String)
deriving DecidableEq

namespace Printer

/-- Writes a text, and tells whether the printer took it. -/
def write (p : Printer) (s : String) : Bool × Printer :=
  match p with
  | collecting text => (true, collecting (text ++ s))
  | discarding => (true, discarding)
  | bounded 0 text => (false, bounded 0 text)
  | bounded (n + 1) text => (true, bounded n (text ++ s))

/-- The text that was kept. -/
def text : Printer → String
  | collecting text | bounded _ text => text
  | discarding => ""

/-- Why a printer refuses a text. -/
def refusal : String := "writer is full"

end Printer

end ObjectMachine
