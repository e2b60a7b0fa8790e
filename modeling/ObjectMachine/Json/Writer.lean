import ObjectMachine.Json
import ObjectMachine.Decimal
import ObjectMachine.Text.Quoted
/-!
Writing JSON text without spaces. Characters outside the basic control range stand for themselves.
-/
namespace ObjectMachine.Json

/-- The written form of one character of a text. -/
def escapeChar (c : Char) : List Char :=
  match c with
  | '"' => ['\\', '"']
  | '\\' => ['\\', '\\']
  | '\n' => ['\\', 'n']
  | '\r' => ['\\', 'r']
  | '\t' => ['\\', 't']
  | c => if c.toNat < 0x20 then ['\\', 'u'] ++ Text.hexPadded 4 c.toNat else [c]

/-- The written form of a text. -/
def renderString (s : String) : String :=
  String.ofList (['"'] ++ s.toList.flatMap escapeChar ++ ['"'])

mutual

/-- The text of a document. -/
def render : Json → String
  | null => "null"
  | bool b => if b then "true" else "false"
  | int i => toString i
  | num x => if x.isFinite then numOperandText x else "null"
  | str s => renderString s
  | arr items => "[" ++ ",".intercalate (renderItems items) ++ "]"
  | obj members => "\x7b" ++ ",".intercalate (renderMembers members) ++ "\x7d"

/-- The texts of the items of a list. -/
def renderItems : List Json → List String
  | [] => []
  | v :: rest => render v :: renderItems rest

/-- The texts of the members of an object. -/
def renderMembers : List (String × Json) → List String
  | [] => []
  | (name, v) :: rest => (renderString name ++ ":" ++ render v) :: renderMembers rest

end

end ObjectMachine.Json
