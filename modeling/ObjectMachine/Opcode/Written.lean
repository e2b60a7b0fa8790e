import ObjectMachine.Opcode
import ObjectMachine.Decimal
import ObjectMachine.Text.Quoted
/-!
The written form of an opcode, as error messages show it: its name, then one operand in
parentheses or several named ones in braces, with texts quoted.
-/
namespace ObjectMachine

/-- The written form of an optional text. -/
def writtenOption : Option String → String
  | some s => "Some(" ++ Text.quoted s ++ ")"
  | none => "None"

/-- The written form of a truth value. -/
def writtenBool (b : Bool) : String := if b then "true" else "false"

/-- A name followed by named operands in braces. -/
def writtenFields (name : String) (fields : List (String × String)) : String :=
  name ++ " \x7b " ++ ", ".intercalate (fields.map fun f => f.1 ++ ": " ++ f.2) ++ " \x7d"

namespace ParamSpec

/-- The written form of a parameter. -/
def written (p : ParamSpec) : String :=
  writtenFields "ParamSpec"
    [("name", Text.quoted p.name), ("has_default", writtenBool p.hasDefault),
      ("rest", writtenBool p.rest), ("type_name", writtenOption p.typeName)]

end ParamSpec

namespace Opcode

/-- The written form of the operands of an opcode, with its name in front. -/
def written (op : Opcode) : String :=
  let one (operand : String) : String := op.name ++ "(" ++ operand ++ ")"
  match op with
  | pushInt i => one (toString i)
  | pushNum x => one (numOperandText x)
  | pushBool b => one (writtenBool b)
  | pushStr s | getVar s | defineVar s | setVar s | deleteVar s | getMember s | setMember s
  | deleteMember s | jump s | jumpIfTrue s | jumpIfFalse s | typeTest s | iterNext s =>
    one (Text.quoted s)
  | pop n | buildList n | buildMap n | call n => one (toString n)
  | operator name argc =>
    writtenFields op.name [("name", Text.quoted name), ("argc", toString argc)]
  | bodyStart closing => writtenFields op.name [("end", Text.quoted closing)]
  | makeFunction name body params generator =>
    writtenFields op.name
      [("name", Text.quoted name), ("body", Text.quoted body),
        ("params", "[" ++ ", ".intercalate (params.map ParamSpec.written) ++ "]"),
        ("generator", writtenBool generator)]
  | makeClass name body parents =>
    writtenFields op.name
      [("name", Text.quoted name), ("body", Text.quoted body), ("parents", toString parents)]
  | tryBlock block binding =>
    writtenFields op.name [("block", Text.quoted block), ("binding", writtenOption binding)]
  | pushNull | dup | swap | callSpread | enterScope | exitScope | negate | same | bodyEnd | throwValue
  | returnValue | yieldValue | nop => op.name

end Opcode

end ObjectMachine
