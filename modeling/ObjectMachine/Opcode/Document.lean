import ObjectMachine.Code
import ObjectMachine.Json
/-!
Instructions as JSON documents. An opcode without operands is its name; any other is an object with
its name as the only member. Reading accepts what writing produces, and also documents in which
optional members are left out, members that nobody knows, `null` as the operand of an opcode that
has none, and instructions and parameters as lists of their members in order.
-/
namespace ObjectMachine

namespace Json

/-- A structure as an object: a list holds the first of its members, in order. -/
def asObject (fields : List String) : Json → Json
  | arr items => if items.length ≤ fields.length then obj (fields.zip items) else null
  | doc => doc

/-- A member that may be missing or `null`. -/
def optionalText? (doc : Json) (name : String) : Option (Option String) :=
  match doc.member? name with
  | none | some null => some none
  | some (str s) => some (some s)
  | some _ => none

/-- A truth member that is false when it is missing. -/
def flag? (doc : Json) (name : String) : Option Bool :=
  match doc.member? name with
  | none => some false
  | some v => v.bool?

/-- A text member. -/
def textMember? (doc : Json) (name : String) : Option String := (doc.member? name).bind text?

/-- A member that is a natural number of 64 bits. -/
def natMember? (doc : Json) (name : String) : Option Nat := (doc.member? name).bind nat64?

end Json

namespace ParamSpec

/-- The document of a parameter. -/
def toJson (p : ParamSpec) : Json :=
  .obj [("name", .str p.name), ("has_default", .bool p.hasDefault), ("rest", .bool p.rest),
    ("type_name", .ofOption .str p.typeName)]

/-- The members of a parameter, in order. -/
def fields : List String := ["name", "has_default", "rest", "type_name"]

/-- Reads a parameter. -/
def ofJson? (doc : Json) : Option ParamSpec := do
  let doc := doc.asObject fields
  let name ← doc.textMember? "name"
  let hasDefault ← doc.flag? "has_default"
  let rest ← doc.flag? "rest"
  let typeName ← doc.optionalText? "type_name"
  return { name, hasDefault, rest, typeName }

end ParamSpec

namespace Opcode

/-- The document of an opcode. -/
def toJson (op : Opcode) : Json :=
  let operand (doc : Json) : Json := .obj [(op.name, doc)]
  match op with
  | pushInt i => operand (.int i.toInt)
  | pushNum x => operand (.num x)
  | pushBool b => operand (.bool b)
  | pushStr s | getVar s | defineVar s | setVar s | deleteVar s | getMember s | setMember s
  | deleteMember s | jump s | jumpIfTrue s | jumpIfFalse s | typeTest s | iterNext s =>
    operand (.str s)
  | pop n | buildList n | buildMap n | call n => operand (.ofNat n)
  | operator name argc => operand (.obj [("name", .str name), ("argc", .ofNat argc)])
  | bodyStart closing => operand (.obj [("end", .str closing)])
  | makeFunction name body params generator =>
    operand (.obj
      [("name", .str name), ("body", .str body), ("params", .arr (params.map ParamSpec.toJson)),
        ("generator", .bool generator)])
  | makeClass name body parents =>
    operand (.obj [("name", .str name), ("body", .str body), ("parents", .ofNat parents)])
  | tryBlock block binding =>
    operand (.obj [("block", .str block), ("binding", .ofOption .str binding)])
  | pushNull | dup | swap | callSpread | enterScope | exitScope | negate | same | bodyEnd | throwValue
  | returnValue | yieldValue | nop => .str op.name

/-- The opcode without operands that has the name. -/
def ofName? : String → Option Opcode
  | "PushNull" => some pushNull
  | "Dup" => some dup
  | "Swap" => some swap
  | "CallSpread" => some callSpread
  | "EnterScope" => some enterScope
  | "ExitScope" => some exitScope
  | "Not" => some negate
  | "Is" => some same
  | "BodyEnd" => some bodyEnd
  | "Throw" => some throwValue
  | "Return" => some returnValue
  | "Yield" => some yieldValue
  | "Nop" => some nop
  | _ => none

/-- Reads an opcode from its name and its operand. -/
def ofOperand? (name : String) (doc : Json) : Option Opcode :=
  match name with
  | "PushInt" => doc.int64?.map pushInt
  | "PushNum" => doc.binary64?.map pushNum
  | "PushStr" => doc.text?.map pushStr
  | "PushBool" => doc.bool?.map pushBool
  | "Pop" => doc.nat64?.map pop
  | "BuildList" => doc.nat64?.map buildList
  | "BuildMap" => doc.nat64?.map buildMap
  | "GetVar" => doc.text?.map getVar
  | "DefineVar" => doc.text?.map defineVar
  | "SetVar" => doc.text?.map setVar
  | "DeleteVar" => doc.text?.map deleteVar
  | "GetMember" => doc.text?.map getMember
  | "SetMember" => doc.text?.map setMember
  | "DeleteMember" => doc.text?.map deleteMember
  | "Call" => doc.nat64?.map call
  | "Operator" => do
    let name ← doc.textMember? "name"
    let argc ← doc.natMember? "argc"
    return operator name argc
  | "Jump" => doc.text?.map jump
  | "JumpIfTrue" => doc.text?.map jumpIfTrue
  | "JumpIfFalse" => doc.text?.map jumpIfFalse
  | "TypeTest" => doc.text?.map typeTest
  | "IterNext" => doc.text?.map iterNext
  | "BodyStart" => (doc.textMember? "end").map bodyStart
  | "MakeFunction" => do
    let name ← doc.textMember? "name"
    let body ← doc.textMember? "body"
    let items ← (doc.member? "params").bind Json.items?
    let params ← items.mapM ParamSpec.ofJson?
    let generator ← doc.flag? "generator"
    return makeFunction name body params generator
  | "MakeClass" => do
    let name ← doc.textMember? "name"
    let body ← doc.textMember? "body"
    let parents ← doc.natMember? "parents"
    return makeClass name body parents
  | "Try" => do
    let block ← doc.textMember? "block"
    let binding ← doc.optionalText? "binding"
    return tryBlock block binding
  | _ =>
    match doc with
    | .null => ofName? name
    | _ => none

/-- Reads an opcode. -/
def ofJson? : Json → Option Opcode
  | .str name => ofName? name
  | .obj [(name, doc)] => ofOperand? name doc
  | _ => none

end Opcode

namespace Instruction

/-- The document of an instruction; an instruction without a tag has no member for it. -/
def toJson (i : Instruction) : Json :=
  .obj (("op", i.op.toJson) :: (i.tag.map fun tag => ("tag", Json.str tag)).toList)

/-- The members of an instruction, in order. -/
def fields : List String := ["op", "tag"]

/-- Reads an instruction. -/
def ofJson? (doc : Json) : Option Instruction := do
  let doc := doc.asObject fields
  let op ← (doc.member? "op").bind Opcode.ofJson?
  let tag ← doc.optionalText? "tag"
  return { op, tag }

/-- Reads a sequence of instructions. -/
def listOfJson? (doc : Json) : Option (List Instruction) :=
  doc.items?.bind fun items => items.mapM ofJson?

end Instruction

namespace Code

/-- The document of code. -/
def toJson (c : Code) : Json := .arr (c.toList.map Instruction.toJson)

/-- Reads code. -/
def ofJson? (doc : Json) : Option Code := (Instruction.listOfJson? doc).map ofList

end Code

end ObjectMachine
