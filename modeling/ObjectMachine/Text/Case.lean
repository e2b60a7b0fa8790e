import ObjectMachine.Text.CaseTable
/-!
Upper and lower case of whole texts. Each character is mapped on its own, possibly to several
characters, except that a capital sigma is lowered to the final form at the end of a word.
-/
namespace ObjectMachine.Text

/-- Maps one character by the expansions, else by the first run that covers it, else to itself. -/
def mapCase (expansions : List (Nat × List Nat)) (runs : List CaseRun) (c : Char) : List Char :=
  match expansions.lookup c.toNat with
  | some points => points.map Char.ofNat
  | none =>
    match runs.find? fun r => r.covers c.toNat with
    | some r => [Char.ofNat ((c.toNat : Int) + r.shift).toNat]
    | none => [c]

/-- The upper case of one character. -/
def upperChar (c : Char) : List Char := mapCase upperExpansions upperRuns c

/-- The lower case of one character that is not a capital sigma. -/
def lowerChar (c : Char) : List Char := mapCase lowerExpansions lowerRuns c

/-- Whether the first character that is not passed over has a case. -/
def meetsCased (cs : List Char) : Bool :=
  match cs.dropWhile caseIgnorableChars.contains with
  | [] => false
  | c :: _ => casedChars.contains c

/-- The capital sigma. -/
def capitalSigma : Char := 'Σ'

/-- Lowers the characters, given those before them, last one first. -/
def lowerFrom (before : List Char) : List Char → List Char
  | [] => []
  | c :: rest =>
    let mapped :=
      if c = capitalSigma then
        if meetsCased before && !meetsCased rest then ['ς'] else ['σ']
      else lowerChar c
    mapped ++ lowerFrom (c :: before) rest

/-- The text in upper case. -/
def upper (s : String) : String := String.ofList (s.toList.flatMap upperChar)

/-- The text in lower case. -/
def lower (s : String) : String := String.ofList (lowerFrom [] s.toList)

end ObjectMachine.Text
