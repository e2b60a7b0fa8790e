/-!
Finding and cutting out parts of a text.
-/
namespace ObjectMachine.Text

/-- Whether the characters of `part` occur one after another in the text. -/
def occurs (part : List Char) : List Char → Bool
  | [] => part.isEmpty
  | c :: rest => part.isPrefixOf (c :: rest) || occurs part rest

/-- Splits at a separator: `piece` holds the characters since the last one, last first, and the next
`skip` characters belong to a separator that was found. -/
def splitFrom (separator : List Char) (piece : List Char) : Nat → List Char → List (List Char)
  | _, [] => [piece.reverse]
  | skip + 1, _ :: rest => splitFrom separator piece skip rest
  | 0, c :: rest =>
    if separator.isPrefixOf (c :: rest) then
      piece.reverse :: splitFrom separator [] (separator.length - 1) rest
    else splitFrom separator (c :: piece) 0 rest

/-- The pieces between the occurrences of a separator, which must not be empty. -/
def splitAt (separator cs : List Char) : List (List Char) := splitFrom separator [] 0 cs

end ObjectMachine.Text
