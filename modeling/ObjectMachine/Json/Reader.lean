import ObjectMachine.Json
import ObjectMachine.Numeral
/-!
Reading JSON text. A number with a fraction or an exponent is read as at most twenty significant
digits, as many as an unsigned 64-bit word holds, scaled by a power of ten in one floating-point
operation. When an object names a member twice, the last document stands at the first place.
-/
namespace ObjectMachine.Json

/-- The characters that separate tokens. -/
def isSpace (c : Char) : Bool := c = ' ' || c = '\t' || c = '\n' || c = '\r'

/-- Drops leading separators. -/
def skipSpace (cs : List Char) : List Char := cs.dropWhile isSpace

/-- The value of a hexadecimal digit. -/
def hexValue? (c : Char) : Option Nat :=
  if '0' ≤ c && c ≤ '9' then some (c.toNat - 48)
  else if 'a' ≤ c && c ≤ 'f' then some (c.toNat - 87)
  else if 'A' ≤ c && c ≤ 'F' then some (c.toNat - 55)
  else none

/-- Reads four hexadecimal digits. -/
def unit? : List Char → Option (Nat × List Char)
  | a :: b :: c :: d :: rest => do
    let a ← hexValue? a
    let b ← hexValue? b
    let c ← hexValue? c
    let d ← hexValue? d
    some (((a * 16 + b) * 16 + c) * 16 + d, rest)
  | _ => none

/-- Reads what follows an escape `u`: one unit, or two that form a pair. -/
def escapedChar? (cs : List Char) : Option (Char × List Char) := do
  let (n, rest) ← unit? cs
  if n < 0xD800 || 0xDFFF < n then some (Char.ofNat n, rest)
  else if 0xDC00 ≤ n then none
  else
    match rest with
    | '\\' :: 'u' :: rest => do
      let (m, rest) ← unit? rest
      if 0xDC00 ≤ m && m ≤ 0xDFFF then
        some (Char.ofNat (0x10000 + (n - 0xD800) * 0x400 + (m - 0xDC00)), rest)
      else none
    | _ => none

/-- Reads the rest of a text after its opening quote; `done` holds what was read, last first. -/
def string? : Nat → List Char → List Char → Option (String × List Char)
  | 0, _, _ => none
  | _ + 1, _, [] => none
  | fuel + 1, done, c :: rest =>
    if c = '"' then some (String.ofList done.reverse, rest)
    else if c = '\\' then
      match rest with
      | '"' :: rest => string? fuel ('"' :: done) rest
      | '\\' :: rest => string? fuel ('\\' :: done) rest
      | '/' :: rest => string? fuel ('/' :: done) rest
      | 'b' :: rest => string? fuel ('\x08' :: done) rest
      | 'f' :: rest => string? fuel ('\x0c' :: done) rest
      | 'n' :: rest => string? fuel ('\n' :: done) rest
      | 'r' :: rest => string? fuel ('\r' :: done) rest
      | 't' :: rest => string? fuel ('\t' :: done) rest
      | 'u' :: rest => do
        let (c, rest) ← escapedChar? rest
        string? fuel (c :: done) rest
      | _ => none
    else if c.toNat < 0x20 then none
    else string? fuel (c :: done) rest

/-- Takes digits into an unsigned 64-bit word while they fit: the word and the digits left. -/
def absorb (word : Nat) : List Char → Nat × List Char
  | [] => (word, [])
  | c :: rest =>
    let next := word * 10 + (c.toNat - 48)
    if next < UInt64.size then absorb next rest else (word, c :: rest)

/-- Divides by a power of ten, in steps of at most `10 ^ 308`. -/
def scaleDown (x : Float) (power : Nat) : Nat → Float
  | 0 => x
  | fuel + 1 =>
    if power ≤ 308 then x / Float.ofScientific 1 false power
    else scaleDown (x / Float.ofScientific 1 false 308) (power - 308) fuel

/-- The number `word * 10 ^ exponent`; `none` if it is too large. -/
def scale? (word : Nat) (exponent : Int) : Option Float :=
  let x := Float.ofNat word
  if word = 0 then some 0.0
  else if exponent < 0 then some (scaleDown x (-exponent).toNat 4)
  else if 308 < exponent then none
  else
    let y := x * Float.ofScientific 1 false exponent.toNat
    if y.isFinite then some y else none

/-- Reads a number without its sign: its digits before the point, and what follows them. -/
def magnitude? (negative : Bool) (whole rest : List Char) : Option (Json × List Char) :=
  let (fraction, rest) : Option (List Char) × List Char :=
    match rest with
    | '.' :: rest => (some (rest.takeWhile Numeral.isDigit), rest.dropWhile Numeral.isDigit)
    | rest => (none, rest)
  let power : Option (Option Int × List Char) :=
    match rest with
    | c :: rest =>
      if c = 'e' ∨ c = 'E' then
        let (minus, rest) := Numeral.takeSign rest
        let digits := rest.takeWhile Numeral.isDigit
        if digits.isEmpty then none
        else
          let n : Int := Numeral.value digits
          some (some (if minus then -n else n), rest.dropWhile Numeral.isDigit)
      else some (none, c :: rest)
    | [] => some (none, [])
  match power with
  | none => none
  | some (power, rest) =>
    let n := Numeral.value whole
    let i : Int := if negative then -(n : Int) else n
    if fraction = some [] then none
    else if fraction.isNone && power.isNone && Integer.least ≤ i && n < UInt64.size &&
        !(negative && n = 0) then
      some (int i, rest)
    else
      let (word, left) := absorb 0 whole
      let (word, unread) := absorb word (fraction.getD [])
      let taken := (fraction.getD []).length - unread.length
      (scale? word (power.getD 0 + (left.length : Int) - taken)).map fun x =>
        (num (.ofFloat (if negative then -x else x)), rest)

/-- Reads a number, given its first character and the rest. -/
def number? (cs : List Char) : Option (Json × List Char) :=
  let (negative, cs) : Bool × List Char :=
    match cs with
    | '-' :: cs => (true, cs)
    | cs => (false, cs)
  match cs with
  | '0' :: rest =>
    match rest with
    | c :: _ => if Numeral.isDigit c then none else magnitude? negative ['0'] rest
    | [] => magnitude? negative ['0'] []
  | c :: _ =>
    if Numeral.isDigit c then
      magnitude? negative (cs.takeWhile Numeral.isDigit) (cs.dropWhile Numeral.isDigit)
    else none
  | [] => none

/-- Writes a member over an earlier one of the same name, or appends it. -/
def putMember (name : String) (value : Json) : List (String × Json) → List (String × Json)
  | [] => [(name, value)]
  | (n, v) :: rest => if n == name then (n, value) :: rest else (n, v) :: putMember name value rest

/-- How deep lists and objects may stand in one another. -/
def maxDepth : Nat := 127

mutual

/-- Reads one document with lists and objects nested as deep as `depth` says. -/
def value? (depth : Nat) : Nat → List Char → Option (Json × List Char)
  | 0, _ => none
  | fuel + 1, cs =>
    match skipSpace cs with
    | 'n' :: 'u' :: 'l' :: 'l' :: rest => some (null, rest)
    | 't' :: 'r' :: 'u' :: 'e' :: rest => some (bool true, rest)
    | 'f' :: 'a' :: 'l' :: 's' :: 'e' :: rest => some (bool false, rest)
    | '"' :: rest => (string? fuel [] rest).map fun (s, rest) => (str s, rest)
    | '[' :: rest =>
      if depth = 0 then none
      else
        match skipSpace rest with
        | ']' :: rest => some (arr [], rest)
        | rest => elements? (depth - 1) fuel [] rest
    | '\x7b' :: rest =>
      if depth = 0 then none
      else
        match skipSpace rest with
        | '\x7d' :: rest => some (obj [], rest)
        | rest => members? (depth - 1) fuel [] rest
    | rest => number? rest

/-- Reads the elements of a list after the first bracket or a comma; `done` holds those read, last
first. -/
def elements? (depth : Nat) : Nat → List Json → List Char → Option (Json × List Char)
  | 0, _, _ => none
  | fuel + 1, done, cs =>
    match value? depth fuel cs with
    | none => none
    | some (v, rest) =>
      match skipSpace rest with
      | ',' :: rest => elements? depth fuel (v :: done) rest
      | ']' :: rest => some (arr (v :: done).reverse, rest)
      | _ => none

/-- Reads the members of an object after the first brace or a comma; `done` holds those read. -/
def members? (depth : Nat) : Nat → List (String × Json) → List Char → Option (Json × List Char)
  | 0, _, _ => none
  | fuel + 1, done, cs =>
    match skipSpace cs with
    | '"' :: rest =>
      match string? fuel [] rest with
      | none => none
      | some (name, rest) =>
        match skipSpace rest with
        | ':' :: rest =>
          match value? depth fuel rest with
          | none => none
          | some (v, rest) =>
            let done := putMember name v done
            match skipSpace rest with
            | ',' :: rest => members? depth fuel done rest
            | '\x7d' :: rest => some (obj done, rest)
            | _ => none
        | _ => none
    | _ => none

end

/-- Reads a text that is one document. Reading a character takes at most two units of fuel. -/
def parse? (s : String) : Option Json :=
  let cs := s.toList
  match value? maxDepth (2 * cs.length + 2) cs with
  | some (v, rest) => if (skipSpace rest).isEmpty then some v else none
  | none => none

end ObjectMachine.Json
