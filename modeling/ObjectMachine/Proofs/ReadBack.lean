import Mathlib.Data.List.Basic
import ObjectMachine.Json.Reader
import ObjectMachine.Json.Writer
/-!
Written documents are read back. This holds for documents of integers, texts, truth values and `null` in lists and
objects; what is read of a number with a fraction depends on rounding, so there is none in them.
-/
namespace ObjectMachine

namespace Json

/-- A document of integers that fit a word, texts, truth values, `null` and certain numbers; members have different
names, and lists and objects are nested no deeper than `depth`. -/
inductive Plain (numbers : Binary64 → Prop) : Nat → Json → Prop where
  | null (depth : Nat) : Plain numbers depth null
  | bool (depth : Nat) (b : Bool) : Plain numbers depth (bool b)
  | int (depth : Nat) (i : Int) (least : Integer.least ≤ i) (greatest : i < UInt64.size) :
    Plain numbers depth (int i)
  | num (depth : Nat) (x : Binary64) (finite : x.isFinite) (among : numbers x) : Plain numbers depth (num x)
  | str (depth : Nat) (s : String) : Plain numbers depth (str s)
  | arr (depth : Nat) (items : List Json) (plain : ∀ v ∈ items, Plain numbers depth v) :
    Plain numbers (depth + 1) (arr items)
  | obj (depth : Nat) (members : List (String × Json)) (distinct : (members.map Prod.fst).Nodup)
    (plain : ∀ m ∈ members, Plain numbers depth m.2) : Plain numbers (depth + 1) (obj members)

/-! ### Texts -/

theorem hexValue?_hexDigit {n : Nat} (h : n < 16) : hexValue? (Text.hexDigit n) = some n := by
  revert n
  decide

theorem unit?_hexPadded {n : Nat} (h : n < 0x20) (rest : List Char) :
    unit? (Text.hexPadded 4 n ++ rest) = some (n, rest) := by
  have zero : hexValue? '0' = some 0 := rfl
  have last : hexValue? (Text.hexDigit (n % 16)) = some (n % 16) := hexValue?_hexDigit (Nat.mod_lt n (by omega))
  by_cases small : n < 16
  · rw [Nat.mod_eq_of_lt small] at last
    have digits : Text.hexDigits n = [Text.hexDigit n] := by rw [Text.hexDigits, if_pos small]
    have padded : Text.hexPadded 4 n = ['0', '0', '0', Text.hexDigit n] := by
      rw [Text.hexPadded, digits]
      rfl
    rw [padded]
    simp [unit?, zero, last]
  · have first : hexValue? (Text.hexDigit (n / 16)) = some (n / 16) := hexValue?_hexDigit (by omega)
    have digits : Text.hexDigits n = [Text.hexDigit (n / 16), Text.hexDigit (n % 16)] := by
      rw [Text.hexDigits, if_neg small, Text.hexDigits, if_pos (by omega)]
      rfl
    have padded : Text.hexPadded 4 n = ['0', '0', Text.hexDigit (n / 16), Text.hexDigit (n % 16)] := by
      rw [Text.hexPadded, digits]
      rfl
    have sum : n / 16 * 16 + n % 16 = n := Nat.div_add_mod' n 16
    rw [padded]
    simp [unit?, zero, first, last, sum]

/-- One step reads what is written for one character. -/
theorem string?_escapeChar (c : Char) (fuel : Nat) (done rest : List Char) :
    string? (fuel + 1) done (escapeChar c ++ rest) = string? fuel (c :: done) rest := by
  by_cases quote : c = '"'
  · subst quote
    rfl
  by_cases backslash : c = '\\'
  · subst backslash
    rfl
  by_cases newline : c = '\n'
  · subst newline
    rfl
  by_cases back : c = '\r'
  · subst back
    rfl
  by_cases tab : c = '\t'
  · subst tab
    rfl
  have written : escapeChar c = if c.toNat < 0x20 then ['\\', 'u'] ++ Text.hexPadded 4 c.toNat else [c] := by
    rw [escapeChar] <;> assumption
  rw [written]
  split
  · rename_i control
    show string? (fuel + 1) done ('\\' :: 'u' :: (Text.hexPadded 4 c.toNat ++ rest)) = _
    have char : Char.ofNat c.toNat = c := Char.ofNat_toNat c
    have plain : (decide (c.toNat < 0xD800) || decide (0xDFFF < c.toNat)) = true := by
      simp; omega
    have escaped : escapedChar? (Text.hexPadded 4 c.toNat ++ rest) = some (c, rest) := by
      rw [escapedChar?, unit?_hexPadded control]
      simp only [Option.bind_eq_bind, Option.bind_some, plain, if_true, char]
    rw [string?, if_neg (by decide), if_pos rfl]
    simp only [escaped]
    rfl
  · rename_i printed
    show string? (fuel + 1) done (c :: rest) = _
    rw [string?.eq_def]
    dsimp only
    rw [if_neg quote, if_neg backslash, if_neg printed]

theorem length_le_escaped (cs : List Char) : cs.length ≤ (cs.flatMap escapeChar).length := by
  induction cs with
  | nil => exact Nat.le_refl 0
  | cons c cs ih =>
    have written : 0 < (escapeChar c).length := by
      unfold escapeChar
      split
      all_goals try exact Nat.succ_pos _
      split <;> exact Nat.succ_pos _
    rw [List.flatMap_cons, List.length_append, List.length_cons]
    omega

theorem string?_escaped (cs : List Char) {fuel : Nat} (enough : cs.length < fuel) (done rest : List Char) :
    string? fuel done (cs.flatMap escapeChar ++ '"' :: rest) = some (String.ofList (done.reverse ++ cs), rest) := by
  induction cs generalizing fuel done with
  | nil =>
    obtain ⟨fuel, rfl⟩ := Nat.exists_eq_add_of_lt enough
    rw [List.append_nil]
    rfl
  | cons c cs ih =>
    cases fuel with
    | zero => exact absurd enough (Nat.not_lt_zero _)
    | succ fuel =>
      rw [List.flatMap_cons, List.append_assoc, string?_escapeChar, ih (Nat.lt_of_succ_lt_succ enough),
        List.reverse_cons, List.append_assoc]
      rfl

/-! ### Numbers -/

theorem value_toDigits (n : Nat) : Numeral.value (Nat.toDigits 10 n) = n := by
  have same : ∀ (cs : List Char) (start : Nat), Nat.ofDigitChars 10 cs start =
      cs.foldl (fun n c => n * 10 + (c.toNat - 48)) start := by
    intro cs start
    rw [Nat.ofDigitChars]
    congr 1
    funext sofar c
    rw [Nat.mul_comm]
    rfl
  have read := Nat.ofDigitChars_toDigits (b := 10) (n := n) (by omega) (by omega)
  rwa [same] at read

theorem isDigit_of_mem_toDigits {n : Nat} {c : Char} (mem : c ∈ Nat.toDigits 10 n) : Numeral.isDigit c := by
  have digit := Nat.isDigit_of_mem_toDigits (by omega) (by omega) mem
  simpa [Char.isDigit, Numeral.isDigit, Char.le_def] using digit

/-- The digits of a number that is not zero do not begin with a zero. -/
theorem exists_toDigits (n : Nat) (positive : 0 < n) : ∃ c cs, Nat.toDigits 10 n = c :: cs ∧ c ≠ '0' := by
  by_cases small : n < 10
  · refine ⟨n.digitChar, [], Nat.toDigits_of_lt_base small, ?_⟩
    have others : ∀ d < 10, 0 < d → d.digitChar ≠ '0' := by decide
    exact others n small positive
  · obtain ⟨c, cs, digits, nonzero⟩ := exists_toDigits (n / 10) (by omega)
    refine ⟨c, cs ++ [(n % 10).digitChar], ?_, nonzero⟩
    rw [Nat.toDigits_of_base_le (by omega) (by omega), digits]
    rfl

/-- What may follow a number in a document. -/
def Delimits : List Char → Prop
  | [] => True
  | c :: _ => c = ',' ∨ c = ']' ∨ c = '\x7d'

variable {rest : List Char}

/-- A number is read up to what delimits it. -/
theorem takeWhile_toDigits (n : Nat) (delimits : Delimits rest) :
    (Nat.toDigits 10 n ++ rest).takeWhile Numeral.isDigit = Nat.toDigits 10 n ∧
      (Nat.toDigits 10 n ++ rest).dropWhile Numeral.isDigit = rest := by
  have all : ∀ c ∈ Nat.toDigits 10 n, Numeral.isDigit c := fun c mem => isDigit_of_mem_toDigits mem
  rw [List.takeWhile_append_of_pos all, List.dropWhile_append_of_pos all]
  cases rest with
  | nil => exact ⟨List.append_nil _, rfl⟩
  | cons c rest =>
    have no_digit : ¬ Numeral.isDigit c := by
      rcases delimits with rfl | rfl | rfl <;> decide
    rw [List.takeWhile_cons_of_neg no_digit, List.dropWhile_cons_of_neg no_digit]
    exact ⟨List.append_nil _, rfl⟩

/-- Without fraction and exponent, a number is the integer that its digits write, if that fits a word. -/
theorem magnitude?_of_delimits (negative : Bool) (whole : List Char) (delimits : Delimits rest)
    (least : Integer.least ≤ (if negative then -(Numeral.value whole : Int) else Numeral.value whole))
    (greatest : Numeral.value whole < UInt64.size) (zero : negative → Numeral.value whole ≠ 0) :
    magnitude? negative whole rest =
      some (int (if negative then -(Numeral.value whole : Int) else Numeral.value whole), rest) := by
  have plain : (!(negative && decide (Numeral.value whole = 0))) = true := by
    cases negative with
    | false => rfl
    | true => simpa using zero rfl
  unfold magnitude?
  cases rest with
  | nil => simp [least, greatest, plain]
  | cons c rest =>
    have no_point : c ≠ '.' := by rcases delimits with rfl | rfl | rfl <;> decide
    have no_power : ¬ (c = 'e' ∨ c = 'E') := by rcases delimits with rfl | rfl | rfl <;> decide
    simp [no_point, no_power, least, greatest, plain]

/-- The digits of a number behind its sign are read as an integer. -/
theorem number?_toDigits (negative : Bool) (n : Nat) (delimits : Delimits rest)
    (least : Integer.least ≤ (if negative then -(n : Int) else n)) (greatest : n < UInt64.size)
    (zero : negative → n ≠ 0) :
    number? ((if negative then ['-'] else []) ++ (Nat.toDigits 10 n ++ rest)) =
      some (int (if negative then -(n : Int) else n), rest) := by
  have read := magnitude?_of_delimits negative (Nat.toDigits 10 n) delimits
  rw [value_toDigits] at read
  have result := read least greatest zero
  rcases Nat.eq_zero_or_pos n with none | positive
  · subst none
    have plain : negative = false := by
      cases negative with
      | false => rfl
      | true => exact absurd rfl (zero rfl)
    subst plain
    cases rest with
    | nil => exact result
    | cons c rest =>
      have no_digit : Numeral.isDigit c = false := by rcases delimits with rfl | rfl | rfl <;> decide
      show (if Numeral.isDigit c then none else magnitude? false ['0'] (c :: rest)) = _
      rw [no_digit]
      exact result
  · obtain ⟨c, cs, digits, nonzero⟩ := exists_toDigits n positive
    obtain ⟨taken, left⟩ := takeWhile_toDigits n delimits
    have digit : Numeral.isDigit c := isDigit_of_mem_toDigits (digits ▸ List.mem_cons_self)
    have no_sign : c ≠ '-' := by
      rintro rfl
      cases digit
    rw [digits, List.cons_append] at taken left ⊢
    rw [digits] at result
    cases negative with
    | false => simpa [number?, no_sign, digit, taken, left] using result
    | true => simpa [number?, digit, taken, left] using result

theorem toList_render_ofNat (n : Nat) : (render (int (.ofNat n))).toList = Nat.toDigits 10 n := by
  show (Nat.repr n).toList = _
  rw [Nat.repr, String.toList_ofList]

theorem toList_render_negSucc (n : Nat) : (render (int (.negSucc n))).toList = '-' :: Nat.toDigits 10 (n + 1) := by
  show ("-" ++ Nat.repr (n + 1)).toList = _
  rw [String.toList_append, Nat.repr]
  simp

theorem number?_render {i : Int} (least : Integer.least ≤ i) (greatest : i < UInt64.size) (delimits : Delimits rest) :
    number? ((render (int i)).toList ++ rest) = some (int i, rest) := by
  cases i with
  | ofNat n =>
    rw [toList_render_ofNat]
    exact number?_toDigits false n delimits least (Int.ofNat_lt.mp greatest) nofun
  | negSucc n =>
    have small : n + 1 < UInt64.size := by
      have : -(2 ^ 63 : Int) ≤ Int.negSucc n := least
      have : UInt64.size = 2 ^ 64 := rfl
      omega
    rw [toList_render_negSucc]
    exact number?_toDigits true (n + 1) delimits least small fun _ => Nat.succ_ne_zero n

/-- An integer begins with a sign or a digit. -/
theorem exists_render_int (i : Int) :
    ∃ c cs, (render (int i)).toList = c :: cs ∧ (c = '-' ∨ Numeral.isDigit c) := by
  cases i with
  | negSucc n => exact ⟨'-', _, toList_render_negSucc n, .inl rfl⟩
  | ofNat n =>
    obtain ⟨c, cs, digits⟩ := List.exists_cons_of_ne_nil (Nat.toDigits_ne_nil (n := n) (b := 10))
    refine ⟨c, cs, (toList_render_ofNat n).trans digits, .inr ?_⟩
    exact isDigit_of_mem_toDigits (digits ▸ List.mem_cons_self)

/-! ### Documents -/

theorem renderItems_eq_map (items : List Json) : renderItems items = items.map render := by
  induction items with
  | nil => rfl
  | cons v later ih => rw [renderItems, ih, List.map_cons]

/-- The text of a member. -/
def renderMember (m : String × Json) : String := renderString m.1 ++ ":" ++ render m.2

theorem renderMembers_eq_map (members : List (String × Json)) :
    renderMembers members = members.map renderMember := by
  induction members with
  | nil => rfl
  | cons m later ih => rw [renderMembers, ih, List.map_cons, renderMember]

theorem toList_renderString (s : String) :
    (renderString s).toList = '"' :: (s.toList.flatMap escapeChar ++ ['"']) := by
  rw [renderString, String.toList_ofList]
  rfl

theorem toList_renderMember (m : String × Json) : (renderMember m).toList =
    '"' :: (m.1.toList.flatMap escapeChar ++ '"' :: ':' :: (render m.2).toList) := by
  rw [renderMember, String.toList_append, String.toList_append, toList_renderString]
  simp

/-- A character begins a document: it separates nothing and closes no list. -/
def Begins (c : Char) : Prop := isSpace c = false ∧ c ≠ ']'

theorem skipSpace_cons {c : Char} (begins : isSpace c = false) (cs : List Char) : skipSpace (c :: cs) = c :: cs :=
  List.dropWhile_cons_of_neg (by rw [begins]; decide)

/-- A document is read back from its text, with a unit of fuel for each half of a character. -/
def ReadsBack (depth : Nat) (doc : Json) : Prop :=
  (∃ c cs, (render doc).toList = c :: cs ∧ Begins c) ∧
    ∀ (fuel : Nat) (rest : List Char), 2 * (render doc).toList.length ≤ fuel → Delimits rest →
      value? depth fuel ((render doc).toList ++ rest) = some (doc, rest)

/-- The text of several documents with commas between them. -/
def joined (texts : List String) : List Char := (",".intercalate texts).toList

theorem joined_singleton (t : String) : joined [t] = t.toList := by
  rw [joined, String.intercalate_singleton]

theorem joined_cons_cons (t u : String) (later : List String) :
    joined (t :: u :: later) = t.toList ++ ',' :: joined (u :: later) := by
  rw [joined, String.intercalate_cons_cons, String.toList_append, String.toList_append]
  simp [joined]

/-- The texts begin as the first of them does. -/
theorem exists_joined_cons {t : String} {c : Char} {cs : List Char} (head : t.toList = c :: cs)
    (later : List String) : ∃ tail, joined (t :: later) = c :: tail := by
  cases later with
  | nil => exact ⟨cs, (joined_singleton t).trans head⟩
  | cons u later => exact ⟨_, by rw [joined_cons_cons, head, List.cons_append]⟩

theorem toList_render_str (s : String) :
    (render (str s)).toList = '"' :: (s.toList.flatMap escapeChar ++ ['"']) := by
  rw [render, toList_renderString]

theorem toList_render_arr (items : List Json) :
    (render (arr items)).toList = '[' :: (joined (items.map render) ++ [']']) := by
  rw [render, renderItems_eq_map, String.toList_append, String.toList_append]
  rfl

theorem toList_render_obj (members : List (String × Json)) :
    (render (obj members)).toList = '\x7b' :: (joined (members.map renderMember) ++ ['\x7d']) := by
  rw [render, renderMembers_eq_map, String.toList_append, String.toList_append]
  rfl

/-- The items of a list are read back one after another. -/
theorem elements?_joined {depth : Nat} {items : List Json} (reads : ∀ v ∈ items, ReadsBack depth v)
    (some_item : items ≠ []) {fuel : Nat} (enough : 2 * (joined (items.map render)).length + 1 ≤ fuel)
    (done : List Json) (rest : List Char) :
    elements? depth fuel done (joined (items.map render) ++ ']' :: rest) =
      some (arr (done.reverse ++ items), rest) := by
  induction items generalizing fuel done with
  | nil => exact absurd rfl some_item
  | cons v later ih =>
    obtain ⟨fuel, rfl⟩ := Nat.exists_eq_add_of_le' (Nat.le_of_add_left_le enough)
    obtain ⟨⟨-, read⟩, readLater⟩ := List.forall_mem_cons.mp reads
    cases later with
    | nil =>
      rw [List.map_singleton, joined_singleton] at enough ⊢
      rw [elements?, read fuel (']' :: rest) (by omega) (.inr (.inl rfl))]
      simp only [skipSpace_cons (show isSpace ']' = false from rfl), List.reverse_cons]
    | cons w later =>
      rw [List.map_cons, List.map_cons, joined_cons_cons] at enough ⊢
      rw [List.length_append, List.length_cons] at enough
      have delimits : Delimits (',' :: (joined (render w :: later.map render) ++ ']' :: rest)) := .inl rfl
      rw [List.append_assoc, elements?, List.cons_append, read fuel _ (by omega) delimits]
      simp only [skipSpace_cons (show isSpace ',' = false from rfl)]
      rw [← List.map_cons, ih readLater (List.cons_ne_nil _ _) (by rw [List.map_cons]; omega),
        List.reverse_cons, List.append_assoc]
      rfl

theorem putMember_of_not_mem {name : String} (value : Json) {members : List (String × Json)}
    (new : name ∉ members.map Prod.fst) : putMember name value members = members ++ [(name, value)] := by
  induction members with
  | nil => rfl
  | cons m later ih =>
    rw [List.map_cons, List.mem_cons, not_or] at new
    have other : ¬ (m.1 == name) = true := by
      intro same
      exact new.1 (eq_of_beq same).symm
    rw [putMember, if_neg other, ih new.2]
    rfl

/-- What reading goes on with behind a member: the next one, or the end of the object. -/
def membersBehind (depth fuel : Nat) (done : List (String × Json)) : List Char → Option (Json × List Char)
  | ',' :: rest => members? depth fuel done rest
  | '\x7d' :: rest => some (obj done, rest)
  | _ => none

/-- The members of an object are read back one after another; none is written over. -/
theorem members?_joined {depth : Nat} {members : List (String × Json)}
    (reads : ∀ m ∈ members, ReadsBack depth m.2) (some_member : members ≠ []) {fuel : Nat}
    (enough : 2 * (joined (members.map renderMember)).length + 1 ≤ fuel) (done : List (String × Json))
    (distinct : ((done ++ members).map Prod.fst).Nodup) (rest : List Char) :
    members? depth fuel done (joined (members.map renderMember) ++ '\x7d' :: rest) =
      some (obj (done ++ members), rest) := by
  induction members generalizing fuel done with
  | nil => exact absurd rfl some_member
  | cons m later ih =>
    obtain ⟨name, v⟩ := m
    obtain ⟨fuel, rfl⟩ := Nat.exists_eq_add_of_le' (Nat.le_of_add_left_le enough)
    obtain ⟨⟨-, read⟩, readLater⟩ := List.forall_mem_cons.mp reads
    dsimp only at read
    have put : putMember name v done = done ++ [(name, v)] := by
      apply putMember_of_not_mem
      intro mem
      rw [List.map_append, List.map_cons] at distinct
      exact (List.nodup_append.mp distinct).2.2 name mem name List.mem_cons_self rfl
    -- what is read of the first member, whatever follows it
    have first (after : List Char) (delimits : Delimits after) (fuel : Nat)
        (enough : 2 * (renderMember (name, v)).toList.length ≤ fuel) :
        members? depth (fuel + 1) done ((renderMember (name, v)).toList ++ after) =
          membersBehind depth fuel (done ++ [(name, v)]) (skipSpace after) := by
      rw [toList_renderMember] at enough ⊢
      simp only [List.length_cons, List.length_append] at enough
      have few : name.toList.length < fuel := by
        have escaped := length_le_escaped name.toList
        omega
      rw [List.cons_append, List.append_assoc, List.cons_append, List.cons_append, members?,
        skipSpace_cons rfl]
      simp only [string?_escaped _ few, skipSpace_cons (show isSpace ':' = false from rfl)]
      rw [List.reverse_nil, List.nil_append, String.ofList_toList, read fuel after (by omega) delimits]
      exact put ▸ rfl
    cases later with
    | nil =>
      rw [List.map_singleton, joined_singleton] at enough ⊢
      have delimits : Delimits ('\x7d' :: rest) := .inr (.inr rfl)
      rw [first _ delimits fuel (by omega), skipSpace_cons rfl]
      rfl
    | cons w later =>
      rw [List.map_cons, List.map_cons, joined_cons_cons] at enough ⊢
      rw [List.length_append, List.length_cons] at enough
      have delimits : Delimits (',' :: (joined (renderMember w :: later.map renderMember) ++ '\x7d' :: rest)) :=
        .inl rfl
      rw [List.append_assoc, List.cons_append, first _ delimits fuel (by omega), skipSpace_cons rfl]
      rw [← List.map_cons]
      show members? depth fuel _ (joined ((w :: later).map renderMember) ++ '\x7d' :: rest) = _
      rw [ih readLater (List.cons_ne_nil _ _) (by rw [List.map_cons]; omega)]
      · simp
      · simpa using distinct

theorem ReadsBack.of_cons {depth : Nat} {doc : Json} {c : Char} {cs : List Char}
    (written : (render doc).toList = c :: cs) (begins : Begins c)
    (reads : ∀ (fuel : Nat) (rest : List Char), 2 * (c :: cs).length ≤ fuel + 1 → Delimits rest →
      value? depth (fuel + 1) (c :: (cs ++ rest)) = some (doc, rest)) : ReadsBack depth doc := by
  refine ⟨⟨c, cs, written, begins⟩, ?_⟩
  intro fuel rest enough delimits
  rw [written] at enough ⊢
  have some_fuel : 1 ≤ fuel := by
    rw [List.length_cons] at enough
    omega
  obtain ⟨fuel, rfl⟩ := Nat.exists_eq_add_of_le' some_fuel
  exact reads fuel rest enough delimits

/-- A sign or a digit is none of the characters with which something else begins or that separate. -/
theorem ne_of_number {c : Char} (number : c = '-' ∨ Numeral.isDigit c) :
    ∀ d ∈ [' ', '\t', '\n', '\r', 'n', 't', 'f', '"', '[', ']', '\x7b'], c ≠ d := by
  rintro d mem rfl
  rcases number with rfl | digit
  · exact absurd mem (by decide)
  · simp only [List.mem_cons, List.not_mem_nil, or_false] at mem
    rcases mem with rfl | rfl | rfl | rfl | rfl | rfl | rfl | rfl | rfl | rfl | rfl <;> cases digit

theorem begins_of_number {c : Char} (number : c = '-' ∨ Numeral.isDigit c) : Begins c := by
  have other := ne_of_number number
  refine ⟨?_, other ']' (by decide)⟩
  simp [isSpace, other ' ' (by decide), other '\t' (by decide), other '\n' (by decide), other '\r' (by decide)]

/-- What begins with a sign or a digit is a number. -/
theorem value?_of_number {c : Char} (number : c = '-' ∨ Numeral.isDigit c) (depth fuel : Nat) (cs : List Char) :
    value? depth (fuel + 1) (c :: cs) = number? (c :: cs) := by
  have other := ne_of_number number
  rw [value?, skipSpace_cons (begins_of_number number).1]
  split
  case h_7 => rfl
  all_goals
    rename_i begins
    injection begins with first
    exact absurd first (other _ (by decide))

theorem value?_of_bracket (depth fuel : Nat) (cs : List Char) :
    value? (depth + 1) (fuel + 1) ('[' :: cs) =
      match skipSpace cs with
      | ']' :: rest => some (arr [], rest)
      | rest => elements? depth fuel [] rest := by
  rw [value?, skipSpace_cons rfl]
  rfl

theorem value?_of_brace (depth fuel : Nat) (cs : List Char) :
    value? (depth + 1) (fuel + 1) ('\x7b' :: cs) =
      match skipSpace cs with
      | '\x7d' :: rest => some (obj [], rest)
      | rest => members? depth fuel [] rest := by
  rw [value?, skipSpace_cons rfl]
  rfl

/-- A document is read back, and it begins with what separates nothing and closes nothing. -/
theorem Plain.readsBack {depth : Nat} {doc : Json} (plain : Plain (fun _ => False) depth doc) :
    ReadsBack depth doc := by
  -- by induction on the document; what a list or an object holds is nested less deeply
  induction plain with
  | null depth => exact .of_cons rfl ⟨rfl, by decide⟩ fun fuel rest _ _ => rfl
  | bool depth b =>
    cases b with
    | true => exact .of_cons rfl ⟨rfl, by decide⟩ fun fuel rest _ _ => rfl
    | false => exact .of_cons rfl ⟨rfl, by decide⟩ fun fuel rest _ _ => rfl
  | int depth i least greatest =>
    obtain ⟨c, cs, written, number⟩ := exists_render_int i
    apply ReadsBack.of_cons written (begins_of_number number)
    intro fuel rest enough delimits
    rw [value?_of_number number, ← List.cons_append, ← written]
    exact number?_render least greatest delimits
  | num depth x finite among => exact among.elim
  | str depth s =>
    apply ReadsBack.of_cons (toList_render_str s) ⟨rfl, by decide⟩
    intro fuel rest enough _
    have few : s.toList.length < fuel := by
      have escaped := length_le_escaped s.toList
      rw [List.length_cons, List.length_append] at enough
      omega
    rw [value?, skipSpace_cons rfl]
    simp only [List.append_assoc, List.singleton_append, string?_escaped _ few, List.reverse_nil, List.nil_append,
      String.ofList_toList, Option.map_some]
  | arr depth items plain ih =>
    apply ReadsBack.of_cons (toList_render_arr items) ⟨rfl, by decide⟩
    intro fuel rest enough _
    rw [value?_of_bracket, List.append_assoc]
    cases items with
    | nil => rfl
    | cons v later =>
      -- the first item begins with something that is neither a separator nor the closing bracket
      obtain ⟨⟨c, cs, head, space, closing⟩, -⟩ := ih v List.mem_cons_self
      obtain ⟨tail, first⟩ := exists_joined_cons head (later.map render)
      have fits : 2 * (joined ((v :: later).map render)).length + 1 ≤ fuel := by
        simp only [List.length_cons, List.length_append, List.length_nil] at enough
        omega
      have read := elements?_joined ih (List.cons_ne_nil v later) fits [] rest
      rw [List.map_cons, first, List.cons_append] at read ⊢
      rw [skipSpace_cons space]
      split
      · rename_i same
        injection same with same
        exact absurd same closing
      · exact read
  | obj depth members distinct plain ih =>
    apply ReadsBack.of_cons (toList_render_obj members) ⟨rfl, by decide⟩
    intro fuel rest enough _
    rw [value?_of_brace, List.append_assoc]
    cases members with
    | nil => rfl
    | cons m later =>
      obtain ⟨tail, first⟩ := exists_joined_cons (toList_renderMember m) (later.map renderMember)
      have fits : 2 * (joined ((m :: later).map renderMember)).length + 1 ≤ fuel := by
        simp only [List.length_cons, List.length_append, List.length_nil] at enough
        omega
      have read := members?_joined ih (List.cons_ne_nil m later) fits [] distinct rest
      rw [List.map_cons, first, List.cons_append] at read ⊢
      rw [skipSpace_cons rfl]
      exact read

/-- A written document is read back. -/
theorem parse?_render {doc : Json} (plain : Plain (fun _ => False) maxDepth doc) :
    parse? (render doc) = some doc := by
  have read := plain.readsBack.2 (2 * (render doc).toList.length + 2) [] (by omega) trivial
  rw [List.append_nil] at read
  rw [parse?]
  simp only [read]
  rfl

end Json

end ObjectMachine
