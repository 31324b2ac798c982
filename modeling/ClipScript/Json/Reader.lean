/-
# Reading JSON

The reader takes the characters of a text one construct at a time and returns
what is left of them. Each construct takes at least one character, and the result
carries that fact (`Rest`), so nested values end.

When the text is not JSON the reader says what it was waiting for and where: the
place is kept as the text that was left there, and turned into a line, a column
and a position at the end. The words `NaN`, `Infinity` and `-Infinity` are read
as numbers. Arrays and objects in one another are read to some depth. It is part
of the stack on which the reader runs, and so less where more calls are under way:
whoever reads says how much is left.
-/
import ClipScript.Number.Reading
import ClipScript.Text.Utf8

set_option autoImplicit false

namespace ClipScript.Json

/-! ## Outcomes -/

/-- Why reading stopped: a description with the text that was left, or a fault that has no
place. -/
inductive Stop where
  | before (what : String) (left : List Char)
  | fault (f : Fault)

/-- What is left of a text after something was taken from it. -/
abbrev Rest (cs : List Char) := { r : List Char // r.length < cs.length }

/-- Stop before the characters `cs`. -/
def stop {α : Type} (what : String) (cs : List Char) : Except Stop α := .error (.before what cs)

/-! ## Blanks -/

/-- The blanks of JSON. -/
def isSpace (c : Char) : Bool := c = ' ' || c = '\t' || c = '\n' || c = '\r'

/-- A text without its leading blanks. -/
def skip (cs : List Char) : List Char := cs.dropWhile isSpace

/-- Skipping blanks adds nothing. -/
theorem skip_length (cs : List Char) : (skip cs).length ≤ cs.length :=
  (List.dropWhile_suffix _).length_le

/-! ## Texts -/

/-- The value of a hexadecimal digit. -/
def hexValue? (c : Char) : Option Nat :=
  if '0' ≤ c ∧ c ≤ '9' then some (c.toNat - 48)
  else if 'a' ≤ c ∧ c ≤ 'f' then some (c.toNat - 87)
  else if 'A' ≤ c ∧ c ≤ 'F' then some (c.toNat - 55)
  else none

/-- The number that four hexadecimal digits stand for. -/
def hexQuad? (a b c d : Char) : Option Nat := do
  return (((← hexValue? a) * 16 + (← hexValue? b)) * 16 + (← hexValue? c)) * 16 + (← hexValue? d)

/-- The character that a backslash and a letter stand for. -/
def escaped? : Char → Option Char
  | '"' => some '"'
  | '\\' => some '\\'
  | '/' => some '/'
  | 'b' => some '\x08'
  | 'f' => some '\x0c'
  | 'n' => some '\n'
  | 'r' => some '\r'
  | 't' => some '\t'
  | _ => none

/-- The first half of a surrogate pair. -/
def isHighSurrogate (n : Nat) : Bool := 0xD800 ≤ n && n ≤ 0xDBFF

/-- The second half of a surrogate pair. -/
def isLowSurrogate (n : Nat) : Bool := 0xDC00 ≤ n && n ≤ 0xDFFF

/-- The code point of a surrogate pair. -/
def joinSurrogates (high low : Nat) : Nat := 0x10000 + (high - 0xD800) * 0x400 + (low - 0xDC00)

/-- What is left of a shorter text is left of the longer one. -/
def Rest.widen {cs ds : List Char} (h : cs.length ≤ ds.length) (r : Rest cs) : Rest ds :=
  ⟨r.1, Nat.lt_of_lt_of_le r.2 h⟩

/-- A `u` and four hexadecimal digits, with more text to come: the number they stand for. -/
def readUnit (cs : List Char) : Except Stop (Nat × Rest cs) :=
  match cs with
  | 'u' :: a :: b :: c :: d :: e :: r =>
    match hexQuad? a b c d with
    | some n => .ok (n, ⟨e :: r, by simp⟩)
    | none => stop "Invalid \\uXXXX escape" ('u' :: a :: b :: c :: d :: e :: r)
  | r => stop "Invalid \\uXXXX escape" r

/-- What follows a backslash: one letter, or a number in hexadecimal. Two numbers that form a
surrogate pair are one character. -/
def readEscape (c : Char) (r : List Char) : Except Stop (Char × Rest (c :: r)) :=
  if c = 'u' then do
    let (n, rest) ← readUnit (c :: r)
    match h : rest.1 with
    | '\\' :: 'u' :: r' =>
      if isHighSurrogate n then do
        let (m, rest') ← readUnit ('u' :: r')
        if isLowSurrogate m then
          .ok (Text.charOfPoint (joinSurrogates n m), rest'.widen (by
            have := rest.2; simp [h] at this; simp; omega))
        else .ok (Text.charOfPoint n, rest)
      else .ok (Text.charOfPoint n, rest)
    | _ => .ok (Text.charOfPoint n, rest)
  else
    match escaped? c with
    | some c' => .ok (c', ⟨r, Nat.lt_succ_self _⟩)
    | none => stop "Invalid \\escape" ('\\' :: c :: r)

/-- The characters of a text up to its closing quote; `opening` is what was left at its opening
quote. -/
def readChars (opening cs : List Char) : Except Stop (List Char × Rest cs) :=
  match cs with
  | [] => stop "Unterminated string starting at" opening
  | c :: r =>
    if c = '"' then .ok ([], ⟨r, Nat.lt_succ_self _⟩)
    else if c = '\\' then
      match r with
      | [] => stop "Unterminated string starting at" opening
      | c' :: r' => do
        let (char, afterEscape) ← readEscape c' r'
        let (chars, rest) ← readChars opening afterEscape.1
        .ok (char :: chars, rest.widen (Nat.le_succ_of_le (Nat.le_of_lt afterEscape.2)))
    else if c.toNat < 32 then stop "Invalid control character at" (c :: r)
    else do
      let (chars, rest) ← readChars opening r
      .ok (c :: chars, rest.widen (Nat.le_succ _))
termination_by cs.length
decreasing_by
  · exact Nat.lt_succ_of_lt afterEscape.2
  · exact Nat.lt_succ_self _

/-! ## Numbers -/

/-- A digit of a JSON number. -/
def isNumberDigit (c : Char) : Bool := '0' ≤ c && c ≤ '9'

/-- The digits of the whole part: a single zero, or digits that do not start with zero. -/
def wholeDigits : List Char → List Char
  | '0' :: _ => ['0']
  | cs => cs.takeWhile isNumberDigit

/-- A fraction: a point and at least one digit. -/
def fractionDigits : List Char → List Char
  | '.' :: cs => cs.takeWhile isNumberDigit
  | _ => []

/-- Whether a sign is at the front of a text. -/
def signed : List Char → Bool
  | '-' :: _ | '+' :: _ => true
  | _ => false

/-- An exponent part and its length: `e`, a sign if there is one, and at least one digit. -/
def exponentPart : List Char → Option (Int × Nat)
  | c :: cs =>
    if c = 'e' ∨ c = 'E' then
      let (negative, body) := Number.splitSign cs
      let digits := body.takeWhile isNumberDigit
      if digits.isEmpty then none
      else
        let n : Int := Text.digitsValue digits
        let signLength := if signed cs then 1 else 0
        some (if negative then -n else n, 1 + signLength + digits.length)
    else none
  | [] => none

/-- **A number** at the front of a text, with its length; nothing if there is none. -/
def readNumber (cs : List Char) : Except Stop (Json × Nat) :=
  let (negative, body) :=
    match cs with
    | '-' :: r => (true, r)
    | r => (false, r)
  let whole := wholeDigits body
  if whole.isEmpty then stop "Expecting value" cs
  else
    let signLength := if negative then 1 else 0
    let fraction := fractionDigits (body.drop whole.length)
    let pointLength := if fraction.isEmpty then 0 else 1 + fraction.length
    let length := signLength + whole.length + pointLength
    match fraction, exponentPart (cs.drop length) with
    | [], none =>
      if whole.length > Number.digitLimit then .error (.fault (.tooManyDigits whole.length))
      else
        let n : Int := Text.digitsValue whole
        .ok (.whole (if negative then -n else n), length)
    | _, e =>
      let (exponent, exponentLength) := e.getD (0, 0)
      .ok (.real (Number.decimalValue negative (whole ++ fraction) (exponent - fraction.length)),
        length + exponentLength)

/-! ## Values -/

/-- The words that stand for a value. -/
def words : List (List Char × Json) :=
  [("null".toList, .null), ("true".toList, .bool true), ("false".toList, .bool false),
    ("NaN".toList, .real .nan), ("Infinity".toList, .real (.infinity false)),
    ("-Infinity".toList, .real (.infinity true))]

/-- A word or a number at the front of a text, with its length. -/
def readSimple (cs : List Char) : Except Stop (Json × Nat) :=
  match words.find? fun w => w.1.isPrefixOf cs with
  | some w => .ok (w.2, w.1.length)
  | none => readNumber cs

/-- What is left after the first `n` characters, and at least one. -/
def dropSome (n : Nat) (c : Char) (cs : List Char) : Rest (c :: cs) :=
  ⟨cs.drop (n - 1), by simp only [List.length_drop, List.length_cons]; omega⟩

/-- How many arrays and objects may be open at once, where few calls are under way. -/
def nestingLimit : Nat := 990

/-- Stop at an array or object that may not be opened. -/
def tooDeep {α : Type} (container : String) : Except Stop α := .error (.fault (.tooDeep container))

mutual

/-- **A value** at the front of a text, with at most `depth` arrays and objects open at once. -/
def readValue (depth : Nat) (cs : List Char) : Except Stop (Json × Rest cs) :=
  match cs with
  | [] => stop "Expecting value" []
  | '"' :: r => do
    let (chars, rest) ← readChars ('"' :: r) r
    .ok (.text (String.ofList chars), rest.widen (Nat.le_succ _))
  | '[' :: r =>
    match depth with
    | 0 => tooDeep "array"
    | depth + 1 =>
      match h : skip r with
      | ']' :: r' => .ok (.array [], ⟨r', by
          have := skip_length r; simp [h] at this; simp; omega⟩)
      | _ => do
        let (items, rest) ← readItems depth (skip r)
        .ok (.array items, rest.widen (by have := skip_length r; simp; omega))
  | '\x7b' :: r =>
    match depth with
    | 0 => tooDeep "object"
    | depth + 1 =>
      match h : skip r with
      | '\x7d' :: r' => .ok (.object [], ⟨r', by
          have := skip_length r; simp [h] at this; simp; omega⟩)
      | _ => do
        let (members, rest) ← readMembers depth (skip r)
        .ok (.ofMembers members, rest.widen (by have := skip_length r; simp; omega))
  | c :: r => do
    let (value, length) ← readSimple (c :: r)
    .ok (value, dropSome length c r)
termination_by (cs.length, 0)
decreasing_by
  all_goals
    have := skip_length r
    simp_wf
    apply Prod.Lex.left
    omega

/-- The items of an array, from the first one to the closing bracket. -/
def readItems (depth : Nat) (cs : List Char) : Except Stop (List Json × Rest cs) := do
  let (item, rest) ← readValue depth cs
  match h : skip rest.1 with
  | ']' :: r => .ok ([item], ⟨r, by
      have := skip_length rest.1; have := rest.2; simp [h] at *; omega⟩)
  | ',' :: r => do
    let (items, rest') ← readItems depth (skip r)
    .ok (item :: items, rest'.widen (by
      have := skip_length rest.1; have := skip_length r; have := rest.2; simp [h] at *; omega))
  | r => stop "Expecting ',' delimiter" r
termination_by (cs.length, 1)
decreasing_by
  · apply Prod.Lex.right; omega
  · have h1 := skip_length rest.1
    have h2 := skip_length r
    have _h3 := rest.2
    apply Prod.Lex.left
    simp [h] at *; omega

/-- The members of an object, from the first name to the closing brace. -/
def readMembers (depth : Nat) (cs : List Char) :
    Except Stop (List (String × Json) × Rest cs) :=
  match cs with
  | '"' :: r => do
    let (name, afterName) ← readChars ('"' :: r) r
    match h : skip afterName.1 with
    | ':' :: r' => do
      let (value, afterValue) ← readValue depth (skip r')
      have bound : (skip r').length < r.length := by
        have := skip_length afterName.1; have := skip_length r'; have := afterName.2
        simp [h] at *; omega
      let member := (String.ofList name, value)
      match h' : skip afterValue.1 with
      | '\x7d' :: r'' => .ok ([member], ⟨r'', by
          have := skip_length afterValue.1; have := afterValue.2
          simp [h'] at *; omega⟩)
      | ',' :: r'' => do
        let (members, rest) ← readMembers depth (skip r'')
        .ok (member :: members, rest.widen (by
          have := skip_length afterValue.1; have := skip_length r''; have := afterValue.2
          simp [h'] at *; omega))
      | r'' => stop "Expecting ',' delimiter" r''
    | r' => stop "Expecting ':' delimiter" r'
  | r => stop "Expecting property name enclosed in double quotes" r
termination_by (cs.length, 1)
decreasing_by
  · have h1 := skip_length afterName.1
    have h2 := skip_length r'
    have _h3 := afterName.2
    apply Prod.Lex.left
    simp [h] at *; omega
  · have h1 := skip_length afterValue.1
    have h2 := skip_length r''
    have _h3 := afterValue.2
    apply Prod.Lex.left
    simp [h'] at *; omega

end

/-! ## Texts as a whole -/

/-- The fault of stopping in a text where `left` is left of it: lines and columns count from
one, the position from zero. -/
def faultAt (what : String) (cs left : List Char) : Fault :=
  let position := cs.length - left.length
  let before := cs.take position
  let column := (before.reverse.takeWhile (· != '\n')).length + 1
  .badJson what (before.count '\n' + 1) column position

/-- The value of a text that is one value between blanks. -/
def readAll (depth : Nat) (cs : List Char) : Except Stop Json :=
  match cs with
  | '\uFEFF' :: _ => stop "Unexpected UTF-8 BOM (decode using utf-8-sig)" cs
  | _ => do
    let (value, rest) ← readValue depth (skip cs)
    match skip rest.1 with
    | [] => .ok value
    | r => stop "Extra data" r

/-- **Reading JSON** with at most `depth` arrays and objects open at once. -/
def read (s : String) (depth : Nat := nestingLimit) : Except Fault Json :=
  match readAll depth s.toList with
  | .ok value => .ok value
  | .error (.before what left) => .error (faultAt what s.toList left)
  | .error (.fault f) => .error f

end ClipScript.Json
