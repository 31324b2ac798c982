/-
# Reading numbers

Two forms of numerals are read. A *whole* numeral is a sign and digits; a
*decimal* numeral may also have a point, a fraction and an exponent, or be one of
the words for infinity and for the undefined number, in any case of letters.
Both admit blanks around the numeral, the digits of every writing system, and
single underscores between two digits.

A whole numeral is refused when it has more than `digitLimit` digits, whatever
follows it; decimal numerals have no such limit, since they are rounded to a
double. A decimal numeral stands for the double nearest to its exact value.
-/
import ClipScript.Fault
import ClipScript.Text.Blank
import ClipScript.Text.Digit

set_option autoImplicit false

namespace ClipScript.Number

open Text

/-- The most digits that a whole numeral may have, read or written. -/
def digitLimit : Nat := 4300

/-! ## Signs and underscores -/

/-- A leading sign, as whether the number is negative, and what follows it. -/
def splitSign : List Char → Bool × List Char
  | '-' :: cs => (true, cs)
  | '+' :: cs => (false, cs)
  | cs => (false, cs)

/-- Whether every underscore stands between two digits; `before` tells whether the character
before was a digit. -/
def underscoresFit : (before : Bool) → List Char → Bool
  | _, [] => true
  | before, '_' :: c :: cs => before && isDigit c && underscoresFit true cs
  | _, '_' :: [] => false
  | _, c :: cs => underscoresFit (isDigit c) cs

/-! ## Whole numerals -/

/-- **Reading a whole number.** -/
def readInt (s : String) : Except Fault Int :=
  let body := splitSign (strip isNumberBlank s.toList)
  let run := body.2.takeWhile fun c => isDigit c || c == '_'
  let digits := run.filter isDigit
  if !underscoresFit false run then .error (.notInteger s)
  else if digits.length > digitLimit then .error (.tooManyDigits digits.length)
  else if run.isEmpty || run.length != body.2.length then .error (.notInteger s)
  else
    let n : Int := digitsValue digits
    .ok (if body.1 then -n else n)

/-- The numeral of a whole number, refused when it is too long to be read again. -/
def writeInt (n : Int) : Except Fault String :=
  if (Nat.toDigits 10 n.natAbs).length > digitLimit then .error .numeralTooLong
  else .ok (toString n)

/-! ## Decimal numerals -/

/-- **The double nearest to `± digits · 10 ^ exponent`.** Far beyond the largest and below the
smallest double nothing has to be computed. -/
def decimalValue (negative : Bool) (digits : List Char) (exponent : Int) : Double :=
  let n := digitsValue digits
  let size : Int := (digits.dropWhile fun c => digitValue? c = some 0).length + exponent
  let magnitude : Double :=
    if n = 0 then .finite 0
    else if size > 400 then .infinity false
    else if size < -400 then .finite 0
    else if exponent ≥ 0 then Double.ofRatio (n * Nat.pow 10 exponent.toNat) 1
    else Double.ofRatio n (Nat.pow 10 (-exponent).toNat)
  if negative then magnitude.neg else magnitude

/-- An exponent part to the end of the text: nothing, or `e`, a sign and digits. -/
def readExponent : List Char → Option Int
  | [] => some 0
  | c :: cs =>
    if c = 'e' ∨ c = 'E' then
      let body := splitSign cs
      if isDigits body.2 then
        let n : Int := digitsValue body.2
        some (if body.1 then -n else n)
      else none
    else none

/-- A decimal numeral without sign, blanks and underscores. -/
def readMagnitude (negative : Bool) (cs : List Char) : Option Double :=
  let word := cs.map Char.toLower
  if word = "inf".toList ∨ word = "infinity".toList then some (.infinity negative)
  else if word = "nan".toList then some .nan
  else
    let whole := cs.takeWhile isDigit
    let rest := cs.dropWhile isDigit
    let (fraction, tail) :=
      match rest with
      | '.' :: r => (r.takeWhile isDigit, r.dropWhile isDigit)
      | r => ([], r)
    if whole.isEmpty && fraction.isEmpty then none
    else (readExponent tail).map fun e =>
      decimalValue negative (whole ++ fraction) (e - fraction.length)

/-- **Reading a number** as a double. -/
def readDecimal (s : String) : Except Fault Double :=
  let cs := strip isNumberBlank s.toList
  let body := splitSign (cs.filter (· != '_'))
  if !underscoresFit false cs then .error (.notDecimal s)
  else
    match readMagnitude body.1 body.2 with
    | some x => .ok x
    | none => .error (.notDecimal s)

/-! ## Between whole numbers and doubles -/

/-- A whole number as a double; one too large for any finite double is refused. -/
def doubleOfInt (n : Int) : Except Fault Double :=
  let x := Double.ofInt n
  if x.isFinite then .ok x else .error .beyondDouble

/-- A double as a whole number, without its fraction. -/
def intOfDouble : Double → Except Fault Int
  | .nan => .error .undefinedInteger
  | .infinity _ => .error .infiniteInteger
  | .negativeZero => .ok 0
  | .finite q => .ok (q.num.tdiv q.den)

/-- **The quotient of two whole numbers** as the nearest double; the divisor is not zero. A
zero quotient has the sign of the divisor. -/
def quotient (n d : Int) : Except Fault Double :=
  let x := if n = 0 then (if d < 0 then .negativeZero else .finite 0)
    else Double.ofRat (mkRat (if d < 0 then -n else n) d.natAbs)
  if x.isFinite then .ok x else .error .beyondDouble

end ClipScript.Number
