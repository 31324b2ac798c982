/-
# The shortest decimal text of a double

A double is written with the fewest decimal digits that read back as the same
double. Every double `k · 2 ^ e` is surrounded by the interval of real numbers
that round to it; the ends belong to it exactly when `k` is even. For one digit,
two digits and so on, the two neighbours of the value on the grid of that many
digits are tested: if any point of the grid lies in the interval, one of these
two does. The first grid with a hit gives the digits; of two hits the nearer
counts, of two equally near ones the even one.

How the digits are laid out, where the point stands and when an exponent is
written is decided by `Layout`.
-/
import ClipScript.Number.Double

set_option autoImplicit false

namespace ClipScript.Number

/-! ## The digits -/

/-- Decimal digits of a positive number: `0.d₁d₂… · 10 ^ point`. -/
structure Digits where
  digits : List Char
  point : Int
deriving DecidableEq, Repr

/-- The interval that rounds to a double, in units `unit = 1 / den` of its own: a number
`c · 10 ^ k` is inside iff it is between `low` and `high`. -/
structure Interval where
  low : Nat
  value : Nat
  high : Nat
  den : Nat
  closed : Bool

/-- The interval around `k · 2 ^ e`. Below a power of two the neighbour is twice as near. -/
def Interval.around (k : Nat) (e : Int) : Interval :=
  let below := if k = Nat.pow 2 52 ∧ e > -1074 then 1 else 2
  let up := Nat.pow 2 e.toNat
  { low := (4 * k - below) * up
    value := 4 * k * up
    high := (4 * k + 2) * up
    den := 4 * Nat.pow 2 (-e).toNat
    closed := k % 2 = 0 }

/-- The interval with all numbers divided by `10 ^ k`. -/
def Interval.shift (i : Interval) (k : Int) : Interval :=
  let up := Nat.pow 10 (-k).toNat
  { i with low := i.low * up, value := i.value * up, high := i.high * up
           den := i.den * Nat.pow 10 k.toNat }

/-- Whether a whole number lies in the interval. -/
def Interval.contains (i : Interval) (c : Nat) : Bool :=
  if i.closed then i.low ≤ c * i.den && c * i.den ≤ i.high
  else i.low < c * i.den && c * i.den < i.high

/-- The whole number in the interval that is nearest to its value, if one is inside. -/
def Interval.pick? (i : Interval) : Option Nat :=
  let c := i.value / i.den
  let nearest := roundHalfEven i.value i.den
  if i.contains nearest then some nearest
  else if i.contains c then some c
  else if i.contains (c + 1) then some (c + 1)
  else none

/-- Digits without trailing zeros. -/
def trimZeros (cs : List Char) : List Char :=
  (cs.reverse.dropWhile (· == '0')).reverse

/-- The first of the grids `n, n + 1, …` digits wide that has a point in the interval; after
`fuel` grids the digits of the value itself, rounded to the last grid. -/
def searchDigits (i : Interval) (exponent : Int) (n : Nat) : Nat → Digits
  | 0 =>
    let s := i.shift (exponent + 1 - n)
    let ds := Nat.toDigits 10 (roundHalfEven s.value s.den)
    ⟨trimZeros ds, exponent + 1 - n + ds.length⟩
  | fuel + 1 =>
    let k := exponent + 1 - n
    match (i.shift k).pick? with
    | some c =>
      let ds := Nat.toDigits 10 c
      ⟨trimZeros ds, k + ds.length⟩
    | none => searchDigits i exponent (n + 1) fuel

/-- **Shortest digits** of the double `k · 2 ^ e`, for positive `k`. Seventeen digits always
suffice. -/
def shortestDigits (k : Nat) (e : Int) : Digits :=
  let n := k * Nat.pow 2 e.toNat
  let d := Nat.pow 2 (-e).toNat
  searchDigits (Interval.around k e) (floorLog10 n d) 1 17

/-! ## The layout -/

/-- How digits become text. -/
structure Layout where
  /-- The smallest decimal exponent written without an exponent part. -/
  lowest : Int
  /-- The first decimal exponent above it that needs one. -/
  highest : Int
  /-- The text after the last digit of a whole number. -/
  wholeEnd : String
  /-- The least number of digits of an exponent. -/
  exponentWidth : Nat

/-- **The layout of a duration:** positional from `1e-4` up to, but not including, `1e16`; a
whole number ends in `.0`; exponents have a sign and two digits at least. -/
def durationLayout : Layout := ⟨-4, 16, ".0", 2⟩

/-- A number padded with zeros on the left. -/
def padded (width n : Nat) : List Char :=
  let ds := Nat.toDigits 10 n
  List.replicate (width - ds.length) '0' ++ ds

/-- The text of `0.d₁d₂… · 10 ^ point` in a layout. -/
def Layout.text (l : Layout) (x : Digits) : List Char :=
  let exponent := x.point - 1
  if exponent < l.lowest ∨ l.highest ≤ exponent then
    let fraction := x.digits.drop 1
    x.digits.take 1 ++ (if fraction.isEmpty then [] else '.' :: fraction) ++
      'e' :: (if exponent < 0 then '-' else '+') :: padded l.exponentWidth exponent.natAbs
  else if x.point ≤ 0 then
    '0' :: '.' :: List.replicate (-x.point).toNat '0' ++ x.digits
  else
    let p := x.point.toNat
    if x.digits.length ≤ p then
      x.digits ++ List.replicate (p - x.digits.length) '0' ++ l.wholeEnd.toList
    else x.digits.take p ++ '.' :: x.digits.drop p

end ClipScript.Number

namespace ClipScript.Double

open Number

/-- The text of a positive finite double. -/
def magnitudeText (q : Rat) : List Char :=
  let e := lastPlace q.num.natAbs q.den
  durationLayout.text (shortestDigits (nearestMultiple q.num.natAbs q.den e) e)

/-- **Text of a double:** the shortest digits that read back, in the layout of durations. -/
def text : Double → String
  | .nan => "nan"
  | .infinity false => "inf"
  | .infinity true => "-inf"
  | .negativeZero => "-0.0"
  | .finite q =>
    if q.num = 0 then "0.0"
    else if q.num < 0 then String.ofList ('-' :: magnitudeText q)
    else String.ofList (magnitudeText q)

end ClipScript.Double
