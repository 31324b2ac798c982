/-
# Double-precision numbers

Durations are double-precision numbers: the whole multiples `k · 2 ^ e` with
`|k| < 2 ^ 53` and `-1074 ≤ e ≤ 971`, beside two infinities, a negative zero and
a value that is no number at all. A finite one is kept as the exact rational
number it stands for. Arithmetic is then what it is meant to be, the exact result
rounded once to the nearest double, and a statement about durations is a
statement about rational numbers.

`ofRat` is the only place where rounding happens. Whole numbers below `2 ^ 53` are
doubles, so `ofRat` keeps them, and times in whole seconds are computed exactly.
-/
import ClipScript.Number.Rounding

set_option autoImplicit false

namespace ClipScript

/-- A double-precision number. A finite one carries its exact value. -/
inductive Double where
  | nan
  | infinity (negative : Bool)
  | negativeZero
  | finite (value : Rat)
deriving DecidableEq, Inhabited

namespace Double

open Number

/-! ## Rounding -/

/-- The exponent of the last place of a double near `n / d`: fifty-two places below the
leading one, and never below the smallest there is. -/
def lastPlace (n d : Nat) : Int := max (floorLog2 n d - 52) (-1074)

/-- The multiple of `2 ^ e` nearest to `n / d`, as its factor. -/
def nearestMultiple (n d : Nat) (e : Int) : Nat :=
  match e with
  | .ofNat j => roundHalfEven n (d * Nat.pow 2 j)
  | .negSucc j => roundHalfEven (n * Nat.pow 2 (j + 1)) d

/-- The number `k · 2 ^ e`. -/
def scaled (k : Nat) (e : Int) : Rat :=
  match e with
  | .ofNat j => mkRat (k * Nat.pow 2 j : Nat) 1
  | .negSucc j => mkRat k (Nat.pow 2 (j + 1))

/-- **Rounding:** the double nearest to a rational number, with ties to the even factor. A
value too large for any finite double becomes infinite; a negative one too small becomes the
negative zero. -/
def ofRat (q : Rat) : Double :=
  if q.num = 0 then .finite 0
  else
    let n := q.num.natAbs
    let e := lastPlace n q.den
    let k := nearestMultiple n q.den e
    let negative := q.num < 0
    if k = 0 then (if negative then .negativeZero else .finite 0)
    else if floorLog2 k 1 + e > 1023 then .infinity negative
    else if negative then .finite (-scaled k e)
    else .finite (scaled k e)

/-- The double nearest to `n / d`; the quotient is nonnegative. -/
def ofRatio (n d : Nat) : Double := ofRat (mkRat n d)

/-- The double nearest to a whole number; infinite when it is too large. -/
def ofInt (n : Int) : Double := ofRat n

/-! ## Sign and size -/

/-- The same size with the opposite sign. -/
def neg : Double → Double
  | .nan => .nan
  | .infinity s => .infinity !s
  | .negativeZero => .finite 0
  | .finite q => if q.num = 0 then .negativeZero else .finite (-q)

/-- Neither infinite nor undefined. -/
def isFinite : Double → Bool
  | .nan | .infinity _ => false
  | .negativeZero | .finite _ => true

/-- The exact value of a finite double, whatever the sign of a zero. -/
def value? : Double → Option Rat
  | .nan | .infinity _ => none
  | .negativeZero => some 0
  | .finite q => some q

/-! ## Order -/

/-- **Less than.** The value that is no number is less than nothing, and nothing is less
than it. -/
def lt : Double → Double → Bool
  | .nan, _ | _, .nan => false
  | .infinity s, .infinity t => s && !t
  | .infinity s, _ => s
  | _, .infinity t => !t
  | .negativeZero, .negativeZero => false
  | .negativeZero, .finite q => 0 < q
  | .finite p, .negativeZero => p < 0
  | .finite p, .finite q => p < q

/-- Less than or equal. -/
def le : Double → Double → Bool
  | .nan, _ | _, .nan => false
  | x, y => !lt y x

/-- The larger of two; the first one when neither is larger. -/
def max (x y : Double) : Double := if lt x y then y else x

/-- The smaller of two; the first one when neither is smaller. -/
def min (x y : Double) : Double := if lt y x then y else x

/-! ## Arithmetic -/

/-- **Sum:** the exact sum, rounded. -/
def add : Double → Double → Double
  | .nan, _ | _, .nan => .nan
  | .infinity s, .infinity t => if s = t then .infinity s else .nan
  | .infinity s, _ => .infinity s
  | _, .infinity t => .infinity t
  | .negativeZero, y => y
  | x, .negativeZero => x
  | .finite p, .finite q => ofRat (p + q)

/-- **Difference:** the exact difference, rounded. -/
def sub (x y : Double) : Double := add x y.neg

/-- The nearest number with `places` decimal places, a half going to the even one. -/
def roundPlaces (places : Nat) : Double → Double
  | .finite q =>
    let unit := Nat.pow 10 places
    let k := roundHalfEven (q.num.natAbs * unit) q.den
    if q.num < 0 then (ofRatio k unit).neg else ofRatio k unit
  | x => x

/-- Whether a double is a whole number. -/
def isWhole : Double → Bool
  | .nan | .infinity _ => false
  | .negativeZero => true
  | .finite q => q.den = 1

end Double

end ClipScript
