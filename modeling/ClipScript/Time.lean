/-
# Times of a clip

A time is written as seconds, as minutes and seconds, or as hours, minutes and
seconds, with colons between the parts and, if need be, a fraction after the
seconds. Seconds and minutes have one or two digits, hours any number. One line
feed after the time is overlooked.

Such a text has the *form* of a time; it is a *valid* time when its seconds and
minutes are below sixty and its hours below twenty-four. Any other numeral is
understood as a number of seconds when only its length matters.
-/
import ClipScript.Number.Reading

set_option autoImplicit false

namespace ClipScript

open Number Text

/-- A time by its parts. -/
structure ClockTime where
  hours : Int
  minutes : Int
  seconds : Double
deriving DecidableEq

namespace ClockTime

/-! ## The form -/

/-- One or two digits. -/
def isShort (cs : List Char) : Bool := isDigits cs && cs.length ≤ 2

/-- Seconds: one or two digits, with a fraction or without. -/
def isSeconds (cs : List Char) : Bool :=
  let whole := cs.takeWhile isDigit
  match cs.dropWhile isDigit with
  | [] => isShort whole
  | '.' :: fraction => isShort whole && isDigits fraction
  | _ => false

/-- A text without the line feed at its end, if it has one. -/
def dropLineFeed (cs : List Char) : List Char :=
  if cs.getLast? = some '\n' then cs.dropLast else cs

/-- Whether a text has the form of a time. -/
def hasForm (s : String) : Bool :=
  match (dropLineFeed s.toList).splitOn ':' with
  | [sec] => isSeconds sec
  | [min, sec] => isShort min && isSeconds sec
  | [hour, min, sec] => isDigits hour && isShort min && isSeconds sec
  | _ => false

/-- The time that a text of the right form stands for. -/
def read? (s : String) : Except Fault (Option ClockTime) :=
  if hasForm s then
    match (s.toList.splitOn ':').map String.ofList with
    | [sec] => do return some ⟨0, 0, ← readDecimal sec⟩
    | [min, sec] => do
      let seconds ← readDecimal sec
      return some ⟨0, ← readInt min, seconds⟩
    | [hour, min, sec] => do
      let seconds ← readDecimal sec
      let minutes ← readInt min
      return some ⟨← readInt hour, minutes, seconds⟩
    | _ => .ok none
  else .ok none

/-! ## Validity and length -/

/-- Whether the parts are within their bounds. -/
def inBounds (t : ClockTime) : Bool :=
  t.seconds.lt (.finite 60) && t.minutes < 60 && t.hours < 24

/-- The length in seconds. -/
def toSeconds (t : ClockTime) : Except Fault Double := do
  return (← doubleOfInt (t.hours * 3600 + t.minutes * 60)).add t.seconds

end ClockTime

/-- **A valid time.** -/
def isValidTime (s : String) : Except Fault Bool := do
  return match ← ClockTime.read? s with
  | some t => t.inBounds
  | none => false

/-- **The length in seconds** that a text stands for: a time, or any number. -/
def secondsOf (s : String) : Except Fault Double := do
  match ← ClockTime.read? s with
  | some t => t.toSeconds
  | none => readDecimal s

end ClipScript
