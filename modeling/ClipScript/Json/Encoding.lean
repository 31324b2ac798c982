/-
# The bytes of JSON

JSON that arrives as bytes is in UTF-8, or in UTF-16 or UTF-32 with the bytes of a unit
in either order. Which it is can be told from a byte order mark, and without one from
the zero bytes at the front, since the first two characters of JSON are in ASCII. The
mark is no part of the text.

Halves of surrogate pairs are let through as they are in escapes, and nothing else that
breaks the encoding.
-/
import ClipScript.Json.Reader

set_option autoImplicit false

namespace ClipScript.Json

/-! ## Encodings -/

/-- An encoding of JSON; in a big one the most significant byte of a unit comes first. -/
inductive Encoding where
  | utf8
  | utf16 (big : Bool)
  | utf32 (big : Bool)
deriving DecidableEq, Repr

/-- **The encoding of some bytes,** and the bytes behind the mark. -/
def detect (bytes : List UInt8) : Encoding × List UInt8 :=
  match bytes with
  | 0x00 :: 0x00 :: 0xFE :: 0xFF :: rest => (.utf32 true, rest)
  | 0xFF :: 0xFE :: 0x00 :: 0x00 :: rest => (.utf32 false, rest)
  | 0xFE :: 0xFF :: rest => (.utf16 true, rest)
  | 0xFF :: 0xFE :: rest => (.utf16 false, rest)
  | 0xEF :: 0xBB :: 0xBF :: rest => (.utf8, rest)
  | a :: b :: c :: d :: _ =>
    if a = 0 then (if b = 0 then .utf32 true else .utf16 true, bytes)
    else if b = 0 then (if c = 0 ∧ d = 0 then .utf32 false else .utf16 false, bytes)
    else (.utf8, bytes)
  | [a, b] => (if a = 0 then .utf16 true else if b = 0 then .utf16 false else .utf8, bytes)
  | _ => (.utf8, bytes)

/-! ## Units -/

/-- The number that some bytes stand for, the most significant one first. -/
def numberOf (bytes : List UInt8) : Nat := bytes.foldl (fun n b => n * 256 + b.toNat) 0

/-- The units of two bytes, if nothing is left over. -/
def units16? (big : Bool) : List UInt8 → Option (List Nat)
  | [] => some []
  | a :: b :: bytes =>
    (units16? big bytes).map (numberOf (if big then [a, b] else [b, a]) :: ·)
  | _ => none

/-- The units of four bytes, if nothing is left over and all are code points. -/
def units32? (big : Bool) : List UInt8 → Option (List Nat)
  | [] => some []
  | a :: b :: c :: d :: bytes =>
    let n := numberOf (if big then [a, b, c, d] else [d, c, b, a])
    if n ≤ 0x10FFFF then (units32? big bytes).map (n :: ·) else none
  | _ => none

/-- The characters of units of two bytes. -/
def joinUnits : List Nat → List Char
  | high :: low :: units =>
    if isHighSurrogate high && isLowSurrogate low then
      Text.charOfPoint (joinSurrogates high low) :: joinUnits units
    else Text.charOfPoint high :: joinUnits (low :: units)
  | units => units.map Text.charOfPoint

/-! ## Texts -/

/-- **The text of JSON in bytes,** if they are one in their encoding. -/
def decode? (bytes : List UInt8) : Option String :=
  match detect bytes with
  | (.utf8, rest) => (Text.decodeFrom true 0 none rest).toOption.map String.ofList
  | (.utf16 big, rest) => (units16? big rest).map fun units => String.ofList (joinUnits units)
  | (.utf32 big, rest) =>
    (units32? big rest).map fun units => String.ofList (units.map Text.charOfPoint)

end ClipScript.Json
