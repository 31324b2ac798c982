/-
# Text files

Scripts, manifests and requests arrive as bytes in UTF-8. A byte sequence is read
by a small machine: between characters it expects a leading byte, which says how
many continuation bytes follow and in which range the first of them lies; inside
a character it collects continuation bytes. The ranges exclude overlong forms,
surrogates and code points above U+10FFFF, so what the machine accepts is exactly
UTF-8, and it stops at the first byte that cannot continue. Only JSON is read with the
surrogates let through, and only forms are read on behind a byte that cannot continue.

A byte order mark is a character like any other. In text files the line ends
`\r\n` and `\r` are read as `\n`.

**Texts that are left out.** A text is a list of Unicode characters, and half of a surrogate
pair is none. JSON can name one on its own, with an escape or in its bytes, and the text it
stands in could then be handled as any other until it has to be written. Such texts are not
distinguished here: each half without its other half is read as U+FFFD (`charOfPoint`). Nor
can words of a command line or names of files hold bytes that are not UTF-8.
-/
import ClipScript.Fault

set_option autoImplicit false

namespace ClipScript.Text

/-! ## The machine -/

/-- A character that has begun: its first byte, its place, the number of bytes seen, the
number still owed, the range of the next one and the bits collected. -/
structure Pending where
  first : Nat
  start : Nat
  seen : Nat
  owed : Nat
  low : Nat
  high : Nat
  bits : Nat

/-- What a leading byte opens: continuation bytes owed, range of the first, leading bits. Halves of
surrogate pairs may be let through. -/
def leading? (halves : Bool) (b : Nat) : Option (Nat × Nat × Nat × Nat) :=
  if 0xC2 ≤ b ∧ b ≤ 0xDF then some (1, 0x80, 0xBF, b - 0xC0)
  else if b = 0xE0 then some (2, 0xA0, 0xBF, 0)
  else if b = 0xED then some (2, 0x80, if halves then 0xBF else 0x9F, 0xD)
  else if 0xE1 ≤ b ∧ b ≤ 0xEF then some (2, 0x80, 0xBF, b - 0xE0)
  else if b = 0xF0 then some (3, 0x90, 0xBF, 0)
  else if 0xF1 ≤ b ∧ b ≤ 0xF3 then some (3, 0x80, 0xBF, b - 0xF0)
  else if b = 0xF4 then some (3, 0x80, 0x8F, 4)
  else none

/-- The character of a code point; half of a surrogate pair is none and becomes U+FFFD. -/
def charOfPoint (n : Nat) : Char := if n.isValidChar then Char.ofNat n else '\uFFFD'

/-- The fault of a character that ends before it is complete. -/
def Pending.fault (p : Pending) (reason : String) : Fault := .badUtf8 p.first p.start p.seen reason

/-- The characters of the bytes from `position` on, inside the character `pending` if there
is one. -/
def decodeFrom (halves : Bool) (position : Nat) (pending : Option Pending) :
    List UInt8 → Except Fault (List Char)
  | [] =>
    match pending with
    | none => .ok []
    | some p => .error (p.fault "unexpected end of data")
  | byte :: bytes =>
    let b := byte.toNat
    match pending with
    | none =>
      if b < 0x80 then
        (decodeFrom halves (position + 1) none bytes).map (charOfPoint b :: ·)
      else
        match leading? halves b with
        | some (owed, low, high, bits) =>
          decodeFrom halves (position + 1) (some ⟨b, position, 1, owed, low, high, bits⟩) bytes
        | none => .error (.badUtf8 b position 1 "invalid start byte")
    | some p =>
      if p.low ≤ b ∧ b ≤ p.high then
        let bits := p.bits * 64 + (b - 0x80)
        if p.owed ≤ 1 then
          (decodeFrom halves (position + 1) none bytes).map (charOfPoint bits :: ·)
        else
          let p := { p with
            seen := p.seen + 1, owed := p.owed - 1, low := 0x80, high := 0xBF, bits }
          decodeFrom halves (position + 1) (some p) bytes
      else .error (p.fault "invalid continuation byte")

/-- **The text of UTF-8 bytes.** -/
def decode (bytes : List UInt8) : Except Fault String :=
  (decodeFrom false 0 none bytes).map String.ofList

/-! ## Bytes that are no UTF-8 -/

/-- The characters of some bytes, inside the character `pending` if there is one. A character that
cannot go on becomes U+FFFD. -/
def replacingFrom (pending : Option Pending) : List UInt8 → List Char
  | [] => if pending.isSome then ['\uFFFD'] else []
  | byte :: bytes =>
    let b := byte.toNat
    let opened :=
      if b < 0x80 then charOfPoint b :: replacingFrom none bytes
      else
        match leading? false b with
        | some (owed, low, high, bits) =>
          replacingFrom (some ⟨b, 0, 1, owed, low, high, bits⟩) bytes
        | none => '\uFFFD' :: replacingFrom none bytes
    match pending with
    | none => opened
    | some p =>
      if p.low ≤ b ∧ b ≤ p.high then
        let bits := p.bits * 64 + (b - 0x80)
        if p.owed ≤ 1 then charOfPoint bits :: replacingFrom none bytes
        else
          let p := { p with
            seen := p.seen + 1, owed := p.owed - 1, low := 0x80, high := 0xBF, bits }
          replacingFrom (some p) bytes
      else '\uFFFD' :: opened

/-- The text of bytes that need not be UTF-8. -/
def decodeReplacing (bytes : List UInt8) : String := String.ofList (replacingFrom none bytes)

/-! ## Line ends -/

/-- Every line end as a single line feed. -/
def unifyLines : List Char → List Char
  | '\r' :: '\n' :: cs => '\n' :: unifyLines cs
  | '\r' :: cs => '\n' :: unifyLines cs
  | c :: cs => c :: unifyLines cs
  | [] => []

/-- A text with every line end as a single line feed. -/
def withPlainLines (s : String) : String := String.ofList (unifyLines s.toList)

/-- **The text of a text file.** -/
def decodeFile (bytes : List UInt8) : Except Fault String :=
  (decode bytes).map withPlainLines

end ClipScript.Text
