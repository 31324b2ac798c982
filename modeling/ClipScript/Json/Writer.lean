/-
# Writing JSON

A value is written in ASCII: every other character is escaped by its UTF-16
code units. Two layouts are used: one line, and one with each item on a line of
its own, indented by two spaces per level. Whole numbers keep all their digits,
doubles are written with the fewest digits that read back.
-/
import ClipScript.Json.Value
import ClipScript.Number.Shortest
import ClipScript.Text.Literal

set_option autoImplicit false

namespace ClipScript.Json

/-! ## Texts -/

/-- A UTF-16 code unit as an escape. -/
def unitEscape (n : Nat) : List Char := '\\' :: 'u' :: Text.hexDigits 4 n

/-- A character inside a JSON text. -/
def escapeChar (c : Char) : List Char :=
  if c = '"' then ['\\', '"']
  else if c = '\\' then ['\\', '\\']
  else if c = '\n' then ['\\', 'n']
  else if c = '\r' then ['\\', 'r']
  else if c = '\t' then ['\\', 't']
  else if c = '\x0c' then ['\\', 'f']
  else if c = '\x08' then ['\\', 'b']
  else
    let n := c.toNat
    if 32 ≤ n ∧ n < 127 then [c]
    else if n < 0x10000 then unitEscape n
    else
      let m := n - 0x10000
      unitEscape (0xD800 + m / 0x400) ++ unitEscape (0xDC00 + m % 0x400)

/-- A text between double quotes. -/
def writeText (s : String) : List Char := '"' :: s.toList.flatMap escapeChar ++ ['"']

/-- A double; infinite and undefined ones by their words. -/
def writeDouble : Double → List Char
  | .nan => "NaN".toList
  | .infinity false => "Infinity".toList
  | .infinity true => "-Infinity".toList
  | x => x.text.toList

/-! ## Layouts -/

/-- What stands between the parts of arrays and objects at a depth. -/
structure Style where
  /-- After an opening bracket at a depth. -/
  opening : Nat → List Char
  /-- Between two items inside that depth. -/
  between : Nat → List Char
  /-- Before the closing bracket. -/
  closing : Nat → List Char
  /-- Between a name and its value. -/
  colon : List Char

/-- Everything on one line, without blanks. -/
def Style.line : Style := ⟨fun _ => [], fun _ => [','], fun _ => [], [':']⟩

/-- A new line, indented for a depth. -/
def newLine (depth : Nat) : List Char := '\n' :: List.replicate (2 * depth) ' '

/-- One item a line. -/
def Style.indented : Style :=
  ⟨fun d => newLine (d + 1), fun d => ',' :: newLine (d + 1), newLine, [':', ' ']⟩

mutual

/-- A value at a depth. -/
def write (style : Style) (depth : Nat) : Json → List Char
  | .null => "null".toList
  | .bool true => "true".toList
  | .bool false => "false".toList
  | .whole n => (toString n).toList
  | .real x => writeDouble x
  | .text s => writeText s
  | .array [] => ['[', ']']
  | .array (item :: items) =>
    '[' :: style.opening depth ++ write style (depth + 1) item ++
      writeItems style depth items ++ style.closing depth ++ [']']
  | .object [] => ['\x7b', '\x7d']
  | .object (member :: members) =>
    '\x7b' :: style.opening depth ++ writeText member.1 ++ style.colon ++
      write style (depth + 1) member.2 ++
      writeMembers style depth members ++ style.closing depth ++ ['\x7d']

/-- Further items of an array. -/
def writeItems (style : Style) (depth : Nat) : List Json → List Char
  | [] => []
  | item :: items =>
    style.between depth ++ write style (depth + 1) item ++ writeItems style depth items

/-- Further members of an object. -/
def writeMembers (style : Style) (depth : Nat) : List (String × Json) → List Char
  | [] => []
  | member :: members =>
    style.between depth ++ writeText member.1 ++ style.colon ++
      write style (depth + 1) member.2 ++ writeMembers style depth members

end

/-- **A value on one line.** -/
def line (j : Json) : String := String.ofList (write .line 0 j)

/-- **A value with one item a line.** -/
def indented (j : Json) : String := String.ofList (write .indented 0 j)

end ClipScript.Json
