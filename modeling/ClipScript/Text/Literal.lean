/-
# Quoting a text in a message

A message shows a piece of the user's text between quotes so that its ends are
visible. The single quote is used, unless the text holds a single quote and no
double quote. Inside, the backslash, the chosen quote, line feed, carriage
return and tab are written with a backslash, and characters that cannot be shown
by their code point, with two, four or eight hexadecimal digits.
-/
import ClipScript.Text.Printable

set_option autoImplicit false

namespace ClipScript.Text

/-! ## Hexadecimal digits -/

/-- The digit for a number below sixteen, in lower case. -/
def hexDigit (n : Nat) : Char :=
  if n < 10 then Char.ofNat (48 + n) else Char.ofNat (87 + n)

/-- The last `width` hexadecimal digits of a number. -/
def hexDigits : Nat → Nat → List Char
  | 0, _ => []
  | width + 1, n => hexDigits width (n / 16) ++ [hexDigit (n % 16)]

/-! ## Literals -/

/-- One character as it stands between the quotes `quote`. -/
def literalChar (quote c : Char) : List Char :=
  if c = '\\' || c = quote then ['\\', c]
  else if c = '\n' then ['\\', 'n']
  else if c = '\r' then ['\\', 'r']
  else if c = '\t' then ['\\', 't']
  else if isPrintable c then [c]
  else
    let n := c.toNat
    if n < 0x100 then '\\' :: 'x' :: hexDigits 2 n
    else if n < 0x10000 then '\\' :: 'u' :: hexDigits 4 n
    else '\\' :: 'U' :: hexDigits 8 n

/-- The quote a literal is written with. -/
def literalQuote (cs : List Char) : Char :=
  if cs.contains '\'' && !cs.contains '"' then '"' else '\''

/-- **Literal:** a text between quotes, with everything unprintable escaped. -/
def literal (s : String) : String :=
  let quote := literalQuote s.toList
  String.ofList (quote :: s.toList.flatMap (literalChar quote) ++ [quote])

end ClipScript.Text
