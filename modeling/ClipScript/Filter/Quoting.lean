/-
# Quoting in filter graphs

A filter graph gives a meaning to blanks and to the characters `: , ; ' [ ] = \`.
Two ways of quoting are used. An option value such as a file name is put between
single quotes when it needs it, and then only the single quote itself has to be
written differently: the quotes are closed, an escaped quote stands outside, and
the quotes are opened again. A text to be drawn is always put between quotes, and
its backslashes are doubled besides, because drawing expands them once more.
-/
import ClipScript.Text.Blank

set_option autoImplicit false

namespace ClipScript.Filter

open Text

/-- A character that has a meaning in a filter graph. -/
def isSpecial (c : Char) : Bool :=
  isBlank c || c = ':' || c = ',' || c = ';' || c = '\'' || c = '[' || c = ']' || c = '=' ||
    c = '\\'

/-- A character between single quotes. -/
def quotedChar (c : Char) : List Char := if c = '\'' then ['\'', '\\', '\'', '\''] else [c]

/-- The characters of an option value. -/
def quoteChars (cs : List Char) : List Char :=
  if cs.any isSpecial then '\'' :: cs.flatMap quotedChar ++ ['\''] else cs

/-- **An option value,** quoted if it needs it. -/
def quote (s : String) : String := String.ofList (quoteChars s.toList)

/-- A character of a text to be drawn, between single quotes. -/
def drawnChar (c : Char) : List Char := if c = '\\' then ['\\', '\\'] else quotedChar c

/-- **A text to be drawn,** without the double quotes at its ends, as it stands between single
quotes. -/
def drawn (s : String) : String :=
  String.ofList ((strip (· == '"') s.toList).flatMap drawnChar)

end ClipScript.Filter
