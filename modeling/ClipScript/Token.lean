/-
# Tokens and diagnostics

A script is a sequence of *tokens*: comments, quoted texts and bare words. Each
token knows where it starts, as a line counted from one and a column counted from
zero, so that a *diagnostic* can point at it.

A comment is recognised by its first character alone. No word and no quoted text
starts with `#`, so for the tokens of a script this is the same as its kind.
-/

set_option autoImplicit false

namespace ClipScript

/-! ## Tokens -/

/-- What a token is. -/
inductive TokenKind where
  | comment
  | quoted
  | word
deriving DecidableEq, Repr

/-- **A token:** its text, with the line and column where it starts. -/
structure Token where
  kind : TokenKind
  text : String
  line : Nat
  offset : Nat
deriving DecidableEq, Repr

/-- A token that starts with `#`. -/
def Token.isComment (t : Token) : Bool := t.text.toList.head? = some '#'

/-- The texts of tokens, with one space between two. -/
def spaced (tokens : List Token) : String := String.intercalate " " (tokens.map Token.text)

/-! ## Diagnostics -/

/-- **A diagnostic:** what is wrong with one directive. The token is the one at fault, with its
place; the detail says more about a parameter. -/
structure Diagnostic where
  message : String
  command : String
  token : Option String
  line : Option Nat
  offset : Option Nat
  detail : Option String
deriving DecidableEq, Repr

/-- A diagnostic that points at a token. -/
def Diagnostic.about (token : Token) (command message : String)
    (detail : Option String := none) : Diagnostic :=
  { message, command, token := some token.text, line := some token.line,
    offset := some token.offset, detail }

end ClipScript
