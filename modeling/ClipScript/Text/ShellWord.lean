/-
# Words of a shell

A command line is shown as one line that a shell would split into the same words.
A word of safe characters stands for itself. Any other word is put between single
quotes, where every character but the single quote stands for itself; a single
quote is written between double quotes of its own. The empty word is a pair of
quotes.
-/

set_option autoImplicit false

namespace ClipScript.Text

/-- A character that means nothing to a shell: ASCII letters and digits, and the signs
`- _ @ % + = : , . /`. -/
def isShellSafe (c : Char) : Bool := c.isAlphanum || "-_@%+=:,./".toList.contains c

/-- A character inside a quoted shell word. -/
def shellChar (c : Char) : List Char :=
  if c = '\'' then ['\'', '"', '\'', '"', '\''] else [c]

/-- **A shell word.** -/
def shellWord (cs : List Char) : List Char :=
  if !cs.isEmpty && cs.all isShellSafe then cs else '\'' :: cs.flatMap shellChar ++ ['\'']

/-- **A command line,** with one space between two words. -/
def shellLine (words : List String) : String :=
  String.intercalate " " (words.map fun w => String.ofList (shellWord w.toList))

end ClipScript.Text
