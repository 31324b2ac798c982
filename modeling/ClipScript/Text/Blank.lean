/-
# Blank characters

A script is free in its layout, so everything that separates words has to be
recognised, in any writing system: the ASCII controls from tab to carriage
return, the four separators U+001C to U+001F, the space, the next-line control,
and the space and separator characters of Unicode. Characters that are merely
invisible, such as U+200B and U+FEFF, are not blank: they do not separate words.

Reading a number uses the narrower set `isNumberBlank`: around a numeral the four
separators U+001C to U+001F are not skipped.
-/

set_option autoImplicit false

namespace ClipScript.Text

/-! ## The two classes -/

/-- **Blank:** the characters that separate words. -/
def isBlank (c : Char) : Bool :=
  let n := c.toNat
  (9 ≤ n && n ≤ 13) || (28 ≤ n && n ≤ 32) || n == 0x85 || n == 0xA0 || n == 0x1680 ||
    (0x2000 ≤ n && n ≤ 0x200A) || n == 0x2028 || n == 0x2029 || n == 0x202F || n == 0x205F ||
    n == 0x3000

/-- **Number blank:** the characters skipped before and after a numeral. -/
def isNumberBlank (c : Char) : Bool :=
  isBlank c && !(28 ≤ c.toNat && c.toNat ≤ 31)

/-! ## Stripping the ends -/

/-- The characters left when those in `p` are removed from both ends. -/
def strip (p : Char → Bool) (cs : List Char) : List Char :=
  ((cs.dropWhile p).reverse.dropWhile p).reverse

/-- A text that carries stray double quotes at its ends, without them. -/
def unquoted (s : String) : String :=
  String.ofList (strip (· == '"') s.toList)

end ClipScript.Text
