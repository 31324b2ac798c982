/-
# Paths of files

A path is a root and names separated by `/`. Empty names and names that are a
single dot mean nothing and are dropped; two dots are kept, since what they mean
depends on the file system. A path that starts with exactly two slashes has a root
of its own.
-/

set_option autoImplicit false

namespace ClipScript

/-- **A path:** its root (empty for a relative path) and the names on the way. -/
structure Path where
  root : String
  names : List String
deriving DecidableEq, Repr

namespace Path

/-- The path that a text writes. -/
def ofText (s : String) : Path :=
  let slashes := (s.toList.takeWhile (· == '/')).length
  let root := if slashes = 0 then "" else if slashes = 2 then "//" else "/"
  let names := (s.toList.splitOn '/').filter fun n => !n.isEmpty && n != ['.']
  ⟨root, names.map String.ofList⟩

/-- The text of a path; a single dot when there is nothing else. -/
def text (p : Path) : String :=
  let s := p.root ++ String.intercalate "/" p.names
  if s.isEmpty then "." else s

/-- Whether a path does not depend on where it is read. -/
def isAbsolute (p : Path) : Bool := !p.root.isEmpty

/-- The folder that a path is in. -/
def parent (p : Path) : Path := { p with names := p.names.dropLast }

/-- A path read from a folder. -/
def join (folder p : Path) : Path :=
  if p.isAbsolute then p else { folder with names := folder.names ++ p.names }

/-- The last name with its last dot and all after it, when there is something on both sides
of the dot. -/
def suffixOf (name : List Char) : List Char :=
  let ending := (name.reverse.takeWhile (· != '.')).reverse
  let stem := name.take (name.length - ending.length - 1)
  if ending.isEmpty || stem.isEmpty || ending.length = name.length then [] else '.' :: ending

/-- **The suffix** of a path: empty, or a dot and what follows it. -/
def suffix (p : Path) : String :=
  String.ofList (suffixOf ((p.names.getLast?.getD "").toList))

end Path

end ClipScript
