/-
# What a run asks of its surroundings

Reading a script or a manifest needs files and standard input, and finding out
about a media file needs another program, the *prober*. A `Host` is what provides
them, in some monad: a real one in the outer layer, or a pure one such as a
`Folder` of known files, in which everything that the library does can be
computed and reasoned about. It also has the room that is left on the stack where
JSON is read.

A call of the prober can fail on this side of it. It does not start if one of its
words cannot be passed on, and what it printed has to be UTF-8.
-/
import ClipScript.Json.Reader
import ClipScript.Path

set_option autoImplicit false

namespace ClipScript

/-! ## The prober -/

/-- What a program printed, in bytes. -/
structure Printed where
  bytes : List UInt8
deriving DecidableEq, Repr

/-- A text as a program prints it, in UTF-8. -/
def Printed.ofText (s : String) : Printed := ⟨s.toUTF8.toList⟩

instance : Coe String Printed := ⟨Printed.ofText⟩

/-- How a run of the prober ended. -/
structure Report where
  status : Int
  output : Printed
  complaint : Printed
deriving DecidableEq, Repr

/-- The prober, if it is installed: what it reports for its words. -/
abbrev Prober := Option (List String → Report)

/-- A report that was read: both of its texts. -/
structure Answer where
  status : Int
  output : String
  complaint : String
deriving DecidableEq, Repr

/-- **Reading a report,** its output first. -/
def Report.read (report : Report) : Except Fault Answer := do
  let output ← Text.decodeFile report.output.bytes
  return ⟨report.status, output, ← Text.decodeFile report.complaint.bytes⟩

/-- The longest word that can be passed on to a program, in bytes. -/
def wordLimit : Nat := 131071

/-- **Checking the words of a call:** none of them may hold a null character or be too long. -/
def checkWords (words : List String) : Except Fault Unit :=
  if words.any fun w => w.toList.contains '\x00' then .error .nullInPath
  else if words.any fun w => wordLimit < w.utf8ByteSize then .error .wordTooLong
  else .ok ()

/-- **Calling the prober:** what is read of its report, if the call can be started. -/
def callProber (run : List String → Report) (words : List String) : Except Fault Answer := do
  checkWords words
  (run words).read

/-! ## Hosts -/

/-- **A host:** files, standard input and the prober, and how deep manifests and reports of the
prober may be nested. -/
structure Host (m : Type → Type) where
  readFile : Path → m (Except Fault (List UInt8))
  readInput : m (List UInt8)
  prober : Prober
  manifestDepth : Nat := Json.nestingLimit
  reportDepth : Nat := Json.nestingLimit

namespace Host

variable {m : Type → Type} [Monad m]

/-- The text of a file. -/
def fileText (host : Host m) (path : Path) : ExceptT Fault m String := do
  let bytes ← ExceptT.mk (host.readFile path)
  ExceptT.mk (pure (Text.decodeFile bytes))

/-- The text of standard input. -/
def inputText (host : Host m) : ExceptT Fault m String := do
  let bytes ← host.readInput
  ExceptT.mk (pure (Text.decodeFile bytes))

end Host

/-! ## Folders of known files -/

/-- **A folder** with nothing in it but some files, each at the names that lead to it. -/
structure Folder where
  files : List (List String × List UInt8)

namespace Folder

/-- The bytes of the file at some names. -/
def file? (f : Folder) (names : List String) : Option (List UInt8) :=
  (f.files.find? fun e => e.1 = names).map Prod.snd

/-- Whether some names lead to a folder. -/
def hasFolder (f : Folder) (names : List String) : Bool :=
  f.files.any fun e => names.isPrefixOf e.1 && names != e.1

/-- The longest name that a file system allows, in bytes. -/
def nameLimit : Nat := 255

/-- The longest path that a file system allows, in bytes. -/
def pathLimit : Nat := 4095

/-- Following names outside of the folder. Only the folders that it is in are there. -/
def outside (names : List String) : Fault :=
  if names.all (· == "..") then .isFolder else .noFile

/-- Following names from a folder. -/
def follow (f : Folder) (here : List String) : List String → Except Fault (List UInt8)
  | [] => .error .isFolder
  | name :: names =>
    if name.utf8ByteSize > nameLimit then .error .nameTooLong
    else if name = ".." then
      if here.isEmpty then .error (outside names) else follow f here.dropLast names
    else
      let next := here ++ [name]
      match f.file? next with
      | some bytes => if names.isEmpty then .ok bytes else .error .notFolder
      | none => if f.hasFolder next then follow f next names else .error .noFile

/-- **Reading a file** of the folder. -/
def read (f : Folder) (path : Path) : Except Fault (List UInt8) :=
  if path.text.toList.contains '\x00' then .error .nullInPath
  else if path.text.utf8ByteSize > pathLimit then .error .nameTooLong
  else if path.isAbsolute then .error (outside path.names)
  else f.follow [] path.names

/-- The host that has a folder and nothing else. -/
def host (f : Folder) (input : List UInt8) (prober : Prober) : Host Id :=
  { readFile := f.read, readInput := input, prober }

end Folder

end ClipScript
