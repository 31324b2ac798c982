/-
# Arguments of the command line

What is built from a command is one argument: some words, and the part of the
command line that they are meant for. Each part has a stage; the arguments are put
in order of their stages, and those of one stage stay in the order of the script.

Filters are special: a filter argument is one fragment of a filter chain, and all
fragments of a chain become a single argument, joined by commas.
-/
import ClipScript.Fault
import ClipScript.Sorting

set_option autoImplicit false

namespace ClipScript

/-! ## Arguments -/

/-- The parts of the command line. -/
inductive Destination where
  | input
  | globalOption
  | videoFilter
  | audioFilter
  | outputFormat
  | outputCodec
deriving DecidableEq, Repr

namespace Destination

/-- The name of a part. -/
def name : Destination → String
  | input => "input"
  | globalOption => "global"
  | videoFilter => "video-filter"
  | audioFilter => "audio-filter"
  | outputFormat => "output-format"
  | outputCodec => "output-codec"

/-- The stage of a part. -/
def stage : Destination → Int
  | input => 0
  | globalOption => 1
  | videoFilter => 2
  | audioFilter => 3
  | outputFormat => 4
  | outputCodec => 5

/-- The chains of fragments. -/
def isFilter : Destination → Bool
  | videoFilter | audioFilter => true
  | _ => false

end Destination

/-- **An argument:** words for a part of the command line. -/
structure Argument where
  destination : Destination
  words : List String
  stage : Int
deriving DecidableEq, Repr

namespace Argument

/-- An argument at a stage; a negative one means the stage of its part. -/
def of (destination : Destination) (words : List String) (stage : Int := -1) : Argument :=
  ⟨destination, words, if stage < 0 then destination.stage else stage⟩

/-- A fragment of the video filter chain. -/
def fragment (text : String) : Argument := .of .videoFilter [text]

/-- The words as one text. -/
def value (a : Argument) : String := String.intercalate " " a.words

end Argument

/-! ## Putting arguments together -/

/-- The fragments of a chain. -/
def fragments (chain : Destination) (arguments : List Argument) : Except Fault (List String) :=
  (arguments.filter fun a => a.destination = chain).mapM fun a =>
    match a.words with
    | w :: _ => .ok w
    | [] => .error .noFragment

/-- The argument of a chain, unless it is empty. -/
def chainArgument (chain : Destination) (option : String) (texts : List String) :
    List Argument :=
  if texts.isEmpty then [] else [.of chain [option, String.intercalate "," texts]]

/-- **The command line:** the arguments about reading, the file to read, the other arguments,
and the file to write. -/
def assemble (arguments : List Argument) (source output : String) :
    Except Fault (List String) := do
  let video ← fragments .videoFilter arguments
  let audio ← fragments .audioFilter arguments
  let grouped := (arguments.filter fun a => !a.destination.isFilter) ++
    chainArgument .videoFilter "-vf" video ++ chainArgument .audioFilter "-af" audio
  let ordered := sortByKey Argument.stage grouped
  let before := ordered.filter fun a => a.destination = .input
  let after := ordered.filter fun a => a.destination ≠ .input
  return before.flatMap Argument.words ++ ["-i", source] ++ after.flatMap Argument.words ++
    [output]

end ClipScript
