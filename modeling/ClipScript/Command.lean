/-
# Commands

A directive that is understood becomes a *command*. Two kinds of commands have no
directive of their own: a comment is kept as a command so that it appears in its
place, and `mergedCrop` is what several crops become before filters are built.
A command of any other kind is only named; nothing is built from it.

Sizes are whole numbers without bounds, a fade's duration is a double, and
everything that is passed on as written stays a text.
-/
import ClipScript.Json.Value
import ClipScript.Text.Blank
import ClipScript.Vocabulary

set_option autoImplicit false

namespace ClipScript

/-- Pixels taken from each edge of the frame. -/
structure Margins where
  left : Int
  right : Int
  top : Int
  bottom : Int
deriving DecidableEq, Repr

namespace Margins

/-- The pixels taken from the width. -/
def horizontal (m : Margins) : Int := m.left + m.right

/-- The pixels taken from the height. -/
def vertical (m : Margins) : Int := m.top + m.bottom

/-- No pixels. -/
def zero : Margins := ⟨0, 0, 0, 0⟩

/-- The margins of one crop after another. -/
def add (m n : Margins) : Margins :=
  ⟨m.left + n.left, m.right + n.right, m.top + n.top, m.bottom + n.bottom⟩

end Margins

/-- **A command.** -/
inductive Command where
  /-- Keep only the part between two times. -/
  | trim (start stop : String)
  /-- Write this container format. -/
  | convert (format : String)
  /-- Compress a stream. -/
  | compress (stream : Word Stream)
  /-- Scale to a size. -/
  | scale (width height : Int) (aspect : Word Aspect)
  /-- Take pixels from a side; no pixels means that borders are detected. -/
  | crop (size : Int) (side : Word Side)
  /-- Take pixels from each edge, detecting borders first if asked to. -/
  | mergedCrop (margins : Margins) (detectBorders : Bool)
  /-- Fade for a number of seconds. -/
  | fade (direction : Word FadeDirection) (duration : Double)
  /-- Burn a text, an image or subtitles into the picture. -/
  | burn (kind : Word BurnKind) (content : String) (place : Word Placement)
  /-- Write a text into the picture. -/
  | caption (text : String) (place : Word Placement) (alignment : Word Alignment) (margin : Int)
  /-- Drop one duplicated frame of every cycle. -/
  | deduplicate (cycle : Int)
  /-- Read this file; none when no file is selected. -/
  | input (selector : String) (filename : Option String)
  /-- A comment. -/
  | comment (content : String)
  /-- Something that is not a command of this language. -/
  | foreign (kind : String)
deriving DecidableEq

namespace Command

/-- The name of a command's kind. -/
def kind : Command → String
  | trim .. => "Trim"
  | convert _ => "Convert"
  | compress _ => "Compress"
  | scale .. => "Scale"
  | crop .. => "Crop"
  | mergedCrop .. => "OptimizedCrop"
  | fade .. => "Fade"
  | burn .. => "ContentOverlay"
  | caption .. => "TextOverlay"
  | deduplicate _ => "Deduplicate"
  | input .. => "Input"
  | comment _ => "Comment"
  | foreign k => k

/-- The named parameters of a command. -/
def params : Command → List (String × Json)
  | trim start stop => [("start", .text start), ("end", .text stop)]
  | convert format => [("output_format", .text format)]
  | compress stream => [("bucket", .text stream.text)]
  | scale width height aspect =>
    [("width", .whole width), ("height", .whole height), ("aspect_ratio", .text aspect.text)]
  | crop size side => [("size", .whole size), ("side", .text side.text)]
  | mergedCrop m detect =>
    [("left", .whole m.left), ("right", .whole m.right), ("top", .whole m.top),
      ("bottom", .whole m.bottom), ("detect_borders", .bool detect)]
  | fade direction duration =>
    [("operation", .text direction.text), ("duration", .real duration)]
  | burn kind content place =>
    [("content_type", .text kind.text), ("content", .text content), ("position", .text place.text)]
  | caption text place alignment margin =>
    [("text", .text text), ("position", .text place.text), ("alignment", .text alignment.text),
      ("margin", .whole margin)]
  | deduplicate cycle => [("cycle", .whole cycle)]
  | input selector filename =>
    [("file_selector", .text selector), ("filename", .ofText? filename)]
  | comment content => [("content", .text content)]
  | foreign _ => []

/-- A command as JSON: its kind and parameters. -/
def toJson (c : Command) : Json :=
  .object [("type", .text c.kind), ("params", .object c.params)]

/-! ## Kinds that are looked for -/

/-- The size and side of a crop. -/
def crop? : Command → Option (Int × Word Side)
  | crop size side => some (size, side)
  | _ => none

/-- The times of a trim. -/
def trim? : Command → Option (String × String)
  | trim start stop => some (start, stop)
  | _ => none

/-- The format of a conversion. -/
def format? : Command → Option String
  | convert format => some format
  | _ => none

/-- Whether a command names the file to read. -/
def isInput : Command → Bool
  | input .. => true
  | _ => false

end Command

end ClipScript
