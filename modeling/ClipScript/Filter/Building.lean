/-
# Arguments from commands

Every command becomes at most one argument. What it becomes depends on the media
facts (crops), on the length of the output (fades) and on how many images have been
laid over the picture before, since each image has labels of its own.

Building a command can give warnings, and it can fail. A failure keeps the warnings
given and the images counted before it, so a `Step` always has all three parts: the
outcome, the new warnings, and the number of images so far.
-/
import ClipScript.Argument
import ClipScript.Crop
import ClipScript.Filter.Placing
import ClipScript.Filter.Quoting
import ClipScript.Number.Shortest

set_option autoImplicit false

namespace ClipScript

open Number

/-! ## Numbers in filters -/

/-- **A duration in a filter:** a whole number without a point, any other with the digits it
needs. -/
def formatNumber (x : Double) : Except Fault String := do
  let n ← intOfDouble x
  return if x.isWhole then toString n else x.text

namespace Filter

/-! ## Steps -/

/-- What building one command gives. -/
structure Step where
  outcome : Except Fault (Option Argument)
  warnings : List String
  images : Nat

/-- What is the same for all commands of a script. -/
structure Context where
  descriptor : Option Descriptor
  duration : Option Double

/-- A context; without a length of the output that of the media file counts. -/
def Context.of (descriptor : Option Descriptor) (duration : Option Double) : Context :=
  ⟨descriptor, duration <|> descriptor.bind Descriptor.duration⟩

/-- A fragment of the video chain, or a fault. -/
def fragmentOf (text : Except Fault String) : Except Fault (Option Argument) :=
  text.map fun t => some (.fragment t)

/-- An argument that is always the same. -/
def argumentOf (destination : Destination) (words : List String) :
    Except Fault (Option Argument) := .ok (some (.of destination words))

/-! ## Single filters -/

/-- Scaling to a size, or into it when the aspect ratio is kept. -/
def scaleText (width height : Int) (aspect : Word Aspect) : Except Fault String := do
  let size := "scale=" ++ (← writeInt width) ++ ":" ++ (← writeInt height)
  return if aspect = .known .preserve then size ++ ":force_original_aspect_ratio=decrease"
    else size

/-- One crop; none of the pixels means detecting borders. -/
def cropText (size : Int) (side : Word Side) (d : Option Descriptor) : Except Fault String :=
  if size = 0 then .ok borderFilter else (Margins.total [(size, side)]).filter d

/-- A merged crop, after detecting borders if asked to. -/
def mergedCropText (m : Margins) (detect : Bool) (d : Option Descriptor) :
    Except Fault String :=
  if m.horizontal = 0 ∧ m.vertical = 0 then .ok borderFilter
  else (m.filter d).map fun t => if detect then borderFilter ++ "," ++ t else t

/-- Drawing a text. -/
def drawText (text : String) (place : Word Placement) (alignment : Word Alignment)
    (margin : Int) : Except Fault String := do
  let (x, y) ← textCoordinates place (margin)
  let base := "drawtext=text='" ++ drawn text ++ "':fontsize=24:fontcolor=white:x=" ++ x ++
    ":y=" ++ y
  return if alignment = .known .left then base else base ++ ":text_align=" ++ alignment.text

/-- Burning subtitles from a file. -/
def subtitlesText (path : String) (place : Word Placement) : String :=
  "subtitles=" ++ path ++
    match keypad? place with
    | some n => ":force_style='Alignment=" ++ toString n ++ "'"
    | none => ""

/-- Laying an image from a file over the picture, with the labels of a number. -/
def imageText (path : String) (label : Nat) (place : Word Placement) : Except Fault String := do
  let (x, y) ← imageCoordinates place
  let base := "[base" ++ toString label ++ "]"
  let image := "[ovl" ++ toString label ++ "]"
  return "null" ++ base ++ ";movie=" ++ path ++ image ++ ";" ++ base ++ image ++
    "overlay=" ++ x ++ ":" ++ y

/-! ## Fades -/

/-- The warning that a fade is longer than the output, if it is. -/
def overrun (text : String) (duration : Double) (output : Option Double) :
    Except Fault (List String) :=
  match output with
  | none => .ok []
  | some length =>
    if length.lt duration then do
      return ["Fade of " ++ text ++ "s is longer than the " ++ (← formatNumber length) ++
        "s output"]
    else .ok []

/-- Where a fade out starts: so that it ends with the output, but not before its start. -/
def fadeOutStart (duration : Double) (output : Option Double) : Except Fault String :=
  match output with
  | none => .ok "0"
  | some length => formatNumber (((length.sub duration).max (.finite 0)).roundPlaces 3)

/-- Whether a fade has a part at the start, and one at the end. -/
def fadeParts : Word FadeDirection → Bool × Bool
  | .known .fadeIn => (true, false)
  | .known .fadeOut => (false, true)
  | .known .both => (true, true)
  | .other _ => (false, false)

/-- Building a fade. -/
def fadeStep (direction : Word FadeDirection) (duration : Double) (output : Option Double)
    (images : Nat) : Step :=
  let (atStart, atEnd) := fadeParts direction
  match formatNumber duration with
  | .error f => ⟨.error f, [], images⟩
  | .ok text =>
    match overrun text duration output with
    | .error f => ⟨.error f, [], images⟩
    | .ok warnings =>
      let fadeIn := if atStart then ["fade=t=in:st=0:d=" ++ text] else []
      if atEnd then
        let unknown :=
          if output.isNone then ["Source duration unknown; fade out starts at 0s"] else []
        let fragment := (fadeOutStart duration output).map fun start =>
          String.intercalate "," (fadeIn ++ ["fade=t=out:st=" ++ start ++ ":d=" ++ text])
        ⟨fragmentOf fragment, warnings ++ unknown, images⟩
      else ⟨fragmentOf (.ok (String.intercalate "," fadeIn)), warnings, images⟩

/-! ## Commands -/

/-- The name of a container format for the option that selects it. -/
def muxer (format : String) : String :=
  if format = "mkv" then "matroska"
  else if ["jpg", "jpeg", "png", "webp"].contains format then "image2"
  else if format = "aac" then "adts"
  else if format = "mp4a" then "ipod"
  else format

/-- **Building a command,** after some number of images. -/
def build (ctx : Context) (images : Nat) : Command → Step
  | .trim start stop => ⟨argumentOf .input ["-ss", start, "-to", stop], [], images⟩
  | .convert format => ⟨argumentOf .outputFormat ["-f", muxer format], [], images⟩
  | .compress stream =>
    let words := if stream = .known .audio then ["-b:a", "128k"] else ["-crf", "23"]
    ⟨argumentOf .outputCodec words, [], images⟩
  | .scale width height aspect => ⟨fragmentOf (scaleText width height aspect), [], images⟩
  | .crop size side => ⟨fragmentOf (cropText size side ctx.descriptor), [], images⟩
  | .mergedCrop m detect => ⟨fragmentOf (mergedCropText m detect ctx.descriptor), [], images⟩
  | .fade direction duration => fadeStep direction duration ctx.duration images
  | .burn kind content place =>
    match kind with
    | .known .text => ⟨fragmentOf (drawText content place (.known .left) 0), [], images⟩
    | .known .subtitles =>
      ⟨fragmentOf (.ok (subtitlesText (quote (Text.unquoted content)) place)), [], images⟩
    | _ =>
      ⟨fragmentOf (imageText (quote (Text.unquoted content)) images place), [], images + 1⟩
  | .caption text place alignment margin =>
    ⟨fragmentOf (drawText text place alignment margin), [], images⟩
  | .deduplicate cycle =>
    ⟨fragmentOf ((writeInt cycle).map ("decimate=cycle=" ++ ·)), [], images⟩
  | .input .. | .comment _ => ⟨.ok none, [], images⟩
  | .foreign kind => ⟨.ok none, ["No filter builder for " ++ kind ++ "; ignored"], images⟩

/-! ## Runs -/

/-- Building commands one after another, each with what the one before left. A command that
fails does not stop the others. -/
def steps (ctx : Context) : Nat → List Command → List Step
  | _, [] => []
  | images, c :: cs =>
    let step := build ctx images c
    step :: steps ctx step.images cs

/-- The arguments of all commands up to the first that fails, and the warnings until then. -/
structure Run where
  outcome : Except Fault (List Argument)
  warnings : List String

/-- **Building a script:** the arguments of its commands, unless one of them fails. -/
def run : List Step → Run
  | [] => ⟨.ok [], []⟩
  | step :: rest =>
    match step.outcome with
    | .error f => ⟨.error f, step.warnings⟩
    | .ok argument =>
      let later := run rest
      ⟨later.outcome.map (argument.toList ++ ·), step.warnings ++ later.warnings⟩

end Filter

end ClipScript
