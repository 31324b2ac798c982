/-
# The directives

The ten directives of the language, each with its slots, the conditions on its
parameters and the command it becomes:

    remove_frames every 5
    input "holiday.mov"
    trim from 0:10 to 1:00
    convert to webm
    compress video
    scale to 640x360 preserve aspect ratio
    crop 20px from top
    fade in/out for 1.5s
    burn subtitles "words.srt" at bottom
    add_text "Hello" at center aligned right with margin 4px

Words that belong to a vocabulary are recognised by its spellings, so a command
made here never holds a word outside it.
-/
import ClipScript.Command
import ClipScript.Pattern
import ClipScript.Time

set_option autoImplicit false

namespace ClipScript

open Number

/-! ## Lists of words -/

/-- The container formats that a script can convert to. -/
def outputFormats : List String :=
  ["mp4", "mov", "mkv", "webm", "gif", "mp3", "wav", "flac", "aac", "ogg", "png", "jpg", "webp",
    "avi", "mp4a"]

/-- The endings of files that a script can read. -/
def inputEndings : List String :=
  ["mp4", "avi", "mov", "mkv", "webm", "mp3", "wav", "flac", "aac", "jpg", "jpeg", "png", "gif",
    "srt", "ass", "vtt"]

/-- The selector that stands for no file. -/
def noFileSelector : String := "/"

/-! ## Conditions on parameters -/

/-- A trim needs two valid times, the second after the first. -/
def validateTrim (bs : Bindings) : Except Fault Verdict := do
  let start ← bs.text "start"
  let stop ← bs.text "end"
  if !(← isValidTime start) then return .refused (some ("Invalid time " ++ Text.literal start))
  if !(← isValidTime stop) then return .refused (some ("Invalid time " ++ Text.literal stop))
  let stopSeconds ← secondsOf stop
  let startSeconds ← secondsOf start
  if stopSeconds.le startSeconds then
    return .refused (some ("End time " ++ stop ++ " must be after start time " ++ start))
  return .accepted

/-- A cycle of frames has between two and thirty of them. -/
def validateCycle (bs : Bindings) : Except Fault Verdict := do
  let cycle ← readInt (← bs.text "cycle")
  return if cycle < 2 ∨ 30 < cycle then .refused (some "Invalid cycle") else .accepted

/-- The two numbers of a size. -/
def readSize (s : String) : Except Fault (Int × Int) :=
  match s.toList.splitOn 'x' with
  | [width, height] => do
    let w ← readInt (String.ofList width)
    return (w, ← readInt (String.ofList height))
  | _ => .error (.badResolution s)

/-- A size has no dimension of zero. -/
def validateSize (bs : Bindings) : Except Fault Verdict := do
  let (width, height) ← readSize (← bs.text "size")
  return if width ≤ 0 ∨ height ≤ 0 then .refused (some "Dimensions must be positive")
    else .accepted

/-- Whether a quoted file name has one of some endings. -/
def endsWithAny (endings : List String) (content : String) : Bool :=
  endings.any fun e => ('.' :: e.toList ++ ['"']).isSuffixOf content.toList

/-- Subtitles and images are burned from files of their kinds. -/
def validateBurn (bs : Bindings) : Except Fault Verdict := do
  let content ← bs.text "content"
  let fits ← match (Word.ofText (← bs.text "kind") : Word BurnKind) with
    | .known .subtitles => pure (endsWithAny ["srt", "ass"] content)
    | .known .image => pure (endsWithAny ["png", "jpeg", "jpg"] content)
    | _ => pure true
  return if fits then .accepted else .refused none

/-! ## Commands from parameters -/

/-- The pixels in a text such as `20px`. -/
def readPixels (s : String) : Except Fault Int := readInt (withoutEnd "px" s)

/-- The command of an input directive. -/
def createInput (bs : Bindings) : Except Fault Command := do
  let selector ← bs.text "file"
  return .input selector (if selector = noFileSelector then none else some (Text.unquoted selector))

/-- The command of a scale directive. -/
def createScale (bs : Bindings) : Except Fault Command := do
  let (width, height) ← readSize (← bs.text "size")
  return .scale width height (.ofText (← bs.text "aspect"))

/-- The command of a crop directive. -/
def createCrop (bs : Bindings) : Except Fault Command := do
  return .crop (← readPixels (← bs.text "pixels")) (.ofText (← bs.text "side"))

/-- The command of a fade directive. -/
def createFade (bs : Bindings) : Except Fault Command := do
  let direction ← bs.text "direction"
  return .fade (.ofText direction) (← readDecimal (withoutEnd "s" (← bs.text "duration")))

/-- The command of a burn directive. -/
def createBurn (bs : Bindings) : Except Fault Command := do
  return .burn (.ofText (← bs.text "kind")) (← bs.text "content") (.ofText (← bs.text "place"))

/-- The command of an add_text directive. -/
def createCaption (bs : Bindings) : Except Fault Command := do
  return .caption (← bs.text "text") (.ofText (← bs.text "place"))
    (.ofText (← bs.text "alignment")) (← readPixels (← bs.text "margin"))

/-! ## The patterns -/

/-- **The patterns of the language.** -/
def directivePatterns : List (Pattern Command) := [
  { name := "remove_frames"
    slots := [
      { position := 1, shape := .exactly "every" },
      { position := 2, shape := .digits, name := "cycle" }]
    validate := validateCycle
    create := fun bs => do return .deduplicate (← readInt (← bs.text "cycle")) },
  { name := "input"
    slots := [{ position := 1, shape := .mediaFile inputEndings, name := "file" }]
    create := createInput },
  { name := "trim"
    slots := [
      { position := 1, shape := .exactly "from" },
      { position := 2, shape := .line, name := "start" },
      { position := 3, shape := .exactly "to" },
      { position := 4, shape := .line, name := "end" }]
    validate := validateTrim
    create := fun bs => do return .trim (← bs.text "start") (← bs.text "end") },
  { name := "convert"
    slots := [
      { position := 1, shape := .exactly "to" },
      { position := 2, shape := .oneOf outputFormats, name := "format" }]
    create := fun bs => do return .convert (← bs.text "format") },
  { name := "compress"
    slots := [{ position := 1, shape := .oneOf (wordsOf Stream), name := "stream" }]
    create := fun bs => do return .compress (.ofText (← bs.text "stream")) },
  { name := "scale"
    slots := [
      { position := 1, shape := .exactly "to" },
      { position := 2, shape := .dimensions, name := "size" },
      { position := 3, shape := .oneOf (wordsOf Aspect), name := "aspect" },
      { position := 4, shape := .exactly "aspect" },
      { position := 5, shape := .exactly "ratio" }]
    validate := validateSize
    create := createScale },
  { name := "crop"
    slots := [
      { position := 1, shape := .pixels, name := "pixels" },
      { position := 2, shape := .exactly "from" },
      { position := 3, shape := .oneOf (wordsOf Side), name := "side" }]
    create := createCrop },
  { name := "fade"
    slots := [
      { position := 1, shape := .oneOf (wordsOf FadeDirection), name := "direction" },
      { position := 2, shape := .exactly "for" },
      { position := 3, shape := .seconds, name := "duration" }]
    create := createFade },
  { name := "burn"
    slots := [
      { position := 1, shape := .oneOf (wordsOf BurnKind), name := "kind" },
      { position := 2, shape := .quotedLine, name := "content" },
      { position := 3, shape := .exactly "at" },
      { position := 4, shape := .oneOf (wordsOf Placement), name := "place" }]
    validate := validateBurn
    create := createBurn },
  { name := "add_text"
    slots := [
      { position := 1, shape := .quotedLine, name := "text" },
      { position := 2, shape := .exactly "at" },
      { position := 3, shape := .oneOf cornerWords, name := "place" },
      { position := 4, shape := .exactly "aligned", optional := true, group := "alignment" },
      { position := 5, shape := .oneOf (wordsOf Alignment), name := "alignment",
        optional := true, fallback := "left", group := "alignment" },
      { position := 6, shape := .exactly "with", optional := true, group := "margin" },
      { position := 7, shape := .exactly "margin", optional := true, group := "margin" },
      { position := 8, shape := .pixels, name := "margin",
        optional := true, fallback := "0px", group := "margin" }]
    create := createCaption }]

/-- **The registry of the language.** -/
def directives : Registry Command := ⟨directivePatterns, .comment⟩

/-- No keyword occurs twice, so the registry is the one built from its patterns. -/
theorem ofPatterns_directivePatterns :
    Registry.ofPatterns directivePatterns .comment = .ok directives := by
  have h : Registry.repeated? [] (directivePatterns.map (·.name)) = none := by decide
  rw [Registry.ofPatterns, h]
  rfl

end ClipScript
