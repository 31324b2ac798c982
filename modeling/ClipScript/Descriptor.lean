/-
# Media facts

A *descriptor* holds what is known about a media file before it is processed: its
name, size, length, frame rate and codecs. Each of these may be unknown. The name
and the codecs are passed on exactly as they were given.

A descriptor is read from a JSON object. The size can be given as a resolution,
width `x` height, which then counts and has to be positive; or as separate
numbers of any sign. A descriptor has a *frame* when both dimensions are known and
neither is zero.

Widths and heights are written here whatever their number of digits. The limit on the digits
of a number is left out, since it is met already where a descriptor is read: a whole number
that JSON or a text gives is within it.
-/
import ClipScript.Number.Reading

set_option autoImplicit false

namespace ClipScript

open Number

/-- **What is known about a media file.** -/
structure Descriptor where
  filename : Json := .null
  width : Option Int := none
  height : Option Int := none
  duration : Option Double := none
  fps : Option Double := none
  videoCodec : Json := .null
  audioCodec : Json := .null
deriving Inhabited

namespace Descriptor

/-! ## The frame -/

/-- The size of the frame, if it is known. -/
def frame? (d : Descriptor) : Option (Int × Int) :=
  match d.width, d.height with
  | some w, some h => if w = 0 ∨ h = 0 then none else some (w, h)
  | _, _ => none

/-- The frame as width `x` height, without a limit on the digits. -/
def resolution? (d : Descriptor) : Option String :=
  d.frame?.map fun f => toString f.1 ++ "x" ++ toString f.2

/-! ## Numbers from JSON -/

/-- A JSON value as a whole number; fractions are dropped. -/
def intOfJson : Json → Except Fault Int
  | .bool b => .ok (if b then 1 else 0)
  | .whole n => .ok n
  | .real x => intOfDouble x
  | .text s => readInt s
  | j => .error (.integerFrom j.kind)

/-- A JSON value as a double. -/
def doubleOfJson : Json → Except Fault Double
  | .bool b => .ok (.finite (if b then 1 else 0))
  | .whole n => doubleOfInt n
  | .real x => .ok x
  | .text s => readDecimal s
  | j => .error (.decimalFrom j.kind)

/-- A number that may be missing: null stands for none. -/
def optional {α : Type} (read : Json → Except Fault α) : Json → Except Fault (Option α)
  | .null => .ok none
  | j => (read j).map some

/-! ## Reading -/

/-- The two numbers of a resolution, on either side of one `x` of either case. -/
def splitResolution (s : String) : Except Fault (Int × Int) :=
  match (s.toList.map fun c => if c = 'X' then 'x' else c).splitOn 'x' with
  | [w, h] =>
    match readInt (String.ofList w), readInt (String.ofList h) with
    | .ok width, .ok height => .ok (width, height)
    | _, _ => .error (.badResolution s)
  | _ => .error (.badResolution s)

/-- A descriptor with the size of a resolution. -/
def withResolution (s : String) (d : Descriptor) : Except Fault Descriptor := do
  let (width, height) ← splitResolution s
  if width ≤ 0 ∨ height ≤ 0 then .error (.emptyResolution s)
  else return { d with width := some width, height := some height }

/-- The codecs of an object, when there is an object at all. -/
def codecsOf (members : List (String × Json)) : Except Fault (List (String × Json)) :=
  let codecs := Json.get members "codecs"
  if !codecs.isGiven then .ok []
  else
    match codecs with
    | .object ms => .ok ms
    | j => .error (.codecsKind j.kind)

/-- **Reading a descriptor.** -/
def ofJson : Json → Except Fault Descriptor
  | .object members => do
    let codecs ← codecsOf members
    let duration ← optional doubleOfJson (Json.get members "duration")
    let fps ← optional doubleOfJson (Json.get members "fps")
    let d : Descriptor :=
      { filename := Json.get members "filename", duration, fps
        videoCodec := (Json.lookup "video" codecs).getD (Json.get members "codec_video")
        audioCodec := (Json.lookup "audio" codecs).getD (Json.get members "codec_audio") }
    let resolution := Json.get members "resolution"
    if resolution.isGiven then
      match resolution with
      | .text s => d.withResolution s
      | _ => .error .wrongShape
    else
      let width ← optional intOfJson (Json.get members "width")
      let height ← optional intOfJson (Json.get members "height")
      return { d with width, height }
  | j => .error (.descriptorKind j.kind)

/-! ## Writing -/

/-- **A descriptor as JSON,** without a limit on the digits of its numbers. -/
def toJson (d : Descriptor) : Json :=
  .object [
    ("filename", d.filename),
    ("resolution", .ofText? d.resolution?),
    ("width", .ofInt? d.width),
    ("height", .ofInt? d.height),
    ("duration", .ofDouble? d.duration),
    ("fps", .ofDouble? d.fps),
    ("codecs", .object [("video", d.videoCodec), ("audio", d.audioCodec)])]

end Descriptor

end ClipScript
