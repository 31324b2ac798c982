/-
# Probing media files

The prober describes a media file in JSON: a list of streams, of which the first
video and the first audio stream count, and a format with the length of the file.
From this the media facts are made. A file without either stream is refused.

The description comes from another program, so nothing about its shape is taken
for granted: whatever is missing or of the wrong kind is a fault.
-/
import ClipScript.Descriptor
import ClipScript.Host
import ClipScript.Json.Reader

set_option autoImplicit false

namespace ClipScript

open Number

/-! ## Frame rates -/

/-- **A frame rate** such as `30000/1001`, or a single number. A rate over zero is unknown. -/
def frameRate : Json → Except Fault (Option Double)
  | .text s =>
    if s.isEmpty then .ok none
    else
      let numerator := s.toList.takeWhile (· != '/')
      let denominator := s.toList.drop (numerator.length + 1)
      if denominator.isEmpty then (readDecimal (String.ofList numerator)).map some
      else do
        let d ← readInt (String.ofList denominator)
        if d = 0 then return none
        else return some (← quotient (← readInt (String.ofList numerator)) d)
  | j => if j.isGiven then .error .wrongShape else .ok none

/-! ## Streams -/

/-- The members of an object. -/
def membersOf : Json → Except Fault (List (String × Json))
  | .object ms => .ok ms
  | _ => .error .wrongShape

/-- The first stream of a kind. -/
def firstStream (kind : String) : List Json → Except Fault (Option (List (String × Json)))
  | [] => .ok none
  | s :: ss => do
    let ms ← membersOf s
    if (Json.get ms "codec_type").text? = some kind then return some ms
    else firstStream kind ss

/-- The streams of a description. Texts and objects list their characters and names, none of
which is a stream. -/
def streamsOf (description : List (String × Json)) : Except Fault (List Json) :=
  match Json.lookup "streams" description with
  | none => .ok []
  | some (.array items) => .ok items
  | some (.text s) => .ok (s.toList.map fun c => .text (String.singleton c))
  | some (.object ms) => .ok (ms.map fun m => .text m.1)
  | some _ => .error .wrongKind

/-- A dimension of a video stream, if it is given. -/
def dimension (name : String) (video : Option (List (String × Json))) :
    Except Fault (Option Int) :=
  match video.bind (Json.lookup name) with
  | none => .ok none
  | some j => (Descriptor.intOfJson j).map some

/-- The codec of a stream; every stream has one. -/
def codecOf : Option (List (String × Json)) → Except Fault Json
  | none => .ok .null
  | some ms =>
    match Json.lookup "codec_name" ms with
    | some j => .ok j
    | none => .error .missingMember

/-- **Media facts from a description.** -/
def Descriptor.ofDescription (description : Json) (filename : Option String) :
    Except Fault Descriptor := do
  let ms ← membersOf description
  let streams ← streamsOf ms
  let video ← firstStream "video" streams
  let audio ← firstStream "audio" streams
  if video.isNone && audio.isNone then .error (.noMediaStream (filename.getD "None"))
  else
    let format ← membersOf ((Json.lookup "format" ms).getD (.object []))
    let width ← dimension "width" video
    let height ← dimension "height" video
    let duration ← Descriptor.optional Descriptor.doubleOfJson (Json.get format "duration")
    let fps ← frameRate ((video.map fun v => Json.get v "r_frame_rate").getD .null)
    let videoCodec ← codecOf video
    let audioCodec ← codecOf audio
    return { filename := .ofText? filename, width, height, duration, fps, videoCodec, audioCodec }

/-! ## Running the prober -/

/-- The words of a call of the prober. -/
def probeWords (path : String) : List String :=
  ["ffprobe", "-v", "quiet", "-print_format", "json", "-show_format", "-show_streams", path]

/-- The names of signals. -/
def signalNames : List (Nat × String) :=
  [(1, "SIGHUP"), (2, "SIGINT"), (3, "SIGQUIT"), (4, "SIGILL"), (5, "SIGTRAP"), (6,
   "SIGABRT"), (7, "SIGBUS"), (8, "SIGFPE"), (9, "SIGKILL"), (10, "SIGUSR1"), (11, "SIGSEGV"),
   (12, "SIGUSR2"), (13, "SIGPIPE"), (14, "SIGALRM"), (15, "SIGTERM"), (16, "SIGSTKFLT"), (17,
   "SIGCHLD"), (18, "SIGCONT"), (19, "SIGSTOP"), (20, "SIGTSTP"), (21, "SIGTTIN"), (22,
   "SIGTTOU"), (23, "SIGURG"), (24, "SIGXCPU"), (25, "SIGXFSZ"), (26, "SIGVTALRM"), (27,
   "SIGPROF"), (28, "SIGWINCH"), (29, "SIGIO"), (30, "SIGPWR"), (31, "SIGSYS"), (34,
   "SIGRTMIN"), (64, "SIGRTMAX")]

/-- How a call ended: with a status, or by a signal when that is negative. -/
def endingText (status : Int) : String :=
  if 0 ≤ status then "returned non-zero exit status " ++ toString status ++ "."
  else
    match signalNames.lookup status.natAbs with
    | some name => "died with <Signals." ++ name ++ ": " ++ toString status.natAbs ++ ">."
    | none => "died with unknown signal " ++ toString status.natAbs ++ "."

/-- The text of a call that ended with an error. -/
def failedCall (words : List String) (status : Int) : String :=
  "Command '[" ++ String.intercalate ", " (words.map Text.literal) ++ "]' " ++ endingText status

/-- **Probing a file:** the media facts that the prober reports, in JSON that is read to some
depth. -/
def probe (depth : Nat) (prober : Prober) (path : String) : Except Fault Descriptor :=
  match prober with
  | none => .error .noFile
  | some run => do
    let answer ← callProber run (probeWords path)
    if answer.status ≠ 0 then .error (.proberFailed answer.status answer.complaint)
    else Descriptor.ofDescription (← Json.read answer.output depth) (some path)

end ClipScript
