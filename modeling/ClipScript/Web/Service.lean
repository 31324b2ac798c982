/-
# The web service

The service offers parsing, compiling and probing over the web. Every answer is
JSON with a status: 200 when the request was served, 400 when it cannot be
understood, 404 and 405 for other paths and methods, 413 when it is too large, 422
when it is understood but impossible. Anything else that goes wrong is a 500
without an answer.

Requests are checked in a fixed order, so that of two things wrong with one it is
always the same that is reported.
-/
import ClipScript.Compilation
import ClipScript.Host
import ClipScript.Json.Encoding
import ClipScript.Probe
import ClipScript.Web.Form
import ClipScript.Web.Target

set_option autoImplicit false

namespace ClipScript.Web

/-! ## Requests and answers -/

/-- The body of a request, in bytes. -/
structure Body where
  bytes : List UInt8
deriving DecidableEq

/-- A text as a body, in UTF-8. -/
def Body.ofText (s : String) : Body := ⟨s.toUTF8.toList⟩

instance : Coe String Body := ⟨Body.ofText⟩

/-- **A request:** its method, the target that it names, and its body. -/
structure Request where
  method : String
  target : String
  contentType : Option String := none
  body : Body := ⟨[]⟩

/-- **An answer.** A status of 500 has no JSON. An upload may be left behind, and the prober
may have been called. -/
structure Response where
  status : Nat
  json : Option Json
  left : Bool := false
  calls : List (List String) := []

/-- What the service knows: the prober, the limit of a request in megabytes, and the folder
that an upload is put into. -/
structure Service where
  prober : Prober
  limit : Int
  folder : String

/-- An answer that is only an error. -/
def refuse (status : Nat) (message : String) : Response :=
  ⟨status, some (.object [("error", .text message)]), false, []⟩

/-- The answer to a request that broke the service. -/
def broken : Response := ⟨500, none, false, []⟩

/-- An answer to a request that was served. -/
def serve (members : List (String × Json)) : Response := ⟨200, some (.object members), false, []⟩

/-- The content type of a request. -/
def Request.header (r : Request) : Header := .ofText (r.contentType.getD "")

/-- Whether a request is larger than the service takes. -/
def Service.exceeds (s : Service) (r : Request) : Bool :=
  s.limit * 1024 * 1024 < r.body.bytes.length

/-- The answer to a request that is too large. -/
def Service.tooLarge (s : Service) : Response :=
  refuse 413 ("Upload exceeds " ++ toString s.limit ++ " MB")

/-! ## Results as JSON -/

/-- Texts as JSON. -/
def texts (l : List String) : Json := .array (l.map .text)

/-- A number as JSON, or null. -/
def natOrNull : Option Nat → Json
  | none => .null
  | some n => .whole n

/-- A diagnostic as JSON. -/
def diagnosticJson (d : Diagnostic) : Json :=
  .object [("message", .text d.message), ("command", .text d.command),
    ("token", .ofText? d.token), ("line", natOrNull d.line), ("offset", natOrNull d.offset),
    ("detail", .ofText? d.detail)]

/-- Diagnostics as JSON. -/
def diagnosticsJson (ds : List Diagnostic) : Json := .array (ds.map diagnosticJson)

/-! ## Scripts in requests -/

/-- The JSON of a request, if its body is a text, read to some depth. -/
def Request.json? (r : Request) (depth : Nat) : Option (Except Fault Json) :=
  (Json.decode? r.body.bytes).map fun body => Json.read body depth

/-- Answering with the script of a request, and its other members. A body that is not JSON has
no script, but reading one that is nested too deeply breaks the service. -/
def Service.withScript (s : Service) (r : Request) (depth : Nat)
    (answer : String → List (String × Json) → Response) : Response :=
  let missing := refuse 400 "Body must contain a 'script' string"
  if !r.header.isJson then missing
  else if s.exceeds r then s.tooLarge
  else
    match r.json? depth with
    | some (.ok (.object ms)) =>
      match Json.get ms "script" with
      | .text script => answer script ms
      | _ => missing
    | some (.ok _) => missing
    | some (.error f) => if f.isValue then missing else broken
    | none => missing

/-- **Parsing** a script. -/
def parseAnswer (script : String) : Response :=
  match parse .bare script with
  | .error _ => broken
  | .ok parsed =>
    serve [("commands", .array (parsed.commands.map Command.toJson)),
      ("errors", texts parsed.errors), ("parsed", texts parsed.snippets),
      ("diagnostics", diagnosticsJson parsed.diagnostics)]

/-- The descriptor in a request, if it is given. -/
def bodyDescriptor (ms : List (String × Json)) : Except Fault (Option Descriptor) :=
  let j := Json.get ms "descriptor"
  if j.isGiven then (Descriptor.ofJson j).map some else .ok none

/-- The first of some members that is neither a text nor null. -/
def notText? (ms : List (String × Json)) (names : List String) : Option String :=
  names.find? fun name =>
    match Json.get ms name with
    | .null | .text _ => false
    | _ => true

/-- **Compiling** a script. -/
def compileAnswer (script : String) (ms : List (String × Json)) : Response :=
  match bodyDescriptor ms with
  | .error f =>
    if f.isValue || f.isWrongKind then refuse 400 ("Invalid descriptor: " ++ f.message)
    else broken
  | .ok descriptor =>
    match notText? ms ["input", "output"] with
    | some name => refuse 400 ("'" ++ name ++ "' must be a string")
    | none =>
      let settings : Settings :=
        { input := Json.get ms "input", output := Json.get ms "output"
          overwrite := (Json.get ms "overwrite").isGiven }
      match compile script descriptor settings with
      | .error f => if f.isCropBounds then refuse 422 f.message else broken
      | .ok c =>
        serve [("args", texts c.args), ("command", .text c.command), ("errors", texts c.errors),
          ("warnings", texts c.warnings), ("parsed", texts c.snippets),
          ("diagnostics", diagnosticsJson c.diagnostics)]

/-! ## Probing -/

/-- The end of a text, as far as an answer shows it. -/
def tail (s : String) : String := String.ofList (s.toList.drop (s.length - 500))

/-- The name under which an upload is kept: only its suffix is taken over. -/
def uploadName (filename : String) : String :=
  let suffix := (Path.ofText filename).suffix
  "input" ++ if suffix.isEmpty then ".mp4" else suffix

/-- Whether a file can have a name. -/
def isFileName (name : String) : Bool :=
  name.utf8ByteSize ≤ Folder.nameLimit && !name.toList.contains '\x00'

/-- The answer about an upload that was probed. -/
def probeOutcome (filename path : String) : Except Fault Descriptor → Response
  | .ok d => ⟨200, some { d with filename := .text filename }.toJson, false, []⟩
  | .error (.proberFailed status complaint) =>
    refuse 422 (if complaint.isEmpty then failedCall (probeWords path) status
      else "ffprobe failed: " ++ tail complaint)
  | .error f => if f.isValue then refuse 422 f.message else broken

/-- **Probing** an upload. -/
def Service.probeAnswer (s : Service) (r : Request) (depth : Nat) : Response :=
  if s.exceeds r then s.tooLarge
  else
    match (formFiles r.header (Text.decodeReplacing r.body.bytes)).find? fun f =>
        f.field = some "file" with
    | none => refuse 400 "No file provided"
    | some file =>
      if file.filename.isEmpty then refuse 400 "Empty filename"
      else if !isFileName (uploadName file.filename) then { broken with left := true }
      else
        let path := s.folder ++ "/" ++ uploadName file.filename
        { probeOutcome file.filename path (probe depth s.prober path) with
          calls := [probeWords path] }

/-! ## Routes -/

/-- What is served. No asset is ever there. -/
inductive Route where
  | health
  | parse
  | compile
  | probe
  | asset
deriving DecidableEq, Repr

/-- The route of a path. -/
def Route.ofPath? (path : List Char) : Option Route :=
  match path with
  | '/' :: 's' :: 't' :: 'a' :: 't' :: 'i' :: 'c' :: '/' :: c :: _ =>
    if c = '/' then none else some .asset
  | _ =>
    [("/health", Route.health), ("/api/parse", .parse), ("/api/compile", .compile),
      ("/api/probe", .probe)].lookup (String.ofList path)

/-- The method that a route takes. -/
def Route.method : Route → String
  | health | asset => "GET"
  | parse | compile | probe => "POST"

/-- The method of a request in capital letters. -/
def Request.verb (r : Request) : String := String.ofList (r.method.toList.map Char.toUpper)

/-- Whether a request has the method that a route takes. -/
def Route.takes (route : Route) (r : Request) : Bool := r.verb = route.method

/-- The answer to a request with another method. -/
def wrongMethod : Response := refuse 405 "Method not allowed"

/-- The answer to a request that should have named another path. -/
def redirected : Response := ⟨308, none, false, []⟩

/-- The answer of a route. -/
def Service.answerAt (s : Service) (r : Request) (depth : Nat) : Route → Response
  | .health =>
    serve [("status", .text "ok"),
      ("ffprobe", .text (if s.prober.isSome then "available" else "missing"))]
  | .parse => s.withScript r depth fun script _ => parseAnswer script
  | .compile => s.withScript r depth compileAnswer
  | .probe => s.probeAnswer r depth
  | .asset => refuse 404 "Not found"

/-- **Answering a request** where JSON is read to some depth. A path in which a slash is doubled
leads to the path without. -/
def Service.answer (s : Service) (r : Request) (depth : Nat := Json.nestingLimit) : Response :=
  let path := pathOf r.target.toList
  match Route.ofPath? path with
  | some route => if route.takes r then s.answerAt r depth route else wrongMethod
  | none =>
    match Route.ofPath? (mergeSlashes path) with
    | some route => if route.takes r then redirected else wrongMethod
    | none => refuse 404 "Not found"

end ClipScript.Web
