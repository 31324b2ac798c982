/-
# Running commands

Each command is a function of its request and the host to a session. A value that
the user gave and that cannot be used, such as a bad resolution, ends `compile` with
a line on standard error and status 2, and so do crops that leave nothing of the
frame. Directives that are not understood are listed and give status 1. Whatever
else goes wrong is not the user's doing and is passed on as a fault.
-/
import ClipScript.CommandLine.Request
import ClipScript.CommandLine.Session
import ClipScript.Json.Writer
import ClipScript.Manifest
import ClipScript.Probe

set_option autoImplicit false

namespace ClipScript.CommandLine

variable {m : Type → Type} [Monad m]

/-- A fault, or a value, as a step of a command. -/
def ofExcept {α : Type} (e : Except Fault α) : ExceptT Fault m α := ExceptT.mk (pure e)

/-! ## Scripts -/

/-- The text of the script that was asked for; a file called `-` is standard input. -/
def ScriptSource.text (source : ScriptSource) (host : Host m) : ExceptT Fault m String :=
  match source.expr, source.file with
  | some text, _ => pure text
  | none, none => host.inputText
  | none, some file =>
    let path := Path.ofText file
    if path.text = "-" then host.inputText else host.fileText path

/-- Whether a script is given in the command line at all. -/
def ScriptSource.isGiven (source : ScriptSource) : Bool :=
  source.expr.isSome || source.file.isSome

/-! ## Manifests -/

/-- A text that is not empty. -/
def given? (s : Option String) : Option String := s.filter fun t => !t.isEmpty

/-- A manifest with what the command line says instead. -/
def CompileRequest.override (r : CompileRequest) (manifest : Manifest) : Manifest :=
  let media :=
    if (given? r.resolution).isSome || r.duration.isSome then
      { manifest.media with
        resolution := ((given? r.resolution).map Json.text).getD manifest.media.resolution
        duration := (r.duration.map Json.real).getD manifest.media.duration }
    else manifest.media
  { manifest with
    input := ((given? r.input).map Json.text).getD manifest.input
    output := ((given? r.output).map Json.text).getD manifest.output
    overwrite := manifest.overwrite || r.overwrite
    probe := manifest.probe || r.probe
    media }

/-- **The manifest of a request:** the one that is named, or an empty one, with what the
command line says. -/
def CompileRequest.toManifest (r : CompileRequest) (host : Host m) :
    ExceptT Fault m Manifest := do
  match r.manifest with
  | none => return r.override { script := .text (← r.source.text host) }
  | some file =>
    let manifest ← Manifest.load host (.ofText file)
    if r.source.isGiven then
      return r.override { manifest with script := .text (← r.source.text host) }
    else return r.override manifest

/-! ## Printing -/

/-- The lines of a diagnostic. -/
def diagnosticText (d : Diagnostic) : String :=
  let place := match d.line, d.offset with
    | some line, some offset => toString line ++ ":" ++ toString offset ++ ": "
    | _, _ => ""
  let detail := match given? d.detail with
    | some text => "    " ++ text ++ "\n"
    | none => ""
  place ++ "error: " ++ d.message ++ "\n" ++ detail

/-- The events of printing diagnostics. -/
def printDiagnostics (ds : List Diagnostic) : List Event :=
  ds.map fun d => .complaint (diagnosticText d)

/-- Texts as JSON. -/
def textsJson (texts : List String) : Json := .array (texts.map .text)

/-- A compiled script as JSON. -/
def compilationJson (c : Compilation) : Json :=
  .object [("args", textsJson c.args), ("command", .text c.command),
    ("errors", textsJson c.errors), ("warnings", textsJson c.warnings),
    ("parsed", textsJson c.snippets)]

/-- The events of printing a compiled script. -/
def printCompilation (json : Bool) (c : Compilation) : List Event :=
  if json then [.output ((compilationJson c).indented ++ "\n")]
  else
    .output (c.command ++ "\n") :: printDiagnostics c.diagnostics ++
      c.warnings.map fun w => .complaint ("warning: " ++ w ++ "\n")

/-! ## Probing -/

/-- **Probing a file:** the events, and the media facts unless the prober gave none. -/
def probeFile (depth : Nat) (prober : Prober) (path : Path) :
    Except Fault (List Event × Option Descriptor) :=
  match prober with
  | none => .ok ([.complaint ("Error: " ++ Fault.proberMissing.message ++ "\n")], none)
  | some _ =>
    let call : List Event :=
      [.log ⟨.info, "naturalff.ffutil", "Probing " ++ path.text⟩, .probe (probeWords path.text)]
    match probe depth prober path.text with
    | .ok d => .ok (call, some d)
    | .error (.proberFailed status _) =>
      .ok (call ++ [.complaint ("Error: ffprobe failed on " ++ path.text ++ " (rc=" ++
        toString status ++ ")\n")], none)
    | .error (.noMediaStream name) =>
      .ok (call ++ [.complaint ("Error: " ++ (Fault.noMediaStream name).message ++ "\n")], none)
    | .error f => .error f

/-- The path of a file to probe. -/
def probePath : Json → Except Fault Path
  | .text s => .ok (.ofText s)
  | _ => .error .wrongKind

/-! ## The commands -/

/-- Status 1 when there are errors. -/
def statusOf (errors : List String) : Nat := if errors.isEmpty then 0 else 1

/-- Compiling the script of a manifest, once the media facts are known. -/
def compileScript (verbose json : Bool) (before : List Event) (script : Json)
    (descriptor : Option Descriptor) (settings : Settings) : Except Fault Session :=
  match script with
  | .text text =>
    let compiled := ClipScript.compileLogged text descriptor settings
    let events := before ++ compiled.log.map .log
    match compiled.result with
    | .ok c => .ok ⟨statusOf c.errors, verbose, events ++ printCompilation json c⟩
    | .error f =>
      if f.isCropBounds then
        .ok ⟨2, verbose, events ++ [.complaint ("Fatal: " ++ f.message ++ "\n")]⟩
      else .error f
  | _ => .error .wrongShape

/-- What `compile` works on: a manifest, its script, and its media facts. -/
def prepare (r : CompileRequest) (host : Host m) :
    ExceptT Fault m (Manifest × Json × Option Descriptor) := do
  let manifest ← r.toManifest host
  let script ← manifest.readScript host
  let descriptor ← ofExcept manifest.descriptor
  return (manifest, script, descriptor)

/-- Compiling what was prepared, after probing if it is asked for. -/
def compilePrepared (verbose json : Bool) (depth : Nat) (prober : Prober) (manifest : Manifest)
    (script : Json) (descriptor : Option Descriptor) : Except Fault Session :=
  if !manifest.probe then compileScript verbose json [] script descriptor manifest.settings
  else if !manifest.input.isGiven then
    .ok ⟨2, verbose,
      [.complaint "Error: --probe needs an input file (--input or manifest 'input').\n"]⟩
  else do
    let path ← probePath manifest.input
    match ← probeFile depth prober path with
    | (events, none) => return ⟨2, verbose, events⟩
    | (events, some d) => compileScript verbose json events script (some d) manifest.settings

/-- **The command `compile`.** -/
def runCompile (verbose : Bool) (r : CompileRequest) (host : Host m) :
    ExceptT Fault m Session := do
  match ← ExceptT.lift (prepare r host).run with
  | .ok (manifest, script, descriptor) =>
    ofExcept
      (compilePrepared verbose r.json host.reportDepth host.prober manifest script descriptor)
  | .error f =>
    if f.isValue then return ⟨2, verbose, [.complaint ("Error: " ++ f.message ++ "\n")]⟩
    else throw f

/-- The session of checking a parsed script. -/
def checkSession (verbose : Bool) (script : Script Command) : Session :=
  let snippets := script.snippets.map fun s => Event.output ("  ok  " ++ s ++ "\n")
  let summary := toString script.commands.length ++ " directive(s), " ++
    toString script.errors.length ++ " error(s)\n"
  ⟨statusOf script.errors, verbose,
    script.log.map .log ++ snippets ++ printDiagnostics script.diagnostics ++ [.output summary]⟩

/-- **The command `check`.** -/
def runCheck (verbose : Bool) (source : ScriptSource) (host : Host m) :
    ExceptT Fault m Session := do
  let text ← source.text host
  ofExcept ((parse .bare text).map (checkSession verbose))

/-- **The command `probe`.** -/
def runProbe (verbose : Bool) (video : String) (host : Host m) : ExceptT Fault m Session :=
  ofExcept <| (probeFile host.reportDepth host.prober (.ofText video)).map fun
    | (events, none) => ⟨2, verbose, events⟩
    | (events, some d) => ⟨0, verbose, events ++ [.output (d.toJson.indented ++ "\n")]⟩

/-- **The command `serve`.** -/
def serveSession (verbose : Bool) (host : String) (port : Int) : Session :=
  ⟨0, verbose,
    [.log ⟨.debug, "naturalff.web", "Probe uploads go to work"⟩,
      .output ("naturalff API: http://" ++ host ++ ":" ++ toString port ++ "\n"),
      .serve host port]⟩

/-- **Running a command line.** -/
def run (words : List String) (host : Host m) : ExceptT Fault m Session :=
  match read words with
  | .help text => pure ⟨0, false, [.output text]⟩
  | .refused text => pure ⟨2, false, [.complaint text]⟩
  | .asked verbose none => pure ⟨0, verbose, [.output programGrammar.help]⟩
  | .asked verbose (some (.compile r)) => runCompile verbose r host
  | .asked verbose (some (.check source)) => runCheck verbose source host
  | .asked verbose (some (.probe video)) => runProbe verbose video host
  | .asked verbose (some (.serve port name)) => pure (serveSession verbose name port)

end ClipScript.CommandLine
