/-
# Compiling a script

A script becomes the arguments of one call of the encoder:

1. it is parsed; directives that are not understood are reported and left out;
2. only the first `input` directive counts, any other is reported as an error;
3. the file to read and the file to write are chosen;
4. several crops are merged into one;
5. every command is built into an argument, with the length of the output known from
   the last `trim` and the media facts;
6. the arguments are put together.

What goes wrong in a directive is part of the result. A `Fault` is left for what
makes the whole script impossible, such as crops that leave nothing of the frame.
The log of the work is kept in both cases.
-/
import ClipScript.Filter.Building
import ClipScript.Path
import ClipScript.Script
import ClipScript.Text.ShellWord

set_option autoImplicit false

namespace ClipScript

/-! ## Settings and results -/

/-- What does not come from the script: the files to read and write, as given, and whether
an existing file is replaced. -/
structure Settings where
  input : Json := .null
  output : Json := .null
  overwrite : Bool := false
deriving Inhabited

/-- **A compiled script.** -/
structure Compilation where
  args : List String
  command : String
  errors : List String
  snippets : List String
  warnings : List String
  commands : List Command
  diagnostics : List Diagnostic

/-! ## The one input -/

/-- What is left of a script when every `input` after the first is taken out, and the texts
of those. -/
def keepFirstInput (seen : Bool) :
    List (Command × String) → List (Command × String) × List String
  | [] => ([], [])
  | c :: cs =>
    if c.1.isInput && seen then
      let (kept, extra) := keepFirstInput seen cs
      (kept, c.2 :: extra)
    else
      let (kept, extra) := keepFirstInput (seen || c.1.isInput) cs
      (c :: kept, extra)

/-- The diagnostic of an `input` that does not count. -/
def extraInput (snippet : String) : Diagnostic :=
  { message := "Only one input command is allowed: " ++ snippet, command := "input"
    token := some snippet, line := none, offset := none, detail := none }

/-- A script of which only the first input counts. -/
structure Draft where
  kept : List (Command × String)
  diagnostics : List Diagnostic

namespace Draft

/-- The draft of a parsed script. -/
def ofScript (s : Script Command) : Draft :=
  let (kept, extra) := keepFirstInput false s.understood
  ⟨kept, s.diagnostics ++ extra.map extraInput⟩

/-- The commands that count. -/
def commands (d : Draft) : List Command := d.kept.map Prod.fst

/-- The name of the file that the script reads; empty if it names none. -/
def filename (d : Draft) : String :=
  match d.commands.find? Command.isInput with
  | some (.input _ (some name)) => name
  | _ => ""

end Draft

/-! ## Files -/

/-- The first value that is given. -/
def firstGiven (fallback : Json) (values : List Json) : Json :=
  (values.find? Json.isGiven).getD fallback

/-- **The file to read:** named by the script, the settings or the media facts, in this order. -/
def sourceName (draft : Draft) (settings : Settings) (descriptor : Option Descriptor) : Json :=
  firstGiven (.text "input.mp4")
    [.text draft.filename, settings.input, (descriptor.map Descriptor.filename).getD .null]

/-- The extension of files in a format. -/
def extensionOf (format : String) : String := if format = "mp4a" then "m4a" else format

/-- The name of the file to write when none is given: its extension is that of the last
conversion, or of the file to read, or `mp4`. -/
def defaultOutput (commands : List Command) (source : Json) : Except Fault String :=
  match (commands.filterMap Command.format?).getLast? with
  | some format => .ok ("output." ++ extensionOf format)
  | none =>
    match source with
    | .text s =>
      let extension := String.ofList ((Path.ofText s).suffix.toList.dropWhile (· == '.'))
      .ok ("output." ++ if extension.isEmpty then "mp4" else extension)
    | _ => .error .wrongKind

/-- **The file to write.** -/
def outputName (commands : List Command) (settings : Settings) (source : Json) :
    Except Fault Json :=
  if settings.output.isGiven then .ok settings.output
  else (defaultOutput commands source).map .text

/-! ## The length of the output -/

/-- **The length of the output:** that of the last trim, which the end of the media file may
cut short; without a trim that of the media file. -/
def outputDuration (commands : List Command) (descriptor : Option Descriptor) :
    Except Fault (Option Double) :=
  let source := descriptor.bind Descriptor.duration
  match (commands.filterMap Command.trim?).getLast? with
  | none => .ok source
  | some (startText, stopText) => do
    let start ← secondsOf startText
    let stop ← secondsOf stopText
    let stop := match source with
      | some length => stop.min length
      | none => stop
    return some ((stop.sub start).max (.finite 0))

/-! ## Compiling -/

/-- The log entry of merging crops. -/
def mergeLog (before after : List Command) : List Log.Entry :=
  match crops before, after with
  | _ :: _ :: _, .mergedCrop m detect :: _ =>
    [⟨.debug, "naturalff.filters.optimizer",
      "Merged " ++ toString (crops before).length ++ " crops into OptimizedCrop(left=" ++
        toString m.left ++ ", right=" ++ toString m.right ++ ", top=" ++ toString m.top ++
        ", bottom=" ++ toString m.bottom ++ ", detect_borders=" ++
        (if detect then "True" else "False") ++ ")"⟩]
  | _, _ => []

/-- The log entries of the warnings of a run. -/
def warningLog (run : Filter.Run) : List Log.Entry :=
  run.warnings.map fun w => ⟨.warning, "naturalff.filters.builders", w⟩

/-- The log entry of a compiled script. -/
def finishLog (commands : List Command) (args : List String) : List Log.Entry :=
  [⟨.debug, "naturalff.compiler",
    "Compiled " ++ toString commands.length ++ " directive(s) into " ++ toString args.length ++
      " argument(s)"⟩]

/-- The texts of the two file names; only a text can be a word of a command line. -/
def nameTexts (source output : Json) : Except Fault (String × String) :=
  match source, output with
  | .text s, .text o => .ok (s, o)
  | _, _ => .error .wrongKind

/-- The argument that lets an existing file be replaced. -/
def overwriteArgument (settings : Settings) : List Argument :=
  if settings.overwrite then [.of .globalOption ["-y"]] else []

/-- The run of building a script, after its crops are merged. -/
def buildScript (draft : Draft) (merged : List Command) (descriptor : Option Descriptor) :
    Except Fault Filter.Run := do
  let duration ← outputDuration draft.commands descriptor
  return Filter.run (Filter.steps (.of descriptor duration) 0 merged)

/-- The result of a script whose arguments are built. -/
def Draft.finish (draft : Draft) (settings : Settings) (source output : String)
    (run : Filter.Run) : Except Fault Compilation := do
  let arguments ← run.outcome
  let args ← assemble (overwriteArgument settings ++ arguments) source output
  return {
    args
    command := Text.shellLine ("ffmpeg" :: args)
    errors := draft.diagnostics.map Diagnostic.message
    snippets := draft.kept.map Prod.snd
    warnings := run.warnings
    commands := draft.commands
    diagnostics := draft.diagnostics }

/-- What compiling came to, with the log of it. -/
structure Compiled where
  log : List Log.Entry
  result : Except Fault Compilation

/-- Compiling a draft. -/
def Draft.compile (draft : Draft) (descriptor : Option Descriptor) (settings : Settings) :
    Compiled :=
  let source := sourceName draft settings descriptor
  match outputName draft.commands settings source with
  | .error f => ⟨[], .error f⟩
  | .ok output =>
    match mergeCrops draft.commands descriptor with
    | .error f => ⟨[], .error f⟩
    | .ok merged =>
      let log := mergeLog draft.commands merged
      match buildScript draft merged descriptor with
      | .error f => ⟨log, .error f⟩
      | .ok run =>
        let log := log ++ warningLog run
        match nameTexts source output with
        | .error f => ⟨log, run.outcome.bind fun _ => .error f⟩
        | .ok (source, output) =>
          let result := draft.finish settings source output run
          match result with
          | .error f => ⟨log, .error f⟩
          | .ok c => ⟨log ++ finishLog c.commands c.args, .ok c⟩

/-- **Compiling a script,** with the log of it. -/
def compileLogged (text : String) (descriptor : Option Descriptor) (settings : Settings) :
    Compiled :=
  match parse .bare text with
  | .error f => ⟨[], .error f⟩
  | .ok script =>
    let compiled := (Draft.ofScript script).compile descriptor settings
    { compiled with log := script.log ++ compiled.log }

/-- **Compiling a script.** -/
def compile (text : String) (descriptor : Option Descriptor) (settings : Settings) :
    Except Fault Compilation :=
  (compileLogged text descriptor settings).result

end ClipScript
