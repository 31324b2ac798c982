/-
# The command line

The program has four commands. `compile` compiles a script, `check` reports its
errors, `probe` prints the media facts of a file, and `serve` offers compiling over
the web. Here are the grammar and the help of each, and what a command line asks
for once it is read.

A complaint about a command line shows the usage of the command at fault; words
that fit nowhere are reported for the program as a whole.
-/
import ClipScript.CommandLine.Grammar

set_option autoImplicit false

namespace ClipScript.CommandLine

/-! ## Help -/

/-- Lines of text, each with its end. -/
def lines (l : List String) : String := String.join (l.map fun s => s ++ "\n")

/-- The usage of the program. -/
def programUsage : List String := [
  "usage: naturalff [-h] [--verbose] \x7bcompile,check,probe,serve\x7d ..."]

/-- What follows the usage in that help. -/
def programHelp : List String := [
  "naturalff: compile plain-language editing directives into ffmpeg commands.",
  "",
  "positional arguments:",
  "  \x7bcompile,check,probe,serve\x7d",
  "    compile             Compile directives into an ffmpeg command",
  "    check               Parse directives and report errors",
  "    probe               Print the media descriptor of a file",
  "    serve               Launch the web API",
  "",
  "options:",
  "  -h, --help            show this help message and exit",
  "  --verbose, -v         Enable debug logging"]

/-- The usage of `compile`. -/
def compileUsage : List String := [
  "usage: naturalff compile [-h] [--expr EXPR] [--manifest MANIFEST]",
  "                         [--input INPUT] [--output OUTPUT]",
  "                         [--resolution RESOLUTION] [--duration DURATION]",
  "                         [--probe] [--overwrite] [--json]",
  "                         [script]"]

/-- What follows the usage in that help. -/
def compileHelp : List String := [
  "positional arguments:",
  "  script                Directive file ('-' or omitted reads stdin)",
  "",
  "options:",
  "  -h, --help            show this help message and exit",
  "  --expr EXPR, -e EXPR  Directive text given inline",
  "  --manifest MANIFEST, -m MANIFEST",
  "                        Path to a JSON manifest file",
  "  --input INPUT, -i INPUT",
  "                        Source file when the script has no input directive",
  "  --output OUTPUT, -o OUTPUT",
  "                        Output file path",
  "  --resolution RESOLUTION",
  "                        Known source resolution, WxH",
  "  --duration DURATION   Known source duration in seconds",
  "  --probe               Probe the input file with ffprobe",
  "  --overwrite, -y       Add -y to the command",
  "  --json                Print the result as JSON"]

/-- The usage of `check`. -/
def checkUsage : List String := [
  "usage: naturalff check [-h] [--expr EXPR] [script]"]

/-- What follows the usage in that help. -/
def checkHelp : List String := [
  "positional arguments:",
  "  script                Directive file ('-' or omitted reads stdin)",
  "",
  "options:",
  "  -h, --help            show this help message and exit",
  "  --expr EXPR, -e EXPR  Directive text given inline"]

/-- The usage of `probe`. -/
def probeUsage : List String := [
  "usage: naturalff probe [-h] video"]

/-- What follows the usage in that help. -/
def probeHelp : List String := [
  "positional arguments:",
  "  video       Media file to probe",
  "",
  "options:",
  "  -h, --help  show this help message and exit"]

/-- The usage of `serve`. -/
def serveUsage : List String := [
  "usage: naturalff serve [-h] [--port PORT] [--host HOST]"]

/-- What follows the usage in that help. -/
def serveHelp : List String := [
  "options:",
  "  -h, --help   show this help message and exit",
  "  --port PORT  Port to listen on",
  "  --host HOST  Host to bind to"]

/-! ## Grammars -/

/-- The option that asks for help. -/
def helpOption : OptionSpec := ⟨["-h", "--help"], .help⟩

/-- The script given in the command line. -/
def exprOption : OptionSpec := ⟨["--expr", "-e"], .text⟩

/-- A grammar whose help starts with its usage. -/
def grammarOf (program : String) (usage help : List String) (options : List OptionSpec)
    (positional : Option Positional) : Grammar :=
  { program, usage := lines usage, help := lines (usage ++ [""] ++ help)
    options := helpOption :: options, positional }

/-- The names of the commands. -/
def commandNames : List String := ["compile", "check", "probe", "serve"]

/-- The grammar of the program. -/
def programGrammar : Grammar :=
  grammarOf "naturalff" programUsage programHelp [⟨["--verbose", "-v"], .flag⟩]
    (some (.command "command" commandNames))

/-- The grammar of `compile`. -/
def compileGrammar : Grammar :=
  grammarOf "naturalff compile" compileUsage compileHelp
    [exprOption, ⟨["--manifest", "-m"], .text⟩, ⟨["--input", "-i"], .text⟩,
      ⟨["--output", "-o"], .text⟩, ⟨["--resolution"], .text⟩, ⟨["--duration"], .decimal⟩,
      ⟨["--probe"], .flag⟩, ⟨["--overwrite", "-y"], .flag⟩, ⟨["--json"], .flag⟩]
    (some .optional)

/-- The grammar of `check`. -/
def checkGrammar : Grammar :=
  grammarOf "naturalff check" checkUsage checkHelp [exprOption] (some .optional)

/-- The grammar of `probe`. -/
def probeGrammar : Grammar :=
  grammarOf "naturalff probe" probeUsage probeHelp [] (some (.one "video"))

/-- The grammar of `serve`. -/
def serveGrammar : Grammar :=
  grammarOf "naturalff serve" serveUsage serveHelp
    [⟨["--port"], .integer⟩, ⟨["--host"], .text⟩] none

/-- The grammar of a command. -/
def grammar? (command : String) : Option Grammar :=
  [("compile", compileGrammar), ("check", checkGrammar), ("probe", probeGrammar),
    ("serve", serveGrammar)].lookup command

/-! ## Requests -/

/-- Where a script comes from: the command line itself, or a file; neither means standard
input. -/
structure ScriptSource where
  expr : Option String
  file : Option String
deriving DecidableEq, Repr

/-- What `compile` is asked for. -/
structure CompileRequest where
  source : ScriptSource
  manifest : Option String
  input : Option String
  output : Option String
  resolution : Option String
  duration : Option Double
  probe : Bool
  overwrite : Bool
  json : Bool

/-- **What a command line asks for.** -/
inductive Request where
  | compile (request : CompileRequest)
  | check (source : ScriptSource)
  | probe (video : String)
  | serve (port : Int) (host : String)

/-- What reading a command line comes to. -/
inductive Reading where
  /-- A request, with more to be told about it or not; none when no command is named. -/
  | asked (verbose : Bool) (request : Option Request)
  /-- Help was asked for. -/
  | help (text : String)
  /-- The command line is wrong. -/
  | refused (text : String)

/-- The script that was asked for. -/
def scriptSource (t : Taken) : ScriptSource :=
  ⟨t.value? "--expr", t.positional.bind List.head?⟩

/-- The number given to an option. It was read before, so it is there if the option is. -/
def decimalValue? (t : Taken) (name : String) : Option Double :=
  (t.value? name).bind fun s => (Number.readDecimal s).toOption

/-- The whole number given to an option. -/
def integerValue? (t : Taken) (name : String) : Option Int :=
  (t.value? name).bind fun s => (Number.readInt s).toOption

/-- The request for a command. -/
def requestOf (command : String) (t : Taken) : Request :=
  if command = "compile" then
    .compile {
      source := scriptSource t
      manifest := t.value? "--manifest"
      input := t.value? "--input"
      output := t.value? "--output"
      resolution := t.value? "--resolution"
      duration := decimalValue? t "--duration"
      probe := t.has "--probe"
      overwrite := t.has "--overwrite"
      json := t.has "--json" }
  else if command = "check" then .check (scriptSource t)
  else if command = "probe" then .probe ((t.positional.bind List.head?).getD "")
  else .serve ((integerValue? t "--port").getD 8321) ((t.value? "--host").getD "127.0.0.1")

/-- The end of reading with a grammar. -/
def stopped (g : Grammar) : Stop → Reading
  | .help => .help g.help
  | .error message => .refused (g.usage ++ g.program ++ ": error: " ++ message ++ "\n")

/-- A request, unless there are words that fit nowhere. -/
def settled (extras : List String) (verbose : Bool) (request : Option Request) : Reading :=
  if extras.isEmpty then .asked verbose request
  else
    stopped programGrammar
      (.error ("unrecognized arguments: " ++ String.intercalate " " extras))

/-- **Reading a command line.** -/
def read (words : List String) : Reading :=
  match programGrammar.read words with
  | .error s => stopped programGrammar s
  | .ok t =>
    let verbose := t.has "--verbose"
    match t.positional with
    | some (command :: rest) =>
      match grammar? command with
      | none => settled t.extras verbose none
      | some g =>
        match g.read rest with
        | .error s => stopped g s
        | .ok t' => settled (t.extras ++ t'.extras) verbose (some (requestOf command t'))
    | _ => settled t.extras verbose none

end ClipScript.CommandLine
