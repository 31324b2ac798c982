/-
# The command line and the service compile alike

A script can be compiled on the command line, which prints the result as JSON, and by the
service, which answers with it. What both can be asked for is a *job*. The two make media
facts and settings of it in different ways: the command line passes over empty texts, and
makes no media facts at all when neither a resolution nor a length is given, while the
service always has a file name among them. None of this matters for compiling
(`facts_agree`), so they agree (`agrees_of_posts`): both refuse a job, or both show the same
result.

A service has a limit for its requests and the command line has none. Beyond the limit they
do not agree (`not_agrees_of_exceeds`).
-/
import ClipScript.CommandLine.Run
import ClipScript.Proofs.Compilation.Dependence
import ClipScript.Proofs.Json.RoundTrip
import ClipScript.Proofs.Web.Compiling

set_option autoImplicit false

namespace ClipScript

open CommandLine Web

/-! ## Jobs -/

/-- **A job:** a script to compile, with what can be said about it beside. -/
structure Job where
  script : String
  input : Option String
  output : Option String
  resolution : Option String
  duration : Option Double
  overwrite : Bool

namespace Job

/-- **A job on the command line,** with the result as JSON. -/
def request (job : Job) : CompileRequest where
  source := ⟨some job.script, none⟩
  manifest := none
  input := job.input
  output := job.output
  resolution := job.resolution
  duration := job.duration
  probe := false
  overwrite := job.overwrite
  json := true

/-- **The media facts of a job** as they are posted; a length is any number that is read as the
length of the job. -/
structure Describes (job : Job) (facts : List (String × Json)) : Prop where
  filename : Json.lookup "filename" facts = some (.ofText? job.input)
  resolution : Json.lookup "resolution" facts = some (.ofText? job.resolution)
  duration : ∃ j, Json.lookup "duration" facts = some j ∧
    Descriptor.optional Descriptor.doubleOfJson j = .ok job.duration
  others : ∀ name, name ∉ ["filename", "resolution", "duration"] → Json.lookup name facts = none

/-- **The members of a job** as they are posted; null stands for what is not given. -/
structure Has (job : Job) (members : List (String × Json)) : Prop where
  script : Json.lookup "script" members = some (.text job.script)
  input : Json.lookup "input" members = some (.ofText? job.input)
  output : Json.lookup "output" members = some (.ofText? job.output)
  overwrite : Json.lookup "overwrite" members = some (.bool job.overwrite)
  descriptor : ∃ facts, Json.lookup "descriptor" members = some (.object facts) ∧
    job.Describes facts

/-- **A request that posts a job** to be compiled, in JSON that can be read to some depth. -/
structure Posts (job : Job) (r : Web.Request) (depth : Nat) : Prop where
  route : Route.ofPath? (pathOf r.target.toList) = some .compile
  verb : r.verb = "POST"
  json : r.header.isJson = true
  body : ∃ members, r.json? depth = some (.ok (.object members)) ∧ job.Has members

/-- The manifest that the command line makes of a job. -/
def manifest (job : Job) : Manifest := job.request.override { script := .text job.script }

/-- The settings that the service makes of a job. -/
def settings (job : Job) : Settings :=
  { input := .ofText? job.input, output := .ofText? job.output, overwrite := job.overwrite }

/-- **A job that only its crops can stop:** once its media facts are read, compiling fails for
nothing else. -/
def FailsForCrops (job : Job) : Prop :=
  ∀ d, job.manifest.descriptor = .ok d →
    FailsOnly (fun f => f.isCropBounds = true) (compile job.script d job.manifest.settings)

end Job

/-! ## Agreement -/

/-- What a result on the command line and one in an answer have in common. -/
def sharedNames : List String := ["args", "command", "errors", "warnings", "parsed"]

/-- **The same result:** printed as JSON and answered with status 200, with the same members, and
an exit status of one if there are errors. -/
structure ShowSame (session : Session) (answer : Response)
    (printed answered : List (String × Json)) : Prop where
  stdout : Json.read session.stdout = .ok (.object printed)
  status : answer.status = 200
  json : answer.json = some (.object answered)
  same : ∀ name ∈ sharedNames, ∃ value,
    Json.lookup name printed = some value ∧ Json.lookup name answered = some value
  exit : ∃ errors, Json.lookup "errors" printed = some (.array errors) ∧
    session.status = if errors.isEmpty then 0 else 1

/-- A request that was refused: it is bad, or its crops leave nothing. -/
def Refused (answer : Response) : Prop := answer.status = 400 ∨ answer.status = 422

/-- **Agreement:** both refuse, and nothing is printed, or both show the same result. -/
structure Agrees (session : Session) (answer : Response) : Prop where
  refused : session.status = 2 ∧ session.stdout = "" ↔ Refused answer
  served : ¬ Refused answer → ∃ printed answered, ShowSame session answer printed answered

/-! ## Texts that are given -/

/-- **A text that may be missing** counts as none when it is empty. -/
theorem given?_cases (text : Option String) :
    given? text = none ∧ (Json.ofText? text).isGiven = false ∨
      ∃ s, text = some s ∧ given? text = some s ∧ s.isEmpty = false := by
  rcases text with _ | s
  · exact .inl ⟨rfl, rfl⟩
  · rcases hs : s.isEmpty
    · exact .inr ⟨s, rfl, by rw [given?, Option.filter_some]; simp [hs], hs⟩
    · exact .inl ⟨by rw [given?, Option.filter_some]; simp [hs], by simp [Json.ofText?, hs]⟩

theorem given?_given? (text : Option String) : given? (given? text) = given? text := by
  rcases given?_cases text with ⟨hnone, -⟩ | ⟨s, rfl, hsome, -⟩
  · rw [hnone]
    rfl
  · rw [hsome, hsome]

theorem getD_map_text (text : Option String) :
    (text.map Json.text).getD .null = .ofText? text := by
  rcases text with _ | s <;> rfl

/-- What is given of a text is the same after an empty one is passed over. -/
theorem find?_given? (text : Option String) (others : List Json) :
    (Json.ofText? (given? text) :: others).find? Json.isGiven =
      (Json.ofText? text :: others).find? Json.isGiven := by
  rcases given?_cases text with ⟨hnone, hgiven⟩ | ⟨s, rfl, hsome, -⟩
  · have hnull : (Json.ofText? none).isGiven = false := rfl
    rw [hnone, List.find?_cons, List.find?_cons, hgiven, hnull]
  · rw [hsome]

/-! ## Media facts -/

variable {job : Job} {facts members : List (String × Json)} {d : Option Descriptor} {f : Fault}

/-- What is known of a file by its name and length. -/
def Descriptor.ofName (filename : Json) (duration : Option Double) : Descriptor :=
  { filename, duration }

/-- The media facts with a resolution, if it is given. -/
def Descriptor.sized (filename : Json) (resolution : Option String) (duration : Option Double) :
    Except Fault Descriptor :=
  match given? resolution with
  | some s => (Descriptor.ofName filename duration).withResolution s
  | none => .ok (Descriptor.ofName filename duration)

/-- **Reading media facts** of a name, a resolution and a length. -/
theorem ofJson_eq_sized {resolution : Option String} {duration : Option Double}
    (hresolution : Json.get facts "resolution" = .ofText? resolution)
    (hduration : Descriptor.optional Descriptor.doubleOfJson (Json.get facts "duration") =
      .ok duration)
    (hcodecs : (Json.get facts "codecs").isGiven = false)
    (hothers : ∀ name ∈ ["fps", "codec_video", "codec_audio", "width", "height"],
      Json.get facts name = .null) :
    Descriptor.ofJson (.object facts) =
      Descriptor.sized (Json.get facts "filename") resolution duration := by
  have hcodecs' : Descriptor.codecsOf facts = .ok [] := by
    rw [Descriptor.codecsOf]
    simp [hcodecs]
  simp only [List.forall_mem_cons] at hothers
  obtain ⟨hfps, hvideo, haudio, hwidth, hheight, -⟩ := hothers
  rw [Descriptor.ofJson, hcodecs', hduration, hfps, hvideo, haudio, hwidth, hheight, hresolution,
    Descriptor.sized]
  rcases given?_cases resolution with ⟨hnone, hgiven⟩ | ⟨s, rfl, hsome, hs⟩
  · rw [hnone]
    simp only [hgiven]
    rfl
  · rw [hsome]
    simp only [Json.ofText?, Json.isGiven_text, hs]
    rfl

/-- The media facts that the service makes of a job. -/
theorem Job.Describes.ofJson_eq (h : job.Describes facts) :
    Descriptor.ofJson (.object facts) =
      Descriptor.sized (.ofText? job.input) job.resolution job.duration := by
  obtain ⟨j, hlookup, hread⟩ := h.duration
  have hmissing : ∀ name, name ∉ ["filename", "resolution", "duration"] →
      Json.get facts name = .null := fun name hname => by rw [Json.get, h.others name hname]; rfl
  have hfilename : Json.get facts "filename" = .ofText? job.input := by
    rw [Json.get, h.filename]
    rfl
  rw [← hfilename]
  refine ofJson_eq_sized ?_ ?_ ?_ fun name hname => hmissing name ?_
  · rw [Json.get, h.resolution]
    rfl
  · rw [Json.get, hlookup]
    exact hread
  · rw [hmissing "codecs" (by decide)]
    rfl
  · revert name
    decide

theorem optional_ofDouble? (duration : Option Double) :
    Descriptor.optional Descriptor.doubleOfJson (.ofDouble? duration) = .ok duration := by
  rcases duration with _ | x <;> rfl

theorem getD_map_real (duration : Option Double) :
    (duration.map Json.real).getD .null = .ofDouble? duration := by
  rcases duration with _ | x <;> rfl

theorem Job.input_manifest (job : Job) : job.manifest.input = .ofText? (given? job.input) :=
  getD_map_text _

theorem Job.output_manifest (job : Job) : job.manifest.output = .ofText? (given? job.output) :=
  getD_map_text _

/-- What the command line knows by hand of the file of a job. -/
theorem Job.media_manifest (job : Job) :
    job.manifest.media =
      if (given? job.resolution).isSome || job.duration.isSome then
        { resolution := .ofText? (given? job.resolution), duration := .ofDouble? job.duration }
      else {} := by
  rw [← getD_map_text, ← getD_map_real]
  rfl

/-- **The media facts that the command line makes of a job:** none if nothing is to be said but a
file name. -/
theorem Job.descriptor_manifest (job : Job) :
    job.manifest.descriptor =
      if (given? job.resolution).isSome || job.duration.isSome then
        (Descriptor.sized (.ofText? (given? job.input)) job.resolution job.duration).map some
      else .ok none := by
  rw [Manifest.descriptor, job.input_manifest, job.media_manifest]
  split
  · next hgiven =>
    have hfacts : ((Json.ofText? (given? job.resolution)).isNull &&
        (Json.ofDouble? job.duration).isNull) = false := by
      rcases hresolution : given? job.resolution with _ | s
      · rcases hduration : job.duration with _ | x
        · simp [hresolution, hduration] at hgiven
        · rfl
      · rfl
    rw [MediaFacts.descriptor]
    simp only [hfacts, Bool.false_and, Bool.false_eq_true, if_false]
    have hread : Descriptor.ofJson (.object [("filename", .ofText? (given? job.input)),
        ("resolution", .ofText? (given? job.resolution)), ("duration", .ofDouble? job.duration),
        ("codecs", .object [])]) =
          Descriptor.sized (.ofText? (given? job.input)) (given? job.resolution) job.duration :=
      ofJson_eq_sized rfl (optional_ofDouble? _) rfl (by simp [Json.get, Json.lookup])
    rw [hread, Descriptor.sized, given?_given?, ← Descriptor.sized]
  · rfl

/-- Media facts that differ in nothing but the file name have the same frame and length. -/
theorem sized_agree (filename filename' : Json) (resolution : Option String)
    (duration : Option Double) :
    Agree (fun d d' => d.filename = filename ∧ d'.filename = filename' ∧
        d.frame? = d'.frame? ∧ d.duration = d'.duration)
      (Descriptor.sized filename resolution duration)
      (Descriptor.sized filename' resolution duration) := by
  rw [Descriptor.sized, Descriptor.sized]
  rcases given? resolution with _ | s
  · exact .ok ⟨rfl, rfl, rfl, rfl⟩
  · refine Agree.bind (Agree.refl fun _ _ => rfl) ?_
    rintro ⟨width, height⟩ _ _ _ rfl
    dsimp only
    split
    · exact .fails _
    · exact .ok ⟨rfl, rfl, rfl, rfl⟩

theorem sized_failsOnly (filename : Json) (resolution : Option String)
    (duration : Option Double) :
    FailsOnly (fun f => f.isValue = true) (Descriptor.sized filename resolution duration) := by
  rw [Descriptor.sized]
  split
  · exact Descriptor.withResolution_failsOnly _ _
  · exact .ok

/-- **The same for compiling** with the settings that are made of a job: the file name among the
media facts is the name of the file to read, or there is none. -/
theorem Job.compilesAlike (job : Job) {d d' : Option Descriptor}
    (hframe : d.bind Descriptor.frame? = d'.bind Descriptor.frame?)
    (hlength : d.bind Descriptor.duration = d'.bind Descriptor.duration)
    (hname : Descriptor.name d = .null ∨ Descriptor.name d = .ofText? (given? job.input))
    (hname' : Descriptor.name d' = .ofText? job.input) :
    CompilesAlike d d' job.manifest.settings job.settings := by
  have hinput : job.manifest.settings.input = .ofText? (given? job.input) := job.input_manifest
  have houtput : job.manifest.settings.output = .ofText? (given? job.output) := job.output_manifest
  refine ⟨hframe, hlength, ?_, ?_, Bool.false_or _⟩
  · rw [hinput, hname', show job.settings.input = .ofText? job.input from rfl, find?_given?]
    rcases given?_cases job.input with ⟨hnone, hgiven⟩ | ⟨s, hs, hsome, hnonempty⟩
    · -- without a name nothing is found
      have hnull : Descriptor.name d = .null := by
        rw [hnone] at hname
        exact hname.elim id id
      have hmissing : Json.null.isGiven = false := rfl
      simp [hnull, hgiven, hmissing]
    · rw [hs, List.find?_cons_of_pos, List.find?_cons_of_pos]
      all_goals simp [Json.ofText?, hnonempty]
  · rw [houtput]
    exact find?_given? job.output []

/-- **The media facts of a job** that the command line makes and those that the service makes are
the same for compiling, with the settings of each. -/
theorem facts_agree (h : job.Describes facts) :
    Agree (fun d d' => CompilesAlike d d' job.manifest.settings job.settings)
      job.manifest.descriptor ((Descriptor.ofJson (.object facts)).map some) := by
  rw [job.descriptor_manifest, h.ofJson_eq]
  split
  · refine (sized_agree _ _ _ _).map ?_
    rintro d d' ⟨hname, hname', hframe, hlength⟩
    exact job.compilesAlike hframe hlength (.inr hname) hname'
  · next hnothing =>
    rw [Bool.or_eq_true, not_or, Option.not_isSome_iff_eq_none, Option.not_isSome_iff_eq_none]
      at hnothing
    rw [Descriptor.sized, hnothing.1, hnothing.2]
    exact .ok (job.compilesAlike rfl rfl (.inl rfl) rfl)

/-! ## The command line -/

variable {m : Type → Type} [Monad m] {verbose : Bool} {host : Host m}

@[simp] theorem run_ofExcept {α : Type} (e : Except Fault α) :
    (CommandLine.ofExcept e : ExceptT Fault m α).run = pure e := rfl

variable [LawfulMonad m]

/-- Nothing has to be read from the host. -/
theorem prepare_request (job : Job) (host : Host m) :
    (prepare job.request host).run =
      pure (job.manifest.descriptor.map fun d => (job.manifest, .text job.script, d)) := by
  have hmanifest : job.request.toManifest host = pure job.manifest := by
    rw [CompileRequest.toManifest]
    simp [Job.request, ScriptSource.text, Job.manifest]
  have hscript : job.manifest.readScript host = pure (.text job.script) := rfl
  rw [prepare, hmanifest, pure_bind, hscript, pure_bind]
  simp

/-- **A job whose media facts cannot be read** is refused on the command line. -/
theorem runCompile_of_error (hfault : job.manifest.descriptor = .error f)
    (hvalue : f.isValue = true) :
    runCompile verbose job.request host =
      pure ⟨2, verbose, [.complaint ("Error: " ++ f.message ++ "\n")]⟩ := by
  rw [runCompile, prepare_request, hfault]
  simp [hvalue, Except.map]

/-- **A job whose media facts are read** is compiled. -/
theorem runCompile_of_ok (hd : job.manifest.descriptor = .ok d) :
    runCompile verbose job.request host =
      CommandLine.ofExcept
        (compileScript verbose true [] (.text job.script) d job.manifest.settings) := by
  have hprepared : compilePrepared verbose job.request.json host.reportDepth host.prober
      job.manifest (.text job.script) d =
        compileScript verbose true [] (.text job.script) d job.manifest.settings := rfl
  rw [runCompile, prepare_request, hd, ← hprepared]
  simp [Except.map]

/-- Log entries are not on standard output. -/
theorem stdout_log (status : Nat) (verbose : Bool) (entries : List Log.Entry)
    (events : List Event) :
    (Session.mk status verbose (entries.map .log ++ events)).stdout =
      (Session.mk status verbose events).stdout := by
  rw [Session.stdout, Session.stdout, List.filterMap_append, List.filterMap_map]
  simp

/-- **A job that is compiled** is refused for its crops, with nothing printed, or its result is
printed. -/
theorem compileScript_text {script : String} {settings : Settings}
    (hcrops : FailsOnly (fun f => f.isCropBounds = true) (compile script d settings)) :
    ∃ session, compileScript verbose true [] (.text script) d settings = .ok session ∧
      ((∃ f, compile script d settings = .error f ∧ session.status = 2 ∧ session.stdout = "") ∨
        ∃ c, compile script d settings = .ok c ∧ session.status = statusOf c.errors ∧
          session.stdout = (compilationJson c).indented ++ "\n") := by
  rw [compileScript]
  rcases hresult : (compileLogged script d settings).result with f | c
  · have hcrop := hcrops f hresult
    simp only [hcrop, if_true, List.nil_append]
    exact ⟨_, rfl, .inl ⟨f, hresult, rfl, stdout_log ..⟩⟩
  · simp only [List.nil_append]
    refine ⟨_, rfl, .inr ⟨c, hresult, rfl, (stdout_log ..).trans ?_⟩⟩
    simp [printCompilation, Session.stdout, String.join]

/-! ## The service -/

theorem settingsOf_of_has (h : job.Has members) : settingsOf members = job.settings := by
  simp only [settingsOf, Json.get, h.input, h.output, h.overwrite]
  rfl

theorem isName_ofText? (text : Option String) : (Json.ofText? text).isName = true := by
  rcases text with _ | s <;> rfl

theorem names_of_has (h : job.Has members) : notText? members ["input", "output"] = none := by
  rw [notText?_eq_none]
  simp only [List.forall_mem_cons, Json.get, h.input, h.output]
  exact ⟨isName_ofText? _, isName_ofText? _, by simp⟩

/-- The media facts of a job are given, if only as a file name. -/
theorem bodyDescriptor_of_has (h : job.Has members) :
    ∃ facts, job.Describes facts ∧
      bodyDescriptor members = (Descriptor.ofJson (.object facts)).map some := by
  obtain ⟨facts, hlookup, hfacts⟩ := h.descriptor
  have hget : Json.get members "descriptor" = .object facts := by
    rw [Json.get, hlookup]
    rfl
  have hgiven : (Json.object facts).isGiven = true := by
    rcases facts with _ | _
    · cases hfacts.filename
    · rfl
  refine ⟨facts, hfacts, ?_⟩
  rw [bodyDescriptor, hget]
  simp [hgiven]

/-! ## Results -/

theorem legible_textsJson (depth : Nat) (texts : List String) :
    Json.Legible (depth + 1) (textsJson texts) := by
  refine .array fun item hitem => ?_
  obtain ⟨s, -, rfl⟩ := List.mem_map.1 hitem
  exact .text s

theorem legible_compilationJson (depth : Nat) (c : Compilation) :
    Json.Legible (depth + 2) (compilationJson c) := by
  refine .object (by simp) ?_
  simp only [List.forall_mem_cons]
  exact ⟨legible_textsJson depth _, .text _, legible_textsJson depth _, legible_textsJson depth _,
    legible_textsJson depth _, by simp⟩

/-- The answer with a compiled script. -/
def servedAnswer (c : Compilation) : Response :=
  serve [("args", Web.texts c.args), ("command", .text c.command), ("errors", Web.texts c.errors),
    ("warnings", Web.texts c.warnings), ("parsed", Web.texts c.snippets),
    ("diagnostics", diagnosticsJson c.diagnostics)]

/-- **A compiled script is shown the same** by both. -/
theorem showSame_of_compiled (c : Compilation) {session : Session}
    (hstatus : session.status = statusOf c.errors)
    (hstdout : session.stdout = (compilationJson c).indented ++ "\n") :
    ∃ printed answered, ShowSame session (servedAnswer c) printed answered := by
  have hread : Json.read ((compilationJson c).indented ++ "\n") = .ok (compilationJson c) :=
    Json.read_indented (legible_compilationJson 988 c)
  rw [← hstdout] at hread
  refine ⟨_, _, hread, rfl, rfl, ?_, c.errors.map .text, rfl, ?_⟩
  · intro name hname
    simp only [sharedNames, List.mem_cons, List.not_mem_nil, or_false] at hname
    rcases hname with rfl | rfl | rfl | rfl | rfl <;> exact ⟨_, rfl, rfl⟩
  · rw [hstatus, statusOf, List.isEmpty_map]

theorem agrees_of_refused {session : Session} {answer : Response} (hstatus : session.status = 2)
    (hstdout : session.stdout = "") (hrefused : Refused answer) : Agrees session answer :=
  ⟨⟨fun _ => hrefused, fun _ => ⟨hstatus, hstdout⟩⟩, fun h => absurd hrefused h⟩

theorem agrees_of_served {session : Session} {c : Compilation}
    (hstatus : session.status = statusOf c.errors)
    (hstdout : session.stdout = (compilationJson c).indented ++ "\n") :
    Agrees session (servedAnswer c) := by
  refine ⟨⟨?_, ?_⟩, fun _ => showSame_of_compiled c hstatus hstdout⟩
  · rintro ⟨htwo, -⟩
    rw [hstatus, statusOf] at htwo
    split at htwo <;> cases htwo
  · rintro (h | h) <;> cases h

/-! ## Both together -/

variable {s : Service} {r : Web.Request} {depth : Nat}

/-- A posted job is a request with its script. -/
theorem Job.Posts.asks (hposts : job.Posts r depth) :
    ∃ members, r.Asks depth job.script members ∧ job.Has members := by
  obtain ⟨members, hobject, hhas⟩ := hposts.body
  have hscript : Json.get members "script" = .text job.script := by
    rw [Json.get, hhas.script]
    rfl
  exact ⟨members, ⟨hposts.json, hobject, hscript⟩, hhas⟩

/-- **Media facts that cannot be read** are refused by both, since what can be wrong with them is a
value. -/
theorem agrees_of_unread (hcommand : job.manifest.descriptor = .error f)
    (hservice : bodyDescriptor members = .error f) (hvalue : f.isValue = true) :
    ∃ session, runCompile verbose job.request host = pure session ∧
      Agrees session (compileAnswer job.script members) := by
  refine ⟨_, runCompile_of_error hcommand hvalue, agrees_of_refused rfl rfl ?_⟩
  rw [compileAnswer, hservice]
  simp [hvalue, Refused, refuse]

/-- **Media facts that are read,** and are the same for compiling: then it comes to the same. -/
theorem agrees_of_read {d' : Option Descriptor} (hcommand : job.manifest.descriptor = .ok d)
    (hcompiles : r.Compiles depth job.script members d')
    (halike : CompilesAlike d d' job.manifest.settings (settingsOf members))
    (hcrops : job.FailsForCrops) :
    ∃ session, runCompile verbose job.request host = pure session ∧
      Agrees session (compileAnswer job.script members) := by
  have hsame : compile job.script d job.manifest.settings =
      compile job.script d' (settingsOf members) :=
    congrArg Compiled.result (compileLogged_congr halike job.script)
  obtain ⟨session, hsession, hcase⟩ := compileScript_text (hcrops d hcommand)
  refine ⟨session, ?_, ?_⟩
  · rw [runCompile_of_ok hcommand, hsession]
    rfl
  · rw [compileAnswer_of_compiles hcompiles, ← hsame]
    rcases hcase with ⟨f, hf, hstatus, hstdout⟩ | ⟨c, hc, hstatus, hstdout⟩
    · rw [hf]
      simp only [hcrops d hcommand f hf, if_true]
      exact agrees_of_refused hstatus hstdout (.inr rfl)
    · rw [hc]
      exact agrees_of_served hstatus hstdout

/-- **The command line and the service compile alike,** for a job that only its crops can stop and
a request within the limit of the service. -/
theorem agrees_of_posts (hposts : job.Posts r depth) (hsize : s.exceeds r = false)
    (hcrops : job.FailsForCrops) :
    ∃ session, runCompile verbose job.request host = pure session ∧
      Agrees session (s.answer r depth) := by
  obtain ⟨members, hasks, hhas⟩ := hposts.asks
  rw [answer_compile hposts.route hposts.verb, withScript_of_asks hsize hasks]
  obtain ⟨facts, hfacts, hbody⟩ := bodyDescriptor_of_has hhas
  have hvalues : FailsOnly (fun f => f.isValue = true) (bodyDescriptor members) := by
    rw [hbody, hfacts.ofJson_eq]
    exact (sized_failsOnly _ _ _).map
  have hagree := facts_agree hfacts
  rw [← hbody, ← settingsOf_of_has hhas] at hagree
  generalize hcommand : job.manifest.descriptor = command at hagree
  generalize hservice : bodyDescriptor members = service at hagree
  cases hagree with
  | fails f => exact agrees_of_unread hcommand hservice (hvalues f hservice)
  | ok halike =>
    exact agrees_of_read hcommand ⟨hasks, hservice, names_of_has hhas⟩ halike hcrops

/-! ## Jobs for the two -/

/-- A job that is compiled may be stopped by its crops, but was not. -/
theorem Job.failsForCrops_of_isSome (job : Job)
    (h : (job.manifest.descriptor.bind fun d =>
      compile job.script d job.manifest.settings).toOption.isSome = true) :
    job.FailsForCrops := by
  intro d hd f hf
  rw [hd, Except.bind, hf] at h
  cases h

/-- A job with everything that can be said. -/
def fullJob : Job where
  script := "crop 100px from left"
  input := some "clip.mp4"
  output := some "cut.mp4"
  resolution := some "1920x1080"
  duration := some (.finite 10)
  overwrite := true

/-- The media facts of that job. -/
def fullFacts : List (String × Json) :=
  [("filename", .text "clip.mp4"), ("resolution", .text "1920x1080"), ("duration", .whole 10)]

/-- The members of that job. -/
def fullMembers : List (String × Json) :=
  [("script", .text "crop 100px from left"), ("input", .text "clip.mp4"),
    ("output", .text "cut.mp4"), ("overwrite", .bool true), ("descriptor", .object fullFacts)]

/-- That job as JSON. -/
def fullBody : String :=
  "\x7b\"script\":\"crop 100px from left\",\"input\":\"clip.mp4\",\"output\":\"cut.mp4\"," ++
    "\"overwrite\":true,\"descriptor\":\x7b\"filename\":\"clip.mp4\"," ++
    "\"resolution\":\"1920x1080\",\"duration\":10\x7d\x7d"

theorem describes_fullFacts : fullJob.Describes fullFacts := by
  refine ⟨rfl, rfl, ⟨.whole 10, rfl, by decide +kernel⟩, fun name hname => ?_⟩
  simp only [List.mem_cons, List.not_mem_nil, or_false, not_or] at hname
  simp [Json.lookup, fullFacts, Ne.symm hname.1, Ne.symm hname.2.1, Ne.symm hname.2.2]

theorem agrees_fullJob :
    fullJob.Posts (compileRequest fullBody) Json.nestingLimit ∧
      localService.exceeds (compileRequest fullBody) = false ∧ fullJob.FailsForCrops ∧
      ∃ session, runCompile false fullJob.request (Folder.host ⟨[]⟩ [] none) = pure session ∧
        Agrees session (localService.answer (compileRequest fullBody)) := by
  have hread : Json.read fullBody = .ok (.object fullMembers) := by cbv
  have hposts : fullJob.Posts (compileRequest fullBody) Json.nestingLimit :=
    ⟨route_compileRequest fullBody, rfl, by decide +kernel, fullMembers,
      json?_compileRequest (by decide +kernel) hread, rfl, rfl, rfl, rfl, fullFacts, rfl,
      describes_fullFacts⟩
  have hsize : localService.exceeds (compileRequest fullBody) = false := by decide +kernel
  have hcrops : fullJob.FailsForCrops := fullJob.failsForCrops_of_isSome (by decide +kernel)
  exact ⟨hposts, hsize, hcrops, agrees_of_posts hposts hsize hcrops⟩

/-! ## Beyond the limit -/

/-- **A request that is too large** is answered as one, whatever the job. -/
theorem answer_of_exceeds (hposts : job.Posts r depth) (hsize : s.exceeds r = true) :
    s.answer r depth = s.tooLarge := by
  rw [answer_compile hposts.route hposts.verb, Service.withScript]
  simp [hposts.json, hsize]

/-- **Beyond the limit** the command line has nothing to agree with. -/
theorem not_agrees_of_exceeds (hposts : job.Posts r depth) (hsize : s.exceeds r = true)
    (session : Session) : ¬ Agrees session (s.answer r depth) := by
  intro h
  have hstatus : (s.answer r depth).status = 413 := by
    rw [answer_of_exceeds hposts hsize]
    rfl
  obtain ⟨_, _, hshow⟩ := h.served (by simp [Refused, hstatus])
  cases hstatus.symm.trans hshow.status

/-- A job with nothing but a script. -/
def plainJob : Job := ⟨"compress video", none, none, none, none, false⟩

/-- The media facts of that job. -/
def plainFacts : List (String × Json) :=
  [("filename", .null), ("resolution", .null), ("duration", .null)]

/-- The members of that job. -/
def plainMembers : List (String × Json) :=
  [("script", .text "compress video"), ("input", .null), ("output", .null),
    ("overwrite", .bool false), ("descriptor", .object plainFacts)]

/-- That job as JSON. -/
def plainBody : String := (Json.object plainMembers).line

/-- A service that takes nothing. -/
def closedService : Service := ⟨none, 0, "work"⟩

theorem describes_plainFacts : plainJob.Describes plainFacts := by
  refine ⟨rfl, rfl, ⟨.null, rfl, rfl⟩, fun name hname => ?_⟩
  simp only [List.mem_cons, List.not_mem_nil, or_false, not_or] at hname
  simp [Json.lookup, plainFacts, Ne.symm hname.1, Ne.symm hname.2.1, Ne.symm hname.2.2]

theorem legible_plainMembers (depth : Nat) : Json.Legible (depth + 2) (.object plainMembers) := by
  have hfacts : Json.Legible (depth + 1) (.object plainFacts) := by
    refine .object (by decide) ?_
    simp only [plainFacts, List.forall_mem_cons]
    exact ⟨.null, .null, .null, by simp⟩
  refine .object (by decide) ?_
  simp only [plainMembers, List.forall_mem_cons]
  exact ⟨.text _, .null, .null, .bool _, hfacts, by simp⟩

/-- **Not every job is compiled alike:** a service may take no request as large as one that the
command line compiles. -/
theorem answer_plainJob :
    (closedService.answer (compileRequest plainBody)).status = 413 ∧
      ¬ ∀ (verbose : Bool) (host : Host Id) (s : Service) (r : Web.Request) (depth : Nat)
        (job : Job), job.Posts r depth → job.FailsForCrops →
          ∃ session, runCompile verbose job.request host = pure session ∧
            Agrees session (s.answer r depth) := by
  have hread : Json.read plainBody = .ok (.object plainMembers) :=
    Json.read_line (legible_plainMembers 988)
  have hposts : plainJob.Posts (compileRequest plainBody) Json.nestingLimit :=
    ⟨route_compileRequest plainBody, rfl, by decide +kernel, plainMembers,
      json?_compileRequest (by decide +kernel) hread, rfl, rfl, rfl, rfl, plainFacts, rfl,
      describes_plainFacts⟩
  have hsize : closedService.exceeds (compileRequest plainBody) = true := by decide +kernel
  have hcrops : plainJob.FailsForCrops := plainJob.failsForCrops_of_isSome (by decide +kernel)
  refine ⟨by rw [answer_of_exceeds hposts hsize]; rfl, fun hall => ?_⟩
  obtain ⟨session, -, hagrees⟩ :=
    hall false (Folder.host ⟨[]⟩ [] none) closedService _ _ plainJob hposts hcrops
  exact not_agrees_of_exceeds hposts hsize session hagrees

end ClipScript
