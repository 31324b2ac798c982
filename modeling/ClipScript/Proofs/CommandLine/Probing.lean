/-
# What becomes of a file that cannot be probed

`probe` prints the media facts of a file, or says why there are none and exits with status
2. There are three reasons (`NoFacts`): the prober is not installed, its call ended with an
error, or the file has neither a video nor an audio stream. `compile` gives the same reasons
when it is to probe its input.

There are other cases, and nothing reports them (`Unreported`). The prober cannot be called
with a path that holds a null character or is too long. What it prints may not be UTF-8. And
it may end well and answer with something that is not JSON, or with a description that is
garbled. All this is passed on as a fault, by both commands. So probing is reported exactly
when nothing of it happens (`probing_reported_iff`).
-/
import ClipScript.Proofs.CommandLine.Reading
import ClipScript.Proofs.Json.Faults
import ClipScript.Proofs.Media.Describing

set_option autoImplicit false

namespace ClipScript

open CommandLine

/-! ## Calls of the prober -/

/-- **A path that the prober cannot be called with:** it holds a null character or is too long. -/
def Uncallable (path : String) : Prop := '\x00' ∈ path.toList ∨ wordLimit < path.utf8ByteSize

/-- **A garbled answer:** the call ended well, and the answer is not JSON or describes nothing. -/
def Answer.Garbles (depth : Nat) (answer : Answer) : Prop :=
  answer.status = 0 ∧ (Fails (Json.read answer.output depth) ∨
    ∃ j, Json.read answer.output depth = .ok j ∧ Garbled j)

/-- **A file that nothing is reported about:** the prober is installed, but it cannot be called with
the path, or what it printed is not UTF-8, or its answer is garbled. -/
inductive Unreported (depth : Nat) (prober : Prober) (path : String) : Prop where
  | uncallable {run : List String → Report} (installed : prober = some run)
    (uncallable : Uncallable path)
  | unreadable {run : List String → Report} (installed : prober = some run)
    (unreadable : Fails (run (probeWords path)).read)
  | garbled {run : List String → Report} {answer : Answer} (installed : prober = some run)
    (read : (run (probeWords path)).read = .ok answer) (garbles : answer.Garbles depth)

/-- **Why there are no media facts of a file,** in the words of the program. -/
inductive NoFacts (depth : Nat) (prober : Prober) (path : String) : String → Prop where
  | missing (missing : prober = none) : NoFacts depth prober path "ffprobe not found on PATH"
  | failed {run : List String → Report} {answer : Answer} (installed : prober = some run)
    (callable : ¬ Uncallable path) (read : (run (probeWords path)).read = .ok answer)
    (status : answer.status ≠ 0) :
    NoFacts depth prober path
      ("ffprobe failed on " ++ path ++ " (rc=" ++ toString answer.status ++ ")")
  | streamless {run : List String → Report} {answer : Answer} {j : Json}
    (installed : prober = some run) (callable : ¬ Uncallable path)
    (read : (run (probeWords path)).read = .ok answer) (status : answer.status = 0)
    (json : Json.read answer.output depth = .ok j) (streamless : Streamless j) :
    NoFacts depth prober path ("No video or audio stream found in " ++ path)

variable {depth : Nat} {prober : Prober} {call : List String → Report} {answer : Answer}
  {path : String}

/-- The words of a call are fixed but for the path, so it is the path that keeps a call from being
started. -/
theorem checkWords_probeWords :
    Uncallable path ∧ FailsWith Fault.Unexplained (checkWords (probeWords path)) ∨
      ¬ Uncallable path ∧ checkWords (probeWords path) = .ok () := by
  -- the other words have neither a null character nor many bytes
  have hwords : probeWords path = (probeWords "").dropLast ++ [path] := rfl
  have hnull : ((probeWords path).any fun w => w.toList.contains '\x00') =
      path.toList.contains '\x00' := by
    have hfixed : ((probeWords "").dropLast.any fun w => w.toList.contains '\x00') = false := by
      decide
    rw [hwords, List.any_append, hfixed]
    simp
  have hlong : ((probeWords path).any fun w => wordLimit < w.utf8ByteSize) =
      decide (wordLimit < path.utf8ByteSize) := by
    have hfixed : ((probeWords "").dropLast.any fun w => wordLimit < w.utf8ByteSize) = false := by
      decide +kernel
    rw [hwords, List.any_append, hfixed]
    simp
  rw [checkWords, hnull, hlong]
  by_cases hmem : '\x00' ∈ path.toList
  · exact .inl ⟨.inl hmem, .nullInPath, by simp [hmem], by decide⟩
  · by_cases hsize : wordLimit < path.utf8ByteSize
    · exact .inl ⟨.inr hsize, .wordTooLong, by simp [hmem, hsize], by decide⟩
    · exact .inr ⟨by simp [Uncallable, hmem, hsize], by simp [hmem, hsize]⟩

/-- Bytes that are no UTF-8 have a fault of their own. -/
theorem family_of_decodeFrom (halves : Bool) (position : Nat) (pending : Option Text.Pending)
    (bytes : List UInt8) :
    FailsOnly (fun f => f.family = .badUtf8)
      (Text.decodeFrom halves position pending bytes) := by
  induction bytes generalizing position pending with
  | nil =>
    unfold Text.decodeFrom
    split
    · exact .ok
    · exact .error rfl
  | cons byte bytes ih =>
    unfold Text.decodeFrom
    dsimp only
    split
    · split
      · exact (ih _ _).map
      · split
        · exact ih _ _
        · exact .error rfl
    · split
      · split
        · exact (ih _ _).map
        · exact ih _ _
      · exact .error rfl

/-- A report that is not UTF-8 is nothing that probing has words for. -/
theorem unexplained_of_report (report : Report) :
    FailsOnly Fault.Unexplained report.read := by
  have hdecode (bytes : List UInt8) :
      FailsOnly Fault.Unexplained (Text.decodeFile bytes) :=
    ((family_of_decodeFrom false 0 none bytes).map.map).mono fun f hf =>
      .of_family .badUtf8 hf (by decide)
  exact .bind (hdecode _) fun _ _ => .bind (hdecode _) fun _ _ => .ok

/-- JSON that cannot be read is nothing that probing has words for. -/
theorem unexplained_of_read (s : String) (depth : Nat) :
    FailsOnly Fault.Unexplained (Json.read s depth) := by
  refine (Json.family_of_read s depth).mono fun f hf => ?_
  rcases hf with hjson | hvalue | ⟨container, rfl⟩
  · rw [Fault.Unexplained, hjson]
    decide
  · exact Fault.unexplained_of_badValue hvalue
  · exact .of_family .tooDeep rfl (by decide)

/-- **What probing makes of an answer,** if the prober can be called. -/
theorem probe_of_read (callable : ¬ Uncallable path)
    (read : (call (probeWords path)).read = .ok answer) :
    probe depth (some call) path =
      if answer.status ≠ 0 then .error (.proberFailed answer.status answer.complaint)
      else Json.read answer.output depth >>= fun j => Descriptor.ofDescription j (some path) := by
  rcases @checkWords_probeWords path with ⟨huncallable, -⟩ | ⟨-, hwords⟩
  · exact absurd huncallable callable
  · rw [probe, callProber, hwords]
    simp only [bind, Except.bind, read]

theorem Unreported.failsWith (h : Unreported depth prober path) :
    prober ≠ none ∧ FailsWith Fault.Unexplained (probe depth prober path) := by
  rcases @checkWords_probeWords path with ⟨-, hwords⟩ | ⟨hcallable, hwords⟩
  -- a call that is not started fails whatever the prober would have reported
  · obtain ⟨f, hf, hunexplained⟩ := hwords
    have hprobe (call : List String → Report) : probe depth (some call) path = .error f := by
      rw [probe, callProber, hf]
      rfl
    rcases h with ⟨rfl, -⟩ | ⟨rfl, -⟩ | ⟨rfl, -, -⟩
    all_goals exact ⟨nofun, f, hprobe _, hunexplained⟩
  · rcases h with ⟨rfl, huncallable⟩ | ⟨rfl, f, hf⟩ | ⟨rfl, hread, hstatus, hanswer⟩
    · exact absurd huncallable hcallable
    · refine ⟨nofun, f, ?_, unexplained_of_report _ f hf⟩
      rw [probe, callProber, hwords]
      simp only [bind, Except.bind, hf]
    · refine ⟨nofun, ?_⟩
      rw [probe_of_read hcallable hread, if_neg (by simp [hstatus]), failsWith_bind]
      rcases hanswer with ⟨f, hf⟩ | ⟨j, hj, hgarbled⟩
      · exact .inl ⟨f, hf, unexplained_of_read _ _ f hf⟩
      · exact .inr ⟨j, hj, failsWith_ofDescription.2 hgarbled⟩

/-- **A file that something is reported about** has media facts, or there is a reason why not. -/
theorem facts_or_noFacts (h : ¬ Unreported depth prober path) :
    (∃ d, probe depth prober path = .ok d) ∨ ∃ reason, NoFacts depth prober path reason := by
  rcases prober with _ | run
  · exact .inr ⟨_, .missing rfl⟩
  · have hcallable : ¬ Uncallable path := fun huncallable => h (.uncallable rfl huncallable)
    obtain ⟨answer, hread⟩ := not_fails_iff.1 fun hunreadable => h (.unreadable rfl hunreadable)
    by_cases status : answer.status = 0
    · have hanswer := not_or.1 fun hanswer => h (.garbled rfl hread ⟨status, hanswer⟩)
      obtain ⟨j, hj⟩ := not_fails_iff.1 hanswer.1
      have hgarbled : ¬ Garbled j := fun hgarbled => hanswer.2 ⟨j, hj, hgarbled⟩
      by_cases hstreamless : Streamless j
      · exact .inr ⟨_, .streamless rfl hcallable hread status hj hstreamless⟩
      · obtain ⟨d, hd⟩ := exists_of_not_garbled hgarbled hstreamless (some path)
        refine .inl ⟨d, ?_⟩
        rw [probe_of_read hcallable hread, if_neg (by simp [status]), hj]
        exact hd
    · exact .inr ⟨_, .failed rfl hcallable hread status⟩

/-! ## Probing a file -/

variable {p : Path}

/-- The events of calling the prober. -/
def callEvents (p : Path) : Prober → List Event
  | none => []
  | some _ => [.log ⟨.info, "naturalff.ffutil", "Probing " ++ p.text⟩, .probe (probeWords p.text)]

theorem probeFile_of_facts {d : Descriptor} (h : probe depth prober p.text = .ok d) :
    probeFile depth prober p = .ok (callEvents p prober, some d) := by
  rcases prober with _ | run
  · cases h
  · rw [probeFile]
    simp only [h]
    rfl

theorem probeFile_of_unreported (h : Unreported depth prober p.text) :
    Fails (probeFile depth prober p) := by
  obtain ⟨hinstalled, f, hf, hmedia, hcall⟩ := h.failsWith
  obtain ⟨run, rfl⟩ := Option.ne_none_iff_exists'.1 hinstalled
  rw [probeFile]
  simp only [hf]
  split
  · next heq => cases heq
  · next heq =>
    obtain rfl := Except.error.inj heq
    exact absurd rfl hcall
  · next heq =>
    obtain rfl := Except.error.inj heq
    exact absurd rfl hmedia
  · exact fails_error

theorem probeFile_of_noFacts {reason : String} (h : NoFacts depth prober p.text reason) :
    probeFile depth prober p =
      .ok (callEvents p prober ++ [.complaint ("Error: " ++ reason ++ "\n")], none) := by
  cases h with
  | missing missing =>
    rw [missing]
    rfl
  | @failed run answer installed callable read status =>
    have hprobe : probe depth (some run) p.text =
        .error (.proberFailed answer.status answer.complaint) := by
      rw [probe_of_read callable read, if_pos status]
    rw [installed, probeFile]
    simp only [hprobe, callEvents, show "Error: ffprobe failed on " = "Error: " ++
      "ffprobe failed on " from rfl, show ")\n" = ")" ++ "\n" from rfl, String.append_assoc]
  | @streamless run answer j installed callable read status json streamless =>
    have hprobe : probe depth (some run) p.text = .error (.noMediaStream p.text) := by
      rw [probe_of_read callable read, if_neg (by simp [status]), json]
      exact streamless.ofDescription_eq _
    rw [installed, probeFile]
    simp only [hprobe, callEvents]
    rfl

/-! ## Commands that probe -/

/-- **A session that was given up** for a reason: it exits with status 2, says the reason and prints
nothing. -/
structure GivesUp (session : Session) (reason : String) : Prop where
  status : session.status = 2
  stdout : session.stdout = ""
  complaints : session.complaints = ["Error: " ++ reason ++ "\n"]

/-- **A session of `probe`** that shows media facts, or is given up for want of them. -/
inductive Shows (depth : Nat) (prober : Prober) (path : String) (session : Session) : Prop where
  | facts {d : Descriptor} (facts : probe depth prober path = .ok d) (status : session.status = 0)
    (stdout : session.stdout = d.toJson.indented ++ "\n")
  | noFacts {reason : String} (noFacts : NoFacts depth prober path reason)
    (givesUp : GivesUp session reason)

/-- **An input that is not probed as it should be:** it is no name of a file, or nothing is reported
about the file. -/
def Mishandled (depth : Nat) (prober : Prober) (input : Json) : Prop :=
  ∀ name, input = .text name → Unreported depth prober (Path.ofText name).text

/-- The session of giving a file up. -/
def givenUp (verbose : Bool) (prober : Prober) (p : Path) (reason : String) : Session :=
  ⟨2, verbose, callEvents p prober ++ [.complaint ("Error: " ++ reason ++ "\n")]⟩

theorem givesUp_givenUp (verbose : Bool) (prober : Prober) (p : Path) (reason : String) :
    GivesUp (givenUp verbose prober p reason) reason := by
  cases prober <;> exact ⟨rfl, rfl, rfl⟩

variable {m : Type → Type} [Monad m] {host : Host m} {verbose : Bool} {video : String}

theorem runProbe_of_unreported
    (h : Unreported host.reportDepth host.prober (Path.ofText video).text) :
    ∃ f, runProbe verbose video host = throw f := by
  obtain ⟨f, hf⟩ := probeFile_of_unreported h
  exact ⟨f, by rw [runProbe, hf]; rfl⟩

/-- **A file that something is reported about** is shown, or given up. -/
theorem exists_runProbe
    (h : ¬ Unreported host.reportDepth host.prober (Path.ofText video).text) :
    ∃ session, runProbe verbose video host = pure session ∧
      Shows host.reportDepth host.prober (Path.ofText video).text session := by
  rcases facts_or_noFacts h with ⟨d, hd⟩ | ⟨reason, hreason⟩
  · refine ⟨⟨0, verbose, callEvents (.ofText video) host.prober ++
      [.output (d.toJson.indented ++ "\n")]⟩, ?_, .facts hd rfl ?_⟩
    · rw [runProbe, probeFile_of_facts hd]
      rfl
    · cases host.prober <;> simp [Session.stdout, callEvents]
  · refine ⟨givenUp verbose host.prober (.ofText video) reason, ?_,
      .noFacts hreason (givesUp_givenUp ..)⟩
    rw [runProbe, probeFile_of_noFacts hreason]
    rfl

variable [LawfulMonad m] {r : CompileRequest} {manifest : Manifest} {script : Json}
  {descriptor : Option Descriptor}

theorem compilePrepared_probe {json : Bool} (hprobe : manifest.probe = true)
    (hinput : manifest.input.isGiven = true) :
    compilePrepared verbose json depth prober manifest script descriptor = (do
      let path ← probePath manifest.input
      match ← probeFile depth prober path with
      | (events, none) => return ⟨2, verbose, events⟩
      | (events, some d) =>
        compileScript verbose json events script (some d) manifest.settings) := by
  rw [compilePrepared]
  refine (if_neg ?_).trans ((if_neg ?_).trans rfl)
  · simp [hprobe]
  · simp [hinput]

theorem compilePrepared_of_mishandled {json : Bool} (hprobe : manifest.probe = true)
    (hinput : manifest.input.isGiven = true) (h : Mishandled depth prober manifest.input) :
    Fails (compilePrepared verbose json depth prober manifest script descriptor) := by
  rw [compilePrepared_probe hprobe hinput]
  rcases hpath : manifest.input with _ | _ | _ | _ | name | _ | _
  case text =>
    obtain ⟨f, hf⟩ := probeFile_of_unreported (h name hpath)
    refine fails_bind.2 (.inr ⟨_, rfl, ?_⟩)
    rw [hf]
    exact fails_error
  all_goals exact fails_error

/-- **An input that is probed as it should be,** without media facts, is given up. -/
theorem exists_compilePrepared {json : Bool} (hprobe : manifest.probe = true)
    (hinput : manifest.input.isGiven = true) (h : ¬ Mishandled depth prober manifest.input)
    (hnone : ∀ name d, manifest.input = .text name →
      probe depth prober (Path.ofText name).text ≠ .ok d) :
    ∃ session reason,
      compilePrepared verbose json depth prober manifest script descriptor = .ok session ∧
      GivesUp session reason ∧
      ∃ name, manifest.input = .text name ∧
        NoFacts depth prober (Path.ofText name).text reason := by
  obtain ⟨name, hname, hreported⟩ : ∃ name, manifest.input = .text name ∧
      ¬ Unreported depth prober (Path.ofText name).text := by
    simpa [Mishandled] using h
  rcases facts_or_noFacts hreported with ⟨d, hd⟩ | ⟨reason, hreason⟩
  · exact absurd hd (hnone name d hname)
  · refine ⟨givenUp verbose prober (.ofText name) reason, reason, ?_, givesUp_givenUp ..,
      name, hname, hreason⟩
    rw [compilePrepared_probe hprobe hinput, hname]
    simp only [probePath, bind, Except.bind]
    rw [probeFile_of_noFacts hreason]
    rfl

/-- **Probing is reported,** unless the prober cannot be called, or what it says cannot be used.
`probe` shows the media facts of a file or gives it up for a reason, and so does `compile` when it
is to probe its input and there are no media facts. Otherwise (or if the input is not even the name
of a file) there is a fault. -/
theorem probing_reported_iff (host : Host m) :
    (∀ (words : List String) (verbose : Bool) (video : String),
      read words = .asked verbose (some (.probe video)) →
        (¬ Unreported host.reportDepth host.prober (Path.ofText video).text →
          ∃ session, run words host = pure session ∧
            Shows host.reportDepth host.prober (Path.ofText video).text session) ∧
        (Unreported host.reportDepth host.prober (Path.ofText video).text →
          ∃ f, run words host = throw f)) ∧
    (∀ (words : List String) (verbose : Bool) (r : CompileRequest) (manifest : Manifest)
      (script : Json) (descriptor : Option Descriptor),
      read words = .asked verbose (some (.compile r)) →
      (prepare r host).run = pure (.ok (manifest, script, descriptor)) →
      manifest.probe = true → manifest.input.isGiven = true →
        (¬ Mishandled host.reportDepth host.prober manifest.input →
          (∀ name d, manifest.input = .text name →
            probe host.reportDepth host.prober (Path.ofText name).text ≠ .ok d) →
          ∃ session reason, run words host = pure session ∧ GivesUp session reason ∧
            ∃ name, manifest.input = .text name ∧
              NoFacts host.reportDepth host.prober (Path.ofText name).text reason) ∧
        (Mishandled host.reportDepth host.prober manifest.input →
          ∃ f, run words host = throw f)) := by
  constructor
  · intro words verbose video hread
    have hrun : run words host = runProbe verbose video host := by
      rw [run, hread]
    rw [hrun]
    exact ⟨exists_runProbe, runProbe_of_unreported⟩
  · intro words verbose r manifest script descriptor hread hprepare hprobe hinput
    have hrun : run words host = CommandLine.ofExcept (compilePrepared verbose r.json
        host.reportDepth host.prober manifest script descriptor) := by
      rw [run, hread]
      exact runCompile_of_prepare hprepare
    rw [hrun]
    refine ⟨fun h hnone => ?_, fun h => ?_⟩
    · obtain ⟨session, reason, hsession, hgivesUp⟩ :=
        @exists_compilePrepared _ _ verbose _ script descriptor r.json hprobe hinput h hnone
      exact ⟨session, reason, by rw [hsession]; rfl, hgivesUp⟩
    · obtain ⟨f, hf⟩ :=
        @compilePrepared_of_mishandled _ _ verbose _ script descriptor r.json hprobe hinput h
      exact ⟨f, by rw [hf]; rfl⟩

/-- A host whose prober answers everything alike. -/
def proberHost (report : Report) : Host Id := Folder.host ⟨[]⟩ [] (some fun _ => report)

/-- The options for compiling a script after probing its input. -/
def probingOptions : List String := ["-e", "compress video", "-i", "a.mp4", "--probe"]

/-- What these options ask for. -/
def probingRequest : CompileRequest :=
  { CompileRequest.ofScript "compress video" with input := some "a.mp4", probe := true }

theorem read_probingOptions :
    read ("compile" :: probingOptions) = .asked false (some (.compile probingRequest)) := by
  obtain ⟨items, hsort, -⟩ := exists_ok_of_map (x := programGrammar.sort probingOptions)
    (k := fun _ => ()) (b := ()) (by decide +kernel)
  obtain ⟨t, hread, rfl⟩ := exists_ok_of_map (x := compileGrammar.read probingOptions) (k := id)
    (b := { options := [("--expr", "compress video"), ("--input", "a.mp4"), ("--probe", "")]
            positional := some [] }) (by decide +kernel)
  rw [CommandLine.read, read_command (by decide) hsort]
  simp only [show grammar? "compile" = some compileGrammar from rfl, hread]
  rfl

/-- A file in the current folder can be probed. -/
theorem callable_video : ¬ Uncallable (Path.ofText "a.mp4").text := by
  have hnull : '\x00' ∉ (Path.ofText "a.mp4").text.toList := by decide +kernel
  have hsize : ¬ wordLimit < (Path.ofText "a.mp4").text.utf8ByteSize := by decide +kernel
  exact not_or.2 ⟨hnull, hsize⟩

theorem probing_reported_iff_failedCall :
    (∃ session, run ["probe", "a.mp4"] (proberHost ⟨1, "", ""⟩) = pure session ∧
        session.status = 2) ∧
      ∃ session, run ("compile" :: probingOptions) (proberHost ⟨1, "", ""⟩) = pure session ∧
        session.status = 2 := by
  have hanswer : Report.read ⟨1, "", ""⟩ = .ok ⟨1, "", ""⟩ := by decide +kernel
  have hreported : ¬ Unreported Json.nestingLimit (some fun _ => ⟨1, "", ""⟩)
      (Path.ofText "a.mp4").text := by
    rintro (⟨-, huncallable⟩ | ⟨hinstalled, f, hf⟩ | ⟨hinstalled, hread, hstatus, -⟩)
    · exact callable_video huncallable
    · obtain rfl := Option.some.inj hinstalled
      cases hanswer.symm.trans hf
    · obtain rfl := Option.some.inj hinstalled
      obtain rfl := Except.ok.inj (hanswer.symm.trans hread)
      cases hstatus
  have hfails (d : Descriptor) : probe Json.nestingLimit (some fun _ => ⟨1, "", ""⟩)
      (Path.ofText "a.mp4").text ≠ .ok d := by
    rw [probe_of_read callable_video hanswer]
    nofun
  obtain ⟨hshow, hcompile⟩ := @probing_reported_iff Id _ _ (proberHost ⟨1, "", ""⟩)
  have hread : read ["probe", "a.mp4"] = .asked false (some (.probe "a.mp4")) :=
    read_probe (by decide)
  obtain ⟨session, hsession, hshown⟩ := (hshow _ _ _ hread).1 hreported
  obtain ⟨session', reason, hsession', hgiven, -⟩ :=
    (hcompile _ _ probingRequest (probingRequest.override { script := .text "compress video" })
      (.text "compress video") none read_probingOptions rfl rfl rfl).1
      (fun h => hreported (h "a.mp4" rfl))
      (by
        rintro name d ⟨⟩
        exact hfails d)
  refine ⟨⟨session, hsession, ?_⟩, session', hsession', hgiven.status⟩
  cases hshown with
  | facts facts => exact absurd facts (hfails _)
  | noFacts _ givesUp => exact givesUp.status

/-! ## An answer that is not JSON -/

/-- **Not every answer of the prober is reported:** one that is not JSON is passed on as a fault. -/
theorem run_wordyAnswer :
    run ["probe", "a.mp4"] (proberHost ⟨0, "not json", ""⟩) =
        throw (.badJson "Expecting value" 1 1 0) ∧
      ¬ ∀ (host : Host Id) (words : List String) (verbose : Bool) (video : String),
        read words = .asked verbose (some (.probe video)) →
          ∃ session, run words host = pure session := by
  have hread : read ["probe", "a.mp4"] = .asked false (some (.probe "a.mp4")) :=
    read_probe (by decide)
  have hanswer : Report.read ⟨0, "not json", ""⟩ = .ok ⟨0, "not json", ""⟩ := by decide +kernel
  have hjson : Json.read "not json" = .error (.badJson "Expecting value" 1 1 0) := by cbv
  have hrun : run ["probe", "a.mp4"] (proberHost ⟨0, "not json", ""⟩) =
      throw (.badJson "Expecting value" 1 1 0) := by
    have hprobe : probe Json.nestingLimit (some fun _ => ⟨0, "not json", ""⟩)
        (Path.ofText "a.mp4").text = .error (.badJson "Expecting value" 1 1 0) := by
      rw [probe_of_read callable_video hanswer, if_neg (by decide), hjson]
      rfl
    rw [run, hread]
    simp only [runProbe, probeFile, proberHost, Folder.host, hprobe]
    rfl
  refine ⟨hrun, fun hall => ?_⟩
  obtain ⟨session, hsession⟩ := hall _ _ _ _ hread
  cases hrun.symm.trans hsession

end ClipScript
