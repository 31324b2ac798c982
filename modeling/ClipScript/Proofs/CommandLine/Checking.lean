/-
# Checking and compiling report the same errors

`check` reports the errors of a script without compiling it. They are the errors that
`compile` reports as well: the diagnostics of the parsed script, in the same order and with
the same texts (`reports_checked`). There are two things in which the commands can differ.

**Inputs.** Only compiling can tell that a script has more than one input. So `compile` has a
further error for every input after the first, and a script with such inputs and nothing
else wrong with it passes `check` and not `compile`.

**Options.** A script that begins with a dash can mean an option, and `compile` has more of
them than `check`. A script that one of the commands takes for an option is refused by that
command with status 2, and nothing is said about the script. Every script that `compile`
takes, `check` takes too, and not the other way round.

There is a script for each of the two, and one that both refuse (`exits_differ`).

Both commands are followed from the words of their command lines up to the session. The two
have only the parsed script in common, and what compiling adds to its diagnostics is known
(`diagnostics_of_compile`).
-/
import ClipScript.Proofs.CommandLine.Reading
import ClipScript.Proofs.Compilation.Outcomes
import ClipScript.Proofs.Web.Agreement

set_option autoImplicit false

namespace ClipScript

open CommandLine

/-! ## Reports -/

/-- The line of a warning. -/
def warningText (w : String) : String := "warning: " ++ w ++ "\n"

/-- The line of a directive that is understood. -/
def okText (snippet : String) : String := "  ok  " ++ snippet ++ "\n"

/-- The last line of `check`. -/
def checkSummary (directives errors : Nat) : String :=
  toString directives ++ " directive(s), " ++ toString errors ++ " error(s)\n"

/-- **A session of `check`:** it says what is understood and reports the errors of the script,
counts both, and exits with status 1 if there is an error. -/
structure Checks (s : Session) (script : Script Command) : Prop where
  stdout : s.stdout = String.join (script.snippets.map okText) ++
    checkSummary script.commands.length script.diagnostics.length
  complaints : s.complaints = script.diagnostics.map diagnosticText
  status : s.status = if script.diagnostics = [] then 0 else 1

/-- **A session of `compile`:** it prints the command of a result and reports some errors, which
are those of the result, then the warnings. It exits with status 1 if there is an error. -/
structure Compiles (s : Session) (c : Compilation) (ds : List Diagnostic) : Prop where
  stdout : s.stdout = c.command ++ "\n"
  complaints : s.complaints = ds.map diagnosticText ++ c.warnings.map warningText
  errors : c.errors = ds.map Diagnostic.message
  status : s.status = if ds = [] then 0 else 1

/-- **A session of a refused command line:** it prints nothing, complains once and exits with
status 2. -/
structure Refuses (s : Session) : Prop where
  stdout : s.stdout = ""
  complaint : ∃ text, s.complaints = [text]
  status : s.status = 2

/-! ## Sessions -/

variable {text : String} {verbose : Bool}

theorem statusOf_map_message (ds : List Diagnostic) :
    statusOf (ds.map Diagnostic.message) = if ds = [] then 0 else 1 := by
  rw [statusOf, List.isEmpty_map]
  simp

theorem printDiagnostics_eq (ds : List Diagnostic) :
    printDiagnostics ds = (ds.map diagnosticText).map .complaint := by
  rw [List.map_map]
  rfl

theorem checks_checkSession (verbose : Bool) (script : Script Command) :
    Checks (checkSession verbose script) script := by
  have hoks : (script.snippets.map fun s => Event.output ("  ok  " ++ s ++ "\n")) =
      (script.snippets.map okText).map .output := by
    rw [List.map_map]
    rfl
  rw [checkSession, hoks, printDiagnostics_eq, List.append_assoc, List.append_assoc]
  refine ⟨?_, ?_, statusOf_map_message _⟩
  · rw [stdout_log, Session.stdout]
    simp [checkSummary, Script.length_errors, Function.comp_def, List.filterMap_map]
  · rw [complaints_log, complaints_output, complaints_complaint]
    exact List.append_nil _

/-- A script that compiles is reported with the errors that compiling adds. -/
theorem exists_compileScript {c : Compilation} (h : compile text none {} = .ok c)
    {script : Script Command} (hparse : parse .bare text = .ok script) :
    ∃ session, compileScript verbose false [] (.text text) none {} = .ok session ∧
      Compiles session c (script.diagnostics ++ script.extraInputs) := by
  obtain ⟨hdiagnostics, herrors⟩ := diagnostics_of_compile hparse h
  have hprint : printCompilation false c = .output (c.command ++ "\n") ::
      (c.diagnostics.map diagnosticText ++ c.warnings.map warningText).map .complaint := by
    rw [printCompilation, if_neg Bool.false_ne_true, printDiagnostics_eq, List.map_append,
      List.map_map (l := c.warnings)]
    rfl
  rw [compile] at h
  rw [compileScript]
  simp only [h, List.nil_append, hprint, ← hdiagnostics]
  refine ⟨_, rfl, ?_, ?_, herrors, by rw [herrors, statusOf_map_message]⟩
  · rw [stdout_log, Session.stdout]
    simp [Function.comp_def, List.filterMap_map]
  · rw [complaints_log, Session.complaints]
    simp [Function.comp_def, List.filterMap_map]

/-! ## Commands -/

variable {m : Type → Type} [Monad m] [LawfulMonad m] {host : Host m}

theorem runCheck_expr :
    runCheck verbose ⟨some text, none⟩ host =
      CommandLine.ofExcept ((parse .bare text).map (checkSession verbose)) := by
  rw [runCheck, ScriptSource.text, pure_bind]

theorem runCompile_ofScript :
    runCompile verbose (.ofScript text) host =
      CommandLine.ofExcept (compileScript verbose false [] (.text text) none {}) := by
  let job : Job := ⟨text, none, none, none, none, false⟩
  have hprepare : (prepare (.ofScript text) host).run =
      pure (.ok (job.manifest, .text text, none)) := prepare_request job host
  rw [runCompile_of_prepare hprepare]
  rfl

omit [LawfulMonad m] in
/-- **A command with a script after `-e`** has some session or is refused. Which of them depends on
whether its grammar takes the script for what it is. -/
theorem exists_of_inline {command : String} {g : Grammar} (hcommand : command ∈ commandNames)
    (hgrammar : grammar? command = some g) (hg : g.TakesScript) {served : Session → Prop}
    (h : g.Inline text → ∃ s, run [command, "-e", text] host = pure s ∧ served s) :
    ∃ s, run [command, "-e", text] host = pure s ∧ (g.Inline text → served s) ∧
      (¬ g.Inline text → Refuses s) := by
  by_cases hinline : g.Inline text
  · obtain ⟨s, hrun, hserved⟩ := h hinline
    exact ⟨s, hrun, fun _ => hserved, absurd hinline⟩
  · obtain ⟨complaint, hread⟩ := read_not_inline hcommand hgrammar hg hinline
    refine ⟨⟨2, false, [.complaint complaint]⟩, ?_, fun h => absurd h hinline, fun _ => ?_⟩
    · rw [run, hread]
    · exact ⟨rfl, ⟨complaint, rfl⟩, rfl⟩

/-- **Checking a script after `-e`:** it is checked if it is taken for what it is. -/
theorem exists_checked {script : Script Command} (hparse : parse .bare text = .ok script) :
    ∃ checked, run ["check", "-e", text] host = pure checked ∧
      (checkGrammar.Inline text → Checks checked script) ∧
      (¬ checkGrammar.Inline text → Refuses checked) := by
  refine exists_of_inline (by decide) rfl takesScript_check fun hinline => ?_
  refine ⟨checkSession false script, ?_, checks_checkSession _ _⟩
  rw [run, read_check hinline]
  simp only
  rw [runCheck_expr, hparse]
  rfl

/-- **Compiling a script after `-e`:** it is compiled if it is taken for what it is. -/
theorem exists_compiled {c : Compilation} (h : compile text none {} = .ok c)
    {script : Script Command} (hparse : parse .bare text = .ok script) :
    ∃ compiled, run ["compile", "-e", text] host = pure compiled ∧
      (compileGrammar.Inline text →
        Compiles compiled c (script.diagnostics ++ script.extraInputs)) ∧
      (¬ compileGrammar.Inline text → Refuses compiled) := by
  refine exists_of_inline (by decide) rfl takesScript_compile fun hinline => ?_
  obtain ⟨compiled, hsession, hcompiles⟩ := @exists_compileScript _ false _ h _ hparse
  refine ⟨compiled, ?_, hcompiles⟩
  rw [run, read_compile hinline]
  simp only
  rw [runCompile_ofScript, hsession]
  rfl

/-- **Checking and compiling report the same errors** of a script that compiles, but for the inputs
after the first, which only compiling reports, if both commands take the script after `-e` for what
it is. A command that does not is refused, and `check` is only refused if `compile` is. So they end
with the same status exactly if both are refused, or none is and there is an error for both or no
second input. -/
theorem reports_checked (host : Host m) {c : Compilation} (h : compile text none {} = .ok c) :
    ∃ script checked compiled, parse .bare text = .ok script ∧
      run ["check", "-e", text] host = pure checked ∧
      run ["compile", "-e", text] host = pure compiled ∧
      (checkGrammar.Inline text → Checks checked script) ∧
      (¬ checkGrammar.Inline text → Refuses checked) ∧
      (compileGrammar.Inline text →
        Compiles compiled c (script.diagnostics ++ script.extraInputs)) ∧
      (¬ compileGrammar.Inline text → Refuses compiled) ∧
      (compileGrammar.Inline text → checkGrammar.Inline text) ∧
      (checked.status = compiled.status ↔ ¬ checkGrammar.Inline text ∨
        compileGrammar.Inline text ∧ (script.diagnostics ≠ [] ∨ script.extraInputs = [])) := by
  obtain ⟨script, hparse, -⟩ := compile_ok h
  obtain ⟨checked, hcheck, hchecks, hunchecked⟩ := @exists_checked _ m _ _ host _ hparse
  obtain ⟨compiled, hcompile, hcompiles, huncompiled⟩ := @exists_compiled _ m _ _ host _ h _ hparse
  refine ⟨script, checked, compiled, hparse, hcheck, hcompile, hchecks, hunchecked, hcompiles,
    huncompiled, inline_check_of_compile, ?_⟩
  by_cases hcompileInline : compileGrammar.Inline text
  · have hcheckInline := inline_check_of_compile hcompileInline
    rw [(hchecks hcheckInline).status, (hcompiles hcompileInline).status]
    by_cases herrors : script.diagnostics = []
    · by_cases hextra : script.extraInputs = []
      · simp [herrors, hextra, hcompileInline]
      · simp [herrors, hextra, hcheckInline]
    · simp [herrors, hcompileInline]
  · rw [(huncompiled hcompileInline).status]
    by_cases hcheckInline : checkGrammar.Inline text
    · rw [(hchecks hcheckInline).status]
      by_cases herrors : script.diagnostics = []
      · simp [herrors, hcheckInline, hcompileInline]
      · simp [herrors, hcheckInline, hcompileInline]
    · simp [(hunchecked hcheckInline).status, hcheckInline]

/-! ## Scripts for both commands -/

/-- The host of a run that needs nothing. -/
def bareHost : Host Id := Folder.host ⟨[]⟩ [] none

/-- A script with an unknown directive between two inputs. -/
def brokenScript : String := "input a.mp4\nshrink\ninput b.mp4"

theorem reports_checked_brokenScript :
    ∃ checked compiled : Session,
      run ["check", "-e", brokenScript] bareHost = pure checked ∧
      run ["compile", "-e", brokenScript] bareHost = pure compiled ∧
      checked.complaints = ["2:0: error: Unknown command: shrink\n"] ∧
      compiled.complaints = ["2:0: error: Unknown command: shrink\n",
        "error: Only one input command is allowed: input b.mp4\n"] ∧
      checked.status = 1 ∧ compiled.status = 1 := by
  obtain ⟨c, hc, hwarnings⟩ : ∃ c, compile brokenScript none {} = .ok c ∧ c.warnings = [] :=
    exists_ok_of_map (by decide +kernel)
  have hread : (parse .bare brokenScript).toOption.map (fun s => (s.diagnostics, s.extraInputs)) =
      some ([⟨"Unknown command: shrink", "shrink", some "shrink", some 2, some 0, none⟩],
        [extraInput "input b.mp4"]) := by
    decide +kernel
  obtain ⟨script, checked, compiled, hparse, hcheck, hcompile, hchecks, -, hcompiles, -⟩ :=
    reports_checked bareHost hc
  replace hchecks := hchecks (by decide)
  replace hcompiles := hcompiles (by decide)
  rw [hparse] at hread
  obtain ⟨herrors, hextra⟩ := Prod.mk.inj (Option.some.inj hread)
  refine ⟨checked, compiled, hcheck, hcompile, ?_, ?_, ?_, ?_⟩
  · rw [hchecks.complaints, herrors]
    decide +kernel
  · rw [hcompiles.complaints, hwarnings, herrors, hextra]
    decide +kernel
  · rw [hchecks.status, herrors]
    rfl
  · rw [hcompiles.status, herrors]
    rfl

/-- **A script that compiles, and how the two commands end** when it stands behind `-e`. -/
structure Exits (text : String) (checked compiled : Nat) : Prop where
  compiles : ∃ c, ClipScript.compile text none {} = .ok c
  check : ∃ s, run ["check", "-e", text] bareHost = pure s ∧ s.status = checked
  compile : ∃ s, run ["compile", "-e", text] bareHost = pure s ∧ s.status = compiled

/-- **The commands do not always end alike.** Two inputs pass `check` and not `compile`. A script
that means an option of `compile` is an error for `check` and refused by `compile`, and one that
looks like an unknown option is refused by both. -/
theorem exits_differ :
    Exits "input a.mp4\ninput b.mp4" 0 1 ∧ Exits "-i x" 1 2 ∧ Exits "-x" 2 2 ∧
      ¬ ∀ text checked compiled, Exits text checked compiled →
        (checked = 1 ↔ compiled = 1) ∧ (checked ≠ 1 → checked = 0 ∧ compiled = 0) := by
  have exits {text : String} {checked compiled : Nat}
      (hcompiles : (ClipScript.compile text none {}).toOption.map (fun _ => ()) = some ())
      (hcheck : (run ["check", "-e", text] bareHost).run.toOption.map Session.status = some checked)
      (hcompile : (run ["compile", "-e", text] bareHost).run.toOption.map Session.status =
        some compiled) : Exits text checked compiled :=
    ⟨(exists_ok_of_map hcompiles).imp fun _ h => h.1, exists_ok_of_map hcheck,
      exists_ok_of_map hcompile⟩
  have hinputs : Exits "input a.mp4\ninput b.mp4" 0 1 :=
    exits (by decide +kernel) (by decide +kernel) (by decide +kernel)
  have hoption : Exits "-i x" 1 2 :=
    exits (by decide +kernel) (by decide +kernel) (by decide +kernel)
  have hunknown : Exits "-x" 2 2 :=
    exits (by decide +kernel) (by decide +kernel) (by decide +kernel)
  exact ⟨hinputs, hoption, hunknown, fun hall => nomatch (hall _ _ _ hinputs).1.2 rfl⟩

end ClipScript
