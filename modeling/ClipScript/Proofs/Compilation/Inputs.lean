/-
# The one input that counts

A script may name its file once. Of its entries, which are the commands with their texts, all
are kept up to the first input, and behind it those that are no inputs (`countingEntries`).
Every other input is an error instead, so nothing is lost: an entry that is left out makes the
list of errors longer (`length_countingEntries`).

Nothing else changes. Only the entries that are kept go into the command line, and the
diagnostics of a draft are passed on untouched (`compile_of_kept`). So scripts with the same
counting entries have the same command line, whatever their other inputs say. The file that is
read is that of the first input, or the next name that is given if that has none.
-/
import ClipScript.Proofs.Compilation.Outcomes

set_option autoImplicit false

namespace ClipScript

variable {descriptor : Option Descriptor} {settings : Settings} {e : Command × String}
  {es : List (Command × String)}

/-! ## Entries -/

/-- **The entries that count:** all up to the first input, and those behind it that are no
inputs. -/
def countingEntries (es : List (Command × String)) : List (Command × String) :=
  es.takeWhile (fun e => !e.1.isInput) ++
    match es.dropWhile fun e => !e.1.isInput with
    | [] => []
    | first :: behind => first :: behind.filter fun e => !e.1.isInput

/-- The inputs behind the first one. -/
def laterInputs (es : List (Command × String)) : List (Command × String) :=
  (es.filter fun e => e.1.isInput).drop 1

/-- Behind an input no other one counts. -/
theorem countingEntries_input (h : e.1.isInput = true) (es : List (Command × String)) :
    countingEntries (e :: es) = e :: es.filter fun e => !e.1.isInput := by
  simp [countingEntries, h]

/-- Behind a command of another kind the first input is still to come. -/
theorem countingEntries_other (h : e.1.isInput = false) (es : List (Command × String)) :
    countingEntries (e :: es) = e :: countingEntries es := by
  simp [countingEntries, h]

/-- Every entry counts, or is a later input. -/
theorem length_countingEntries (es : List (Command × String)) :
    (countingEntries es).length + (laterInputs es).length = es.length := by
  induction es with
  | nil => rfl
  | cons e es ih =>
    rcases hinput : e.1.isInput with _ | _
    · rw [countingEntries_other hinput, laterInputs, List.filter_cons_of_neg (by simp [hinput]),
        List.length_cons, List.length_cons, ← ih, laterInputs]
      omega
    · -- all other inputs are later ones
      have hsplit := es.length_eq_length_filter_add fun e => e.1.isInput
      rw [countingEntries_input hinput, laterInputs,
        @List.filter_cons_of_pos _ (fun e => e.1.isInput) e es hinput,
        List.drop_one, List.tail_cons, List.length_cons, List.length_cons]
      omega

/-- The first input of a script counts. -/
theorem find?_isInput_countingEntries (es : List (Command × String)) :
    ((countingEntries es).map Prod.fst).find? Command.isInput =
      (es.map Prod.fst).find? Command.isInput := by
  induction es with
  | nil => rfl
  | cons e es ih =>
    rcases hinput : e.1.isInput with _ | _
    · rw [countingEntries_other hinput, List.map_cons, List.map_cons,
        List.find?_cons_of_neg (by simp [hinput]), List.find?_cons_of_neg (by simp [hinput]), ih]
    · rw [countingEntries_input hinput, List.map_cons, List.map_cons,
        List.find?_cons_of_pos hinput, List.find?_cons_of_pos hinput]

/-- Once there was an input, no other one is kept. -/
theorem keepFirstInput_true (es : List (Command × String)) :
    (keepFirstInput true es).1 = es.filter fun e => !e.1.isInput := by
  induction es with
  | nil => rfl
  | cons e es ih =>
    rw [keepFirstInput]
    rcases hinput : e.1.isInput with _ | _
    · simp [hinput, ih]
    · simp [hinput, ih]

/-- **What is kept** are the entries that count. -/
theorem keepFirstInput_false (es : List (Command × String)) :
    (keepFirstInput false es).1 = countingEntries es := by
  induction es with
  | nil => rfl
  | cons e es ih =>
    rw [keepFirstInput]
    rcases hinput : e.1.isInput with _ | _
    · simp [ih, countingEntries_other hinput]
    · simp [keepFirstInput_true, countingEntries_input hinput]

theorem kept_ofScript (s : Script Command) :
    (Draft.ofScript s).kept = countingEntries s.understood :=
  keepFirstInput_false s.understood

/-! ## Drafts -/

/-- **What is kept** makes a result, up to its diagnostics. -/
theorem compile_of_kept {draft other : Draft} (hkept : other.kept = draft.kept) {c : Compilation}
    (h : (draft.compile descriptor settings).result = .ok c) :
    (other.compile descriptor settings).result = .ok
      { c with
        errors := other.diagnostics.map Diagnostic.message
        diagnostics := other.diagnostics } := by
  obtain ⟨merged, run, source, output, hmerged, hrun, hsource, houtput, hfinish⟩ :=
    compile_draft_stages h
  obtain ⟨-, arguments, harguments, hargs⟩ := finish_ok hfinish
  obtain ⟨kept, diagnostics⟩ := draft
  obtain ⟨kept', others⟩ := other
  obtain rfl : kept = kept' := hkept.symm
  have hfinish' : (Draft.mk kept others).finish settings source output run = .ok
      { c with errors := others.map Diagnostic.message, diagnostics := others } := by
    rw [Draft.finish] at hfinish ⊢
    simp only [harguments, hargs, bind, Except.bind] at hfinish ⊢
    rw [← Except.ok.inj hfinish]
    rfl
  -- every stage but the last reads the entries only
  have hmerged' : mergeCrops (Draft.mk kept others).commands descriptor = .ok merged := hmerged
  have hrun' : buildScript ⟨kept, others⟩ merged descriptor = .ok run := hrun
  have hsource' : sourceName ⟨kept, others⟩ settings descriptor = .text source := hsource
  have houtput' : outputName (Draft.mk kept others).commands settings (.text source) =
    .ok (.text output) := houtput
  simp only [Draft.compile, hsource', houtput', hmerged', hrun', nameTexts, hfinish']

theorem compile_of_parse {text : String} {s : Script Command} (h : parse .bare text = .ok s) :
    compile text descriptor settings = ((Draft.ofScript s).compile descriptor settings).result := by
  rw [compile, compileLogged, h]

/-! ## Command lines -/

/-- The word behind the first `-i` of a command line. -/
def sourceWord? (args : List String) : Option String :=
  ((args.dropWhile (· != "-i")).drop 1).head?

/-- **The file to read** stands behind the first `-i`: no word of a trim is one. -/
theorem sourceWord?_args {l : CommandLine} {commands : List Command}
    (h : ∀ c ∈ commands, c.NoOption) (overwrite : Bool) :
    sourceWord? (l.args commands overwrite) = some l.source := by
  rw [sourceWord?, l.args_eq, List.append_assoc, List.append_assoc,
    List.dropWhile_append_of_pos (trimWords_ne_input h)]
  rfl

/-! ## Results -/

/-- **Only the first input of a script counts** in a result. -/
structure Compilation.CountsFirstInput (c : Compilation) (s : Script Command)
    (descriptor : Option Descriptor) (settings : Settings) : Prop where
  /-- The commands and their texts are the entries that count. -/
  entries : c.commands.zip c.snippets = countingEntries (s.commands.zip s.snippets)
  paired : c.snippets.length = c.commands.length
  /-- Every other input is an error. -/
  errors : c.errors =
    s.errors ++ (laterInputs (s.commands.zip s.snippets)).map fun e => extraInputMessage e.2
  messages : c.errors = c.diagnostics.map Diagnostic.message
  /-- No entry of the script is lost. -/
  count : c.commands.length + c.errors.length = s.commands.length + s.errors.length
  /-- The file to read is the first one given; of the names in the script, the first is asked. -/
  source : (sourceWord? c.args).map Json.text =
    (sourceCandidates s.commands descriptor settings).find? Json.isGiven

theorem firstInputName_ofScript (s : Script Command) :
    firstInputName (Draft.ofScript s).commands = firstInputName s.commands := by
  rw [firstInputName, Draft.commands, kept_ofScript, find?_isInput_countingEntries, firstInputName,
    Script.commands]

theorem countsFirstInput_of_compile {text : String} {s : Script Command}
    (hparse : parse .bare text = .ok s) {c : Compilation}
    (h : compile text descriptor settings = .ok c) :
    c.CountsFirstInput s descriptor settings := by
  have hdraft := compile_of_parse hparse ▸ h
  obtain ⟨_, _, _, _, -, -, -, -, hfinish⟩ := compile_draft_stages hdraft
  obtain ⟨hfinishes, -⟩ := finish_ok hfinish
  have hcommands : c.commands = (countingEntries s.understood).map Prod.fst := by
    rw [hfinishes.commands, Draft.commands, kept_ofScript]
  have hsnippets : c.snippets = (countingEntries s.understood).map Prod.snd := by
    rw [hfinishes.snippets, kept_ofScript]
  have herrors := (reports_of_compile hparse h).errors
  refine ⟨?_, ?_, ?_, (diagnostics_of_compile hparse h).2, ?_, ?_⟩
  · rw [hcommands, hsnippets, Script.zip_commands_snippets]
    exact (List.zip_of_prod rfl rfl).symm
  · rw [hcommands, hsnippets, List.length_map, List.length_map]
  · rw [herrors, Script.zip_commands_snippets, laterInputs]
  · have hlength := length_countingEntries s.understood
    rw [laterInputs] at hlength
    rw [hcommands, herrors, Script.commands]
    simp only [List.length_map, List.length_append]
    omega
  · obtain ⟨l, hfits, hargs⟩ := exists_commandLine hdraft
    have hoptions : ∀ d ∈ c.commands, d.NoOption :=
      forall_command_of_compile (fun _ => trivial) (fun _ hd => hd.noOption) h
    rw [hargs, sourceWord?_args hoptions, Option.map_some, ← hfits.source, hfinishes.commands,
      sourceCandidates, sourceCandidates, firstInputName_ofScript]

/-- **Later inputs become errors,** and nothing else changes: a result has the entries that count,
one error for each of the others, and the file of the first input; and any text with the same
counting entries compiles to the same, up to what it reports. -/
theorem compile_later_inputs {text : String} {c : Compilation}
    (h : compile text descriptor settings = .ok c) :
    ∃ s, parse .bare text = .ok s ∧ c.CountsFirstInput s descriptor settings ∧
      ∀ text' s', parse .bare text' = .ok s' →
        countingEntries (s'.commands.zip s'.snippets) =
          countingEntries (s.commands.zip s.snippets) →
        ∃ c', compile text' descriptor settings = .ok c' ∧
          c' = { c with errors := c'.errors, diagnostics := c'.diagnostics } := by
  obtain ⟨s, hparse, hdraft⟩ := compile_ok h
  refine ⟨s, hparse, countsFirstInput_of_compile hparse h, fun text' s' hparse' hcount => ?_⟩
  rw [Script.zip_commands_snippets, Script.zip_commands_snippets] at hcount
  have hkept : (Draft.ofScript s').kept = (Draft.ofScript s).kept := by
    rw [kept_ofScript, kept_ofScript, hcount]
  exact ⟨_, (compile_of_parse hparse').trans (compile_of_kept hkept hdraft), rfl⟩

/-- A script with three inputs, a comment and a rejected directive between them. -/
def manyInputs : String :=
  "trim from 1 to 5\ninput \"a.mp4\"\n# second\ninput \"b.mp4\"\nshrink\ninput \"c.mp4\""

theorem compile_later_inputs_manyInputs :
    ∃ c, compile manyInputs none {} = .ok c ∧
      c.snippets = ["trim from 1 to 5", "input \"a.mp4\"", "# second"] ∧
      c.errors = ["Unknown command: shrink",
        "Only one input command is allowed: input \"b.mp4\"",
        "Only one input command is allowed: input \"c.mp4\""] ∧
      c.args = ["-ss", "1", "-to", "5", "-i", "a.mp4", "output.mp4"] ∧
      ∃ s, parse .bare manyInputs = .ok s ∧ c.CountsFirstInput s none {} := by
  have hresult : (compile manyInputs none {}).toOption.map
      (fun c => (c.snippets, c.errors, c.args)) =
      some (["trim from 1 to 5", "input \"a.mp4\"", "# second"],
        ["Unknown command: shrink", "Only one input command is allowed: input \"b.mp4\"",
          "Only one input command is allowed: input \"c.mp4\""],
        ["-ss", "1", "-to", "5", "-i", "a.mp4", "output.mp4"]) := by
    decide +kernel
  obtain ⟨c, hc, hparts⟩ := exists_ok_of_map hresult
  obtain ⟨hsnippets, hreported⟩ := Prod.mk.inj hparts
  obtain ⟨herrors, hargs⟩ := Prod.mk.inj hreported
  obtain ⟨s, hs, hcounts, -⟩ := compile_later_inputs hc
  exact ⟨c, hc, hsnippets, herrors, hargs, s, hs, hcounts⟩

end ClipScript
