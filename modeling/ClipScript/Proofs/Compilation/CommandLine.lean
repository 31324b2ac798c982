/-
# The command line of a script

This puts the stages of compiling together. What is said about the result is stated
over its commands alone, so that it does not matter in which order the stages work:
the words of the command line are, one part after another, those of the trims, the
file to read, the switch that replaces files, the fragments of the picture, the
formats, the codecs, and the file to write (`compile_commandLine`).

Merging crops moves commands, and it leaves out some; neither touches a trim, a
format or a codec (`filterMap_mergeCrops`). So "the last one counts" means the same
wherever it is asked: the encoder takes the last times and the last format it reads,
and the length of the output and the name of the file are those of the same trim and
the same conversion.
-/
import ClipScript.Proofs.Compilation.Options

set_option autoImplicit false

namespace ClipScript

variable {commands : List Command} {descriptor : Option Descriptor} {settings : Settings}

/-! ## Merging crops -/

/-- **Merging crops** leaves the commands of every other kind as they are. -/
theorem filterMap_mergeCrops {β : Type} {f : Command → Option β} {merged : List Command}
    (hcrop : ∀ size side, f (.crop size side) = none)
    (hmerged : ∀ m detect, f (.mergedCrop m detect) = none)
    (h : mergeCrops commands descriptor = .ok merged) :
    merged.filterMap f = commands.filterMap f := by
  rw [mergeCrops] at h
  split at h
  · rw [Except.ok.inj h]
  · -- of several crops one merged crop is left, in front of all other commands
    rcases hbounds : (Margins.total (crops commands)).checkBounds descriptor with e | _
    · simp only [hbounds, bind, Except.bind] at h
      cases h
    · simp only [hbounds, bind, Except.bind] at h
      obtain rfl := Except.ok.inj h
      rw [List.filterMap_cons_none (hmerged _ _), List.filterMap_filter]
      refine List.filterMap_congr fun c _ => ?_
      cases c with
      | crop size side => exact (hcrop size side).symm
      | _ => rfl

/-! ## Files -/

/-- The name of the file of the first input, if it names one. -/
def firstInputName (commands : List Command) : Json :=
  match commands.find? Command.isInput with
  | some (.input _ (some name)) => .text name
  | _ => .null

/-- Where the file to read is looked for, in this order. -/
def sourceCandidates (commands : List Command) (descriptor : Option Descriptor)
    (settings : Settings) : List Json :=
  [firstInputName commands, settings.input, (descriptor.map Descriptor.filename).getD .null,
    .text "input.mp4"]

/-- The extension of the file to write when none is given. -/
def outputExtension (commands : List Command) (source : String) : String :=
  match (commands.filterMap Command.format?).getLast? with
  | some format => extensionOf format
  | none =>
    let ending := String.ofList ((Path.ofText source).suffix.toList.dropWhile (· == '.'))
    if ending.isEmpty then "mp4" else ending

/-- The first value that is given, with the fallback as the last candidate. -/
theorem find?_append_fallback (fallback : Json) (h : fallback.isGiven = true)
    (values : List Json) :
    (values ++ [fallback]).find? Json.isGiven = some (firstGiven fallback values) := by
  rw [firstGiven, List.find?_append]
  rcases values.find? Json.isGiven with _ | value
  · rw [List.find?_cons_of_pos h]
    rfl
  · rfl

theorem firstInputName_commands (draft : Draft) :
    firstInputName draft.commands = .text draft.filename ∨
      firstInputName draft.commands = .null ∧ draft.filename = "" := by
  rw [firstInputName, Draft.filename]
  rcases draft.commands.find? Command.isInput with _ | c
  · exact .inr ⟨rfl, rfl⟩
  · cases c
    case input selector name =>
      rcases name with _ | name
      · exact .inr ⟨rfl, rfl⟩
      · exact .inl rfl
    all_goals exact .inr ⟨rfl, rfl⟩

/-- **The file to read** is the first of the candidates that is given. -/
theorem find?_sourceCandidates (draft : Draft) (descriptor : Option Descriptor)
    (settings : Settings) :
    (sourceCandidates draft.commands descriptor settings).find? Json.isGiven =
      some (sourceName draft settings descriptor) := by
  have hfallback := find?_append_fallback (.text "input.mp4") rfl
    [.text draft.filename, settings.input, (descriptor.map Descriptor.filename).getD .null]
  -- a first input without a name counts as none, and so does an empty name
  rw [sourceName, ← hfallback, sourceCandidates]
  rcases firstInputName_commands draft with hname | ⟨hnull, hempty⟩
  · rw [hname]
    rfl
  · rw [hnull, hempty]
    rfl

/-- **The file to write** is the one that is given, or one with the extension. -/
theorem outputName_text {source : String} :
    outputName commands settings (.text source) =
      .ok (if settings.output.isGiven then settings.output
        else .text ("output." ++ outputExtension commands source)) := by
  rw [outputName]
  split
  · rfl
  · rw [defaultOutput, outputExtension]
    rcases (commands.filterMap Command.format?).getLast? with _ | format
    · rfl
    · rfl

/-! ## The parts of a command line -/

/-- **What a command line is made of,** besides the commands of the script. -/
structure CommandLine where
  /-- The commands once crops are merged. -/
  merged : List Command
  /-- The length of the output. -/
  duration : Option Double
  /-- The fragments of the picture. -/
  fragments : List String
  source : String
  output : String

namespace CommandLine

/-- **The words of a command line.** -/
def args (l : CommandLine) (commands : List Command) (overwrite : Bool) : List String :=
  (commands.filterMap Command.trim?).flatMap trimWords ++ ["-i", l.source] ++
    (if overwrite then ["-y"] else []) ++
    (if l.merged.any Command.isPicture then ["-vf", String.intercalate "," l.fragments] else []) ++
    (commands.filterMap Command.format?).flatMap formatWords ++
    (commands.filterMap Command.stream?).flatMap codecWords ++ [l.output]

/-- **What the parts of a command line are:** the commands once crops are merged, the length of the
output, the fragments built for that length, the first file name that is given, and the file to
write. -/
structure Fits (l : CommandLine) (commands : List Command) (descriptor : Option Descriptor)
    (settings : Settings) : Prop where
  merged : mergeCrops commands descriptor = .ok l.merged
  duration : outputDuration commands descriptor = .ok l.duration
  fragments : Filter.Builds (.of descriptor l.duration) 0 l.merged l.fragments
  source : (sourceCandidates commands descriptor settings).find? Json.isGiven =
    some (.text l.source)
  output : (if settings.output.isGiven then settings.output
    else .text ("output." ++ outputExtension commands l.source)) = .text l.output

end CommandLine

/-! ## From arguments to words -/

theorem fragments_eq {chain : Destination} {arguments : List Argument} {ts : List String}
    (h : argumentsFor chain arguments = ts.map Argument.fragment) :
    fragments chain arguments = .ok ts := by
  rw [fragments, show (arguments.filter fun a => decide (a.destination = chain)) = _ from h]
  clear h
  induction ts with
  | nil => rfl
  | cons t ts ih =>
    rw [List.map_cons, List.mapM_cons, ih]
    rfl

/-- The arguments of a run, with the switch that replaces files. -/
theorem assemble_built {ctx : Filter.Context} {merged : List Command} {arguments : List Argument}
    (h : Filter.Built ctx 0 merged arguments) (settings : Settings) (source output : String) :
    ∃ ts, Filter.Builds ctx 0 merged ts ∧
      assemble (overwriteArgument settings ++ arguments) source output = .ok (
        (merged.filterMap Command.trim?).flatMap trimWords ++ ["-i", source] ++
          (if settings.overwrite then ["-y"] else []) ++
          (if merged.any Command.isPicture then ["-vf", String.intercalate "," ts] else []) ++
          (merged.filterMap Command.format?).flatMap formatWords ++
          (merged.filterMap Command.stream?).flatMap codecWords ++ [output]) := by
  obtain ⟨ts, hts, hvideo⟩ := h.fragments
  obtain ⟨hinput, hformat, hcodec, hglobal, haudio⟩ := wordsFor_filterMap_plainArgument merged
  have hstaged : ∀ a ∈ overwriteArgument settings ++ arguments, a.Staged := by
    intro a ha
    rcases List.mem_append.1 ha with ha | ha
    · rw [overwriteArgument] at ha
      split at ha
      · rw [List.mem_singleton.1 ha]
        exact Argument.staged_of ..
      · cases ha
    · exact h.staged a ha
  -- the switch that replaces files is the only argument for its part
  have hother : ∀ part : Destination, part ≠ .globalOption →
      argumentsFor part (overwriteArgument settings ++ arguments) =
        argumentsFor part arguments := by
    intro part hpart
    have hnil : argumentsFor part (overwriteArgument settings) = [] := by
      rw [overwriteArgument]
      split
      · exact List.filter_cons_of_neg (by simpa [Argument.of] using hpart.symm)
      · rfl
    rw [argumentsFor_append, hnil, List.nil_append]
  have hswitch : wordsFor .globalOption (overwriteArgument settings ++ arguments) =
      if settings.overwrite then ["-y"] else [] := by
    rw [wordsFor, argumentsFor_append, h.words _ (by decide), hglobal, List.append_nil,
      overwriteArgument]
    split
    · rfl
    · rfl
  have hfragments : fragments .videoFilter (overwriteArgument settings ++ arguments) = .ok ts :=
    fragments_eq (by rw [hother _ (by decide), hvideo])
  have hsilent : fragments .audioFilter (overwriteArgument settings ++ arguments) = .ok [] :=
    fragments_eq (by rw [hother _ (by decide), h.words _ (by decide), haudio, List.map_nil])
  refine ⟨ts, hts, ?_⟩
  -- the words for any other part are those of the merged commands
  have hwords : ∀ part : Destination, part ≠ .globalOption → part ≠ .videoFilter →
      wordsFor part (overwriteArgument settings ++ arguments) =
        wordsFor part (merged.filterMap plainArgument) := by
    intro part hglobal hvideo
    rw [wordsFor, hother part hglobal, h.words part hvideo, wordsFor]
  have hchain : chainWords "-vf" ts =
      if merged.any Command.isPicture then ["-vf", String.intercalate "," ts] else [] := by
    rw [chainWords, hts.isEmpty_eq]
    rcases merged.any Command.isPicture with _ | _
    · rfl
    · rfl
  rw [assemble_eq hstaged hfragments hsilent, hswitch, hchain,
    hwords .input (by decide) (by decide),
    hwords .outputFormat (by decide) (by decide), hwords .outputCodec (by decide) (by decide),
    hinput, hformat, hcodec, show chainWords "-af" [] = [] from rfl, List.append_nil]

/-! ## Compiling -/

theorem buildScript_ok {draft : Draft} {merged : List Command} {run : Filter.Run}
    (h : buildScript draft merged descriptor = .ok run) :
    ∃ duration, outputDuration draft.commands descriptor = .ok duration ∧
      run = Filter.run (Filter.steps (.of descriptor duration) 0 merged) := by
  rw [buildScript] at h
  rcases hduration : outputDuration draft.commands descriptor with f | duration
  · rw [hduration] at h
    cases h
  · rw [hduration] at h
    exact ⟨duration, rfl, (Except.ok.inj h).symm⟩

theorem nameTexts_ok {source output : Json} {s o : String}
    (h : nameTexts source output = .ok (s, o)) : source = .text s ∧ output = .text o := by
  unfold nameTexts at h
  split at h
  · obtain ⟨rfl, rfl⟩ := Prod.mk.inj (Except.ok.inj h)
    exact ⟨rfl, rfl⟩
  · cases h

/-- **What a result takes over** from its draft and the run of it. -/
structure Compilation.Finishes (c : Compilation) (draft : Draft) (run : Filter.Run) : Prop where
  commands : c.commands = draft.commands
  diagnostics : c.diagnostics = draft.diagnostics
  errors : c.errors = draft.diagnostics.map Diagnostic.message
  warnings : c.warnings = run.warnings
  snippets : c.snippets = draft.kept.map Prod.snd

theorem finish_ok {draft : Draft} {source output : String} {run : Filter.Run} {c : Compilation}
    (h : draft.finish settings source output run = .ok c) :
    c.Finishes draft run ∧ ∃ arguments, run.outcome = .ok arguments ∧
      assemble (overwriteArgument settings ++ arguments) source output = .ok c.args := by
  rw [Draft.finish] at h
  rcases hrun : run.outcome with f | arguments
  · rw [hrun] at h
    cases h
  · rcases hargs : assemble (overwriteArgument settings ++ arguments) source output with f | args
    · simp only [hrun, hargs, bind, Except.bind] at h
      cases h
    · simp only [hrun, hargs, bind, Except.bind] at h
      obtain rfl := Except.ok.inj h
      exact ⟨⟨rfl, rfl, rfl, rfl, rfl⟩, arguments, rfl, hargs⟩

/-- **The stages of compiling a draft,** when it comes to a result. -/
theorem compile_draft_stages {draft : Draft} {c : Compilation}
    (h : (draft.compile descriptor settings).result = .ok c) :
    ∃ (merged : List Command) (run : Filter.Run) (source output : String),
      mergeCrops draft.commands descriptor = .ok merged ∧
      buildScript draft merged descriptor = .ok run ∧
      sourceName draft settings descriptor = .text source ∧
      outputName draft.commands settings (.text source) = .ok (.text output) ∧
      draft.finish settings source output run = .ok c := by
  rw [Draft.compile] at h
  -- each stage has to come to a result, or the whole does not
  rcases houtput : outputName draft.commands settings (sourceName draft settings descriptor) with
    f | output
  · simp only [houtput] at h
    cases h
  rcases hmerged : mergeCrops draft.commands descriptor with f | merged
  · simp only [houtput, hmerged] at h
    cases h
  rcases hrun : buildScript draft merged descriptor with f | run
  · simp only [houtput, hmerged, hrun] at h
    cases h
  rcases hnames : nameTexts (sourceName draft settings descriptor) output with f | ⟨s, o⟩
  · simp only [houtput, hmerged, hrun, hnames] at h
    rcases hout : run.outcome with g | arguments
    · rw [hout] at h
      cases h
    · rw [hout] at h
      cases h
  rcases hfinish : draft.finish settings s o run with f | c'
  · simp only [houtput, hmerged, hrun, hnames, hfinish] at h
    cases h
  · simp only [houtput, hmerged, hrun, hnames, hfinish] at h
    obtain rfl := Except.ok.inj h
    obtain ⟨hsource, rfl⟩ := nameTexts_ok hnames
    -- both names are texts, so what they are looked up with is one too
    rw [hsource] at houtput
    exact ⟨merged, run, s, o, rfl, hrun, hsource, houtput, hfinish⟩

/-- **What compiling a draft went through,** when it comes to a result. -/
theorem compile_draft_ok {draft : Draft} {c : Compilation}
    (h : (draft.compile descriptor settings).result = .ok c) :
    ∃ (merged : List Command) (duration : Option Double) (arguments : List Argument)
      (source output : String),
      c.commands = draft.commands ∧ mergeCrops draft.commands descriptor = .ok merged ∧
      outputDuration draft.commands descriptor = .ok duration ∧
      (Filter.run (Filter.steps (.of descriptor duration) 0 merged)).outcome = .ok arguments ∧
      sourceName draft settings descriptor = .text source ∧
      outputName draft.commands settings (.text source) = .ok (.text output) ∧
      assemble (overwriteArgument settings ++ arguments) source output = .ok c.args := by
  obtain ⟨merged, run, source, output, hmerged, hrun, hsource, houtput, hfinish⟩ :=
    compile_draft_stages h
  obtain ⟨duration, hduration, rfl⟩ := buildScript_ok hrun
  obtain ⟨⟨hcommands, -, -, -⟩, arguments, harguments, hargs⟩ := finish_ok hfinish
  exact ⟨merged, duration, arguments, source, output, hcommands, hmerged, hduration, harguments,
    hsource, houtput, hargs⟩

theorem compile_ok {text : String} {c : Compilation}
    (h : compile text descriptor settings = .ok c) :
    ∃ s, parse .bare text = .ok s ∧
      ((Draft.ofScript s).compile descriptor settings).result = .ok c := by
  rw [compile, compileLogged] at h
  rcases hparse : parse .bare text with f | s
  · simp only [hparse] at h
    cases h
  · simp only [hparse] at h
    exact ⟨s, rfl, h⟩

/-- **What comments satisfy, and what directives become,** every command of a compiled script
satisfies. -/
theorem forall_command_of_compile {P : Command → Prop} (hcomment : ∀ content, P (.comment content))
    (hdirective : ∀ c, c.FromDirective → P c) {text : String} {c : Compilation}
    (h : compile text descriptor settings = .ok c) : ∀ d ∈ c.commands, P d := by
  obtain ⟨s, hparse, hdraft⟩ := compile_ok h
  obtain ⟨_, _, _, _, _, hcommands, -⟩ := compile_draft_ok hdraft
  rw [hcommands]
  exact fun d hd => forall_command_of_fromDirective hcomment hdirective hparse d
    (commands_ofScript_subset s d hd)

/-- **The command line of a draft:** its words are those of its parts. -/
theorem exists_commandLine {draft : Draft} {c : Compilation}
    (h : (draft.compile descriptor settings).result = .ok c) :
    ∃ l : CommandLine, l.Fits c.commands descriptor settings ∧
      c.args = l.args c.commands settings.overwrite := by
  obtain ⟨merged, duration, arguments, source, output, hcommands, hmerged, hduration, hrun, hsource,
    houtput, hargs⟩ := compile_draft_ok h
  obtain ⟨ts, hts, hwords⟩ := assemble_built (Filter.run_steps hrun) settings source output
  rw [hwords, Except.ok.injEq] at hargs
  rw [hcommands]
  refine ⟨⟨merged, duration, ts, source, output⟩, ⟨hmerged, hduration, hts, ?_, ?_⟩, ?_⟩
  · rw [find?_sourceCandidates, hsource]
  · rw [outputName_text] at houtput
    exact Except.ok.inj houtput
  · -- trims, formats and codecs are the same before and after crops are merged
    rw [CommandLine.args, ← hargs,
      filterMap_mergeCrops (f := Command.trim?) (fun _ _ => rfl) (fun _ _ => rfl) hmerged,
      filterMap_mergeCrops (f := Command.format?) (fun _ _ => rfl) (fun _ _ => rfl) hmerged,
      filterMap_mergeCrops (f := Command.stream?) (fun _ _ => rfl) (fun _ _ => rfl) hmerged]

/-! ## Which one counts -/

/-- **The last trim** gives the length of the output, whatever trims come before it. -/
theorem outputDuration_of_getLast? {start stop : String}
    (h : (commands.filterMap Command.trim?).getLast? = some (start, stop)) :
    outputDuration commands descriptor = outputDuration [.trim start stop] descriptor := by
  rw [outputDuration, outputDuration, h]
  rfl

theorem flatMap_of_getLast? {α : Type} {l : List α} {a : α} (f : α → List String)
    (h : l.getLast? = some a) : l.flatMap f = l.dropLast.flatMap f ++ f a := by
  obtain ⟨front, rfl⟩ := List.getLast?_eq_some_iff.1 h
  rw [List.dropLast_concat, List.flatMap_append, List.flatMap_singleton]

/-! ## Options -/

/-- The options that a command line can have behind the file to read. -/
def outputOptions : List String := ["-y", "-vf", "-f", "-crf", "-b:a"]

theorem formatWords_options (h : ∀ c ∈ commands, c.NoOption) {w : String}
    (hw : w ∈ (commands.filterMap Command.format?).flatMap formatWords) (hoption : IsOption w) :
    w = "-f" := by
  obtain ⟨format, hformat, hw⟩ := List.mem_flatMap.1 hw
  obtain ⟨c, hc, hcformat⟩ := List.mem_filterMap.1 hformat
  rcases c with _ | f | _ | _ | _ | _ | _ | _ | _ | _ | _ | _ | _
  case convert =>
    obtain rfl : f = format := Option.some.inj hcformat
    simp only [formatWords, List.mem_cons, List.not_mem_nil, or_false] at hw
    rcases hw with rfl | rfl
    · rfl
    · exact absurd hoption (h _ hc)
  all_goals cases hcformat

theorem trimWords_options (h : ∀ c ∈ commands, c.NoOption) {w : String}
    (hw : w ∈ (commands.filterMap Command.trim?).flatMap trimWords) (hoption : IsOption w) :
    w = "-ss" ∨ w = "-to" := by
  obtain ⟨⟨start, stop⟩, htimes, hw⟩ := List.mem_flatMap.1 hw
  obtain ⟨hstart, hstop⟩ := h _ (mem_of_mem_trims htimes)
  simp only [trimWords, List.mem_cons, List.not_mem_nil, or_false] at hw
  rcases hw with rfl | rfl | rfl | rfl
  · exact .inl rfl
  · exact absurd hoption hstart
  · exact .inr rfl
  · exact absurd hoption hstop

/-- No word of a trim stands for the file to read. -/
theorem trimWords_ne_input (h : ∀ c ∈ commands, c.NoOption) :
    ∀ w ∈ (commands.filterMap Command.trim?).flatMap trimWords, (w != "-i") = true := by
  intro w hw
  refine bne_iff_ne.2 ?_
  rintro rfl
  rcases trimWords_options h hw (by decide) with heq | heq
  · exact absurd heq (by decide)
  · exact absurd heq (by decide)

theorem codecWords_options {streams : List (Word Stream)} {w : String}
    (hw : w ∈ streams.flatMap codecWords) (hoption : IsOption w) : w = "-crf" ∨ w = "-b:a" := by
  obtain ⟨stream, -, hw⟩ := List.mem_flatMap.1 hw
  rw [codecWords] at hw
  split at hw
  · simp only [List.mem_cons, List.not_mem_nil, or_false] at hw
    rcases hw with rfl | rfl
    · exact .inr rfl
    · exact absurd hoption (by decide)
  · simp only [List.mem_cons, List.not_mem_nil, or_false] at hw
    rcases hw with rfl | rfl
    · exact .inl rfl
    · exact absurd hoption (by decide)

theorem Filter.Builds.not_isOption {ctx : Filter.Context} {n : Nat} {cs : List Command}
    {ts : List String} (h : Filter.Builds ctx n cs ts) : ∀ t ∈ ts, ¬ IsOption t := by
  induction h with
  | nil => intro t ht; cases ht
  | picture hc hbuilt _ ih =>
    intro t ht
    rcases List.mem_cons.1 ht with rfl | ht
    · exact Filter.not_isOption_of_build hc hbuilt
    · exact ih t ht
  | other _ _ ih => exact ih

namespace CommandLine

variable {l : CommandLine}

/-- The words between the file to read and the file to write. -/
def outputWords (l : CommandLine) (commands : List Command) (overwrite : Bool) : List String :=
  (if overwrite then ["-y"] else []) ++
    (if l.merged.any Command.isPicture then ["-vf", String.intercalate "," l.fragments] else []) ++
    (commands.filterMap Command.format?).flatMap formatWords ++
    (commands.filterMap Command.stream?).flatMap codecWords

theorem args_eq (l : CommandLine) (commands : List Command) (overwrite : Bool) :
    l.args commands overwrite = (commands.filterMap Command.trim?).flatMap trimWords ++
      ["-i", l.source] ++ l.outputWords commands overwrite ++ [l.output] := by
  simp only [args, outputWords, List.append_assoc]

/-- **The options behind the file to read** are those of the parts there. -/
theorem Fits.mem_outputOptions (h : l.Fits commands descriptor settings)
    (hcommands : ∀ c ∈ commands, c.NoOption) {overwrite : Bool} {w : String}
    (hw : w ∈ l.outputWords commands overwrite) (hoption : IsOption w) : w ∈ outputOptions := by
  rw [outputWords, List.mem_append, List.mem_append, List.mem_append] at hw
  rcases hw with ((hw | hw) | hw) | hw
  · split at hw
    · rw [List.mem_singleton.1 hw]
      decide
    · cases hw
  · split at hw
    · simp only [List.mem_cons, List.not_mem_nil, or_false] at hw
      rcases hw with rfl | rfl
      · decide
      · exact absurd hoption (not_isOption_intercalate h.fragments.not_isOption)
    · cases hw
  · rw [formatWords_options hcommands hw hoption]
    decide
  · rcases codecWords_options hw hoption with rfl | rfl
    · decide
    · decide

end CommandLine

/-- **The command line of a script.** Its words are those of its parts and of its commands; the
last times among them are those that the length of the output is taken from, the last format is
the one that names the file to write, and no word is an option but for those of the parts and for
what the file names are. -/
theorem compile_commandLine {text : String} {descriptor : Option Descriptor} {settings : Settings}
    {c : Compilation} (h : compile text descriptor settings = .ok c) :
    ∃ l : CommandLine, l.Fits c.commands descriptor settings ∧
      c.args = l.args c.commands settings.overwrite ∧
      (∀ start stop, (c.commands.filterMap Command.trim?).getLast? = some (start, stop) →
        outputDuration [.trim start stop] descriptor = .ok l.duration ∧
        ∃ before after, c.args = before ++ ["-ss", start, "-to", stop, "-i", l.source] ++ after ++
          [l.output] ∧ "-ss" ∉ after ∧ "-to" ∉ after) ∧
      (∀ format, (c.commands.filterMap Command.format?).getLast? = some format →
        (settings.output.isGiven = false → l.output = "output." ++ extensionOf format) ∧
        ∃ before after, c.args = before ++ ["-f", Filter.muxer format] ++ after ++ [l.output] ∧
          "-f" ∉ after) ∧
      ∀ w ∈ c.args, IsOption w →
        w ∈ ["-ss", "-to", "-i"] ++ outputOptions ∨ w = l.source ∨ w = l.output := by
  obtain ⟨_, -, hdraft⟩ := compile_ok h
  obtain ⟨l, hfits, hargs⟩ := exists_commandLine hdraft
  have hcommands : ∀ d ∈ c.commands, d.NoOption :=
    forall_command_of_compile (fun _ => trivial) (fun _ hd => hd.noOption) h
  refine ⟨l, hfits, hargs, ?_, ?_, ?_⟩
  · intro start stop hlast
    refine ⟨?_, (c.commands.filterMap Command.trim?).dropLast.flatMap trimWords,
      l.outputWords c.commands settings.overwrite, ?_, ?_, ?_⟩
    · rw [← outputDuration_of_getLast? hlast]
      exact hfits.duration
    · rw [hargs, l.args_eq, flatMap_of_getLast? trimWords hlast]
      simp only [trimWords, List.append_assoc, List.cons_append, List.nil_append]
    · -- what comes behind the file to read has options of its own only
      intro hmem
      exact absurd (hfits.mem_outputOptions hcommands hmem (by decide)) (by decide)
    · intro hmem
      exact absurd (hfits.mem_outputOptions hcommands hmem (by decide)) (by decide)
  · intro format hlast
    refine ⟨?_, (c.commands.filterMap Command.trim?).flatMap trimWords ++ ["-i", l.source] ++
      (if settings.overwrite then ["-y"] else []) ++
      (if l.merged.any Command.isPicture then ["-vf", String.intercalate "," l.fragments]
        else []) ++
      (c.commands.filterMap Command.format?).dropLast.flatMap formatWords,
      (c.commands.filterMap Command.stream?).flatMap codecWords, ?_, ?_⟩
    · intro hgiven
      have houtput := hfits.output
      rw [if_neg (by simp [hgiven]), Json.text.injEq, outputExtension, hlast] at houtput
      exact houtput.symm
    · rw [hargs, CommandLine.args, flatMap_of_getLast? formatWords hlast]
      simp only [formatWords, List.append_assoc]
    · intro hmem
      rcases codecWords_options hmem (by decide) with heq | heq
      · exact absurd heq (by decide)
      · exact absurd heq (by decide)
  · -- every word belongs to one of four parts, and a file name may be anything
    intro w hw hoption
    rw [hargs, l.args_eq, List.mem_append, List.mem_append, List.mem_append] at hw
    rcases hw with ((hw | hw) | hw) | hw
    · rcases trimWords_options hcommands hw hoption with rfl | rfl
      · exact .inl (by decide)
      · exact .inl (by decide)
    · simp only [List.mem_cons, List.not_mem_nil, or_false] at hw
      rcases hw with rfl | rfl
      · exact .inl (by decide)
      · exact .inr (.inl rfl)
    · exact .inl (List.mem_append_right _ (hfits.mem_outputOptions hcommands hw hoption))
    · exact .inr (.inr (List.mem_singleton.1 hw))

/-- A script in which crops are merged, and only the last trim gives the time of the fade. -/
def twoTrims : String :=
  "trim from 1 to 9\ncrop 4px from left; crop 6px from top\nconvert to mkv\nfade out for 2s\n" ++
    "trim from 2 to 5"

theorem compile_commandLine_twoTrims :
    ∃ c, compile twoTrims none {} = .ok c ∧
      c.args = ["-ss", "1", "-to", "9", "-ss", "2", "-to", "5", "-i", "input.mp4",
        "-vf", "crop=iw-4:ih-6:4:6,fade=t=out:st=1:d=2", "-f", "matroska", "output.mkv"] ∧
      ∃ l : CommandLine, l.Fits c.commands none {} ∧ c.args = l.args c.commands false := by
  have hargs : (compile twoTrims none {}).toOption.map Compilation.args =
      some ["-ss", "1", "-to", "9", "-ss", "2", "-to", "5", "-i", "input.mp4",
        "-vf", "crop=iw-4:ih-6:4:6,fade=t=out:st=1:d=2", "-f", "matroska", "output.mkv"] := by
    decide +kernel
  rcases hc : compile twoTrims none {} with f | c
  · rw [hc] at hargs
    cases hargs
  · rw [hc] at hargs
    obtain ⟨l, hfits, hl, -⟩ := compile_commandLine hc
    exact ⟨c, rfl, Option.some.inj hargs, l, hfits, hl⟩

end ClipScript
